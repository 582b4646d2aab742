import ApiCodec.Reference.Path
import ApiCodec.Text.Words

set_option autoImplicit false

namespace ApiCodec

/-- Keeps the characters that satisfy the test and puts one underscore for what lay between two
of them. `started` tells whether a character was kept before, `gap` whether one was left out
since. -/
def scrubFrom (test : Char → Bool) (started gap : Bool) : List Char → List Char
  | [] => []
  | c :: rest =>
      if test c then
        if gap && started then '_' :: c :: scrubFrom test true false rest
        else c :: scrubFrom test true false rest
      else scrubFrom test started true rest

/-- The name of what has no usable character in its name. -/
def unnamed : List Char := ['u', 'n', 'n', 'a', 'm', 'e', 'd']

/-- A text as an identifier: the runs of characters that satisfy the test, joined by single
underscores. -/
def sanitizeBy (test : Char → Bool) (text : List Char) : List Char :=
  match scrubFrom test false false text with
  | [] => unnamed
  | kept => kept

/-- A text as an identifier made of letters, numbers and single underscores. -/
def sanitize (text : String) : String := String.ofList (sanitizeBy Text.isAlphanumeric text.toList)

structure CodeName where
  /-- The name as it was given. -/
  given : String
  pascal : String
  camel : String
  deriving DecidableEq, Repr

/-- The spellings of an operation's or parameter's name. -/
def CodeName.of (name : String) : CodeName :=
  { given := name
    pascal := Text.pascalCase (sanitize name)
    camel := Text.camelCase (sanitize name) }

/-- The name under which a definition of another file is published. A name that is taken gets the
file's stem in front. -/
def promotedName (file name : String) (taken : String → Bool) : String :=
  if taken name then Text.pascalCase (sanitize (Path.stem file)) ++ name else name

end ApiCodec

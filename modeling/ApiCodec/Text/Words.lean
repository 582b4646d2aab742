import ApiCodec.Text.Letters

set_option autoImplicit false

/-!
The words of an identifier, and the two spellings made of them: PascalCase and camelCase.

A word ends at a character that is neither letter nor number, before a capital that follows a
small letter, and before the last of several capitals if a small letter comes next.
-/

namespace ApiCodec.Text

/-- The case of the last letter of a word; a word that has none yet stands at its boundary. -/
inductive LetterMode
  | boundary
  | lower
  | upper
  deriving DecidableEq

def LetterMode.next (mode : LetterMode) (c : Char) : LetterMode :=
  if isLowercase c then .lower else if isUppercase c then .upper else mode

/-- Cuts a run of letters and numbers into words. `word` is the word so far, in reverse. -/
def cutWords (mode : LetterMode) (word : List Char) : List Char → List (List Char)
  | [] => []
  | [c] => [(c :: word).reverse]
  | c :: d :: rest =>
      if mode.next c = .lower ∧ isUppercase d then
        (c :: word).reverse :: cutWords .boundary [] (d :: rest)
      else if mode = .upper ∧ isUppercase c ∧ isLowercase d then
        word.reverse :: cutWords .boundary [c] (d :: rest)
      else cutWords (mode.next c) (c :: word) (d :: rest)

/-- The maximal runs of characters that satisfy a test; `run` is the open run, in reverse. -/
def runsFrom (test : Char → Bool) (run : List Char) : List Char → List (List Char)
  | [] => if run.isEmpty then [] else [run.reverse]
  | c :: rest =>
      if test c then runsFrom test (c :: run) rest
      else if run.isEmpty then runsFrom test [] rest
      else run.reverse :: runsFrom test [] rest

def words (text : List Char) : List (List Char) :=
  (runsFrom isAlphanumeric [] text).flatMap (cutWords .boundary [])

/-- A word in small letters; a capital sigma at its end becomes a final sigma. -/
def lowerWord : List Char → List Char
  | [] => []
  | [c] => if c.toNat = 0x3a3 then [Char.ofNat 0x3c2] else lowerChar c
  | c :: d :: rest => lowerChar c ++ lowerWord (d :: rest)

/-- A word with a capital first letter and small letters after it. -/
def capitalWord : List Char → List Char
  | [] => []
  | c :: rest => upperChar c ++ lowerWord rest

/-- All words capitalised and put together. -/
def pascalCase (text : String) : String :=
  String.ofList ((words text.toList).flatMap capitalWord)

/-- The first word in small letters, all others capitalised. -/
def camelCase (text : String) : String :=
  match words text.toList with
  | [] => ""
  | first :: rest => String.ofList (lowerWord first ++ rest.flatMap capitalWord)

end ApiCodec.Text

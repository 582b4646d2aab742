import ApiCodec.Text.Segments

set_option autoImplicit false

namespace ApiCodec.Path

/-- Adds a segment to the segments so far, the last one first. Above the root there is nothing;
above a relative start `..` stays. -/
def push (absolute : Bool) (stack : List (List Char)) (segment : List Char) : List (List Char) :=
  if segment = [] ∨ segment = ['.'] then stack
  else if segment = ['.', '.'] then
    match stack with
    | [] => if absolute then [] else [segment]
    | top :: below =>
        if top = ['.', '.'] then if absolute then stack else segment :: stack else below
  else segment :: stack

def isAbsolute (path : List Char) : Bool := path.head? == some '/'

/-- The path without `.`, without empty segments, and with `..` resolved as far as it can be. -/
def normalizeChars (path : List Char) : List Char :=
  let stack := (Text.splitOn '/' path).foldl (push (isAbsolute path)) []
  let joined := ['/'].intercalate stack.reverse
  if isAbsolute path then '/' :: joined else joined

def directory? (path : List Char) : Option (List Char) :=
  match (Text.splitOn '/' path).dropLast with
  | [] => none
  | pieces => some (['/'].intercalate pieces)

/-- The path `target` as it reads in the directory of the file `base`. -/
def joinChars (base target : List Char) : List Char :=
  if isAbsolute target then normalizeChars target
  else
    match directory? base with
    | some dir => normalizeChars (dir ++ '/' :: target)
    | none => normalizeChars target

def normalize (path : String) : String := String.ofList (normalizeChars path.toList)

/-- The path `target` as it reads in the directory of the file `base`. -/
def joinRelative (base target : String) : String :=
  String.ofList (joinChars base.toList target.toList)

/-- The last segment of a path up to its first point. -/
def stem (path : String) : String :=
  let base := (Text.splitOn '/' path.toList).getLastD []
  String.ofList ((Text.splitOn '.' base).headD [])

end ApiCodec.Path

import ApiCodec.Text.Segments

set_option autoImplicit false

namespace ApiCodec.Files

/-- Whether a segment adds nothing to the path before it. -/
def isVoid (segment : List Char) : Bool := segment = [] || segment = ['.']

/-- The segments after the first, without those at the end that add nothing. -/
def trimEnd (segments : List (List Char)) : List (List Char) :=
  (segments.reverse.dropWhile isVoid).reverse

/-- The first segment of a path and those after it that say something up to the last such. An
absolute path has an empty first segment. -/
def outline (path : List Char) : List Char × List (List Char) :=
  match Text.splitOn '/' path with
  | [] => ([], [])
  | first :: rest => (first, trimEnd rest)

def pathOf (absolute : Bool) (first : List Char) (rest : List (List Char)) : List Char :=
  if absolute && rest.isEmpty then ['/'] else ['/'].intercalate (first :: rest)

/-- The path without its last segment; the root and the empty path have none. -/
def parentChars? (path : List Char) : Option (List Char) :=
  let absolute := path.head? == some '/'
  match outline path with
  | (first, []) => if absolute || first.isEmpty then none else some []
  | (first, rest) => some (pathOf absolute first (trimEnd rest.dropLast))

def joinChars (directory path : List Char) : List Char :=
  if path.head? == some '/' || directory.isEmpty then path
  else if directory.getLast? == some '/' then directory ++ path
  else directory ++ '/' :: path

/-- The name of the file that a path leads to, if its last segment is a name. -/
def fileName? (path : List Char) : Option (List Char) :=
  let (first, rest) := outline path
  let last := rest.getLastD first
  if last.isEmpty || last = ['.'] || last = ['.', '.'] then none else some last

/-- The text after the last point of a file name; a point at its start does not count. -/
def extension? (path : List Char) : Option (List Char) :=
  match fileName? path with
  | none => none
  | some name =>
      match (Text.splitOn '.' name).reverse with
      | [] => none
      | last :: before =>
          if (['.'].intercalate before.reverse).isEmpty then none else some last

def parent? (path : String) : Option String := (parentChars? path.toList).map String.ofList

def join (directory path : String) : String :=
  String.ofList (joinChars directory.toList path.toList)

/-- Whether a path names a JSON file, by its extension in letters of either case. -/
def isJson (path : String) : Bool :=
  match extension? path.toList with
  | some extension => extension.map Char.toLower == ['j', 's', 'o', 'n']
  | none => false

end ApiCodec.Files

import ApiCodec.Files.Path

set_option autoImplicit false

namespace ApiCodec.Files

/-- Why a file system refuses. -/
inductive Fault
  | notFound
  | notDirectory
  | isDirectory
  | alreadyExists
  | nameTooLong
  /-- A path holds the character NUL. -/
  | nulInPath
  | other (text : String)
  deriving DecidableEq, Repr

def Fault.message : Fault → String
  | .notFound => "No such file or directory (os error 2)"
  | .notDirectory => "Not a directory (os error 20)"
  | .isDirectory => "Is a directory (os error 21)"
  | .alreadyExists => "File exists (os error 17)"
  | .nameTooLong => "File name too long (os error 36)"
  | .nulInPath => "file name contained an unexpected NUL byte"
  | .other text => text

/-- The longest segment and the longest path that a file system takes, in bytes. -/
def longestSegment : Nat := 255

def longestPath : Nat := 4095

inductive Entry
  | file (content : String)
  | directory
  deriving DecidableEq, Repr

/-- A place in a tree: the names on the way from the root. -/
abbrev Place := List String

structure Tree where
  /-- What is at each place below the root. -/
  entries : List (Place × Entry)
  /-- The place from which relative paths start. -/
  workingDirectory : Place
  deriving Repr

namespace Tree

/-- What is at a place; the root is a directory. -/
def entry? (t : Tree) (place : Place) : Option Entry :=
  if place.isEmpty then some .directory else t.entries.lookup place

def isDirectory (t : Tree) (place : Place) : Bool := t.entry? place = some .directory

def put (t : Tree) (place : Place) (entry : Entry) : Tree :=
  { t with
    entries :=
      if t.entries.any (·.1 == place) then
        t.entries.map fun (other, old) => (other, if other = place then entry else old)
      else t.entries ++ [(place, entry)] }

def child (t : Tree) (here : Place) (name : String) : Except Fault Place :=
  if !t.isDirectory here then .error .notDirectory
  else if longestSegment < name.utf8ByteSize then .error .nameTooLong
  else .ok (here ++ [name])

def step (t : Tree) (here : Place) (segment : String) : Except Fault Place :=
  if !t.isDirectory here then .error .notDirectory
  else if segment = "" ∨ segment = "." then .ok here
  else if segment = ".." then .ok here.dropLast
  else
    match t.child here segment with
    | .error fault => .error fault
    | .ok place => if (t.entry? place).isSome then .ok place else .error .notFound

/-- A walk along segments. -/
def walk (t : Tree) (here : Place) : List String → Except Fault Place
  | [] => .ok here
  | segment :: rest =>
      match t.step here segment with
      | .error fault => .error fault
      | .ok next => t.walk next rest

/-- Where a walk along a path starts, and its segments. -/
def start (t : Tree) (path : String) : Except Fault (Place × List String) :=
  if path.toList.contains '\x00' then .error .nulInPath
  else if longestPath < path.utf8ByteSize then .error .nameTooLong
  else
    match Text.segments '/' path with
    | "" :: rest => if path = "" then .error .notFound else .ok ([], rest)
    | segments => .ok (t.workingDirectory, segments)

def locate (t : Tree) (path : String) : Except Fault Place :=
  match t.start path with
  | .error fault => .error fault
  | .ok (here, segments) => t.walk here segments

/-- Whether a path leads anywhere. -/
def has (t : Tree) (path : String) : Bool := (t.locate path).isOk

/-- The text of the file that a path leads to. -/
def read (t : Tree) (path : String) : Except Fault String :=
  match t.locate path with
  | .error fault => .error fault
  | .ok place =>
      match t.entry? place with
      | some (.file content) => .ok content
      | some .directory => .error .isDirectory
      | none => .error .notFound

/-- Makes a directory at a place that is still free, below a directory that is there. -/
def makeDirectory (t : Tree) (path : String) : Except Fault Tree :=
  match t.start path with
  | .error fault => .error fault
  | .ok (here, segments) =>
      let named := (segments.reverse.dropWhile (· == "")).reverse
      match named.getLast? with
      | none => .error .alreadyExists
      | some last =>
          match t.walk here named.dropLast with
          | .error fault => .error fault
          | .ok here =>
              if last = "." ∨ last = ".." then .error .alreadyExists
              else
                match t.child here last with
                | .error fault => .error fault
                | .ok place =>
                    if (t.entry? place).isSome then .error .alreadyExists
                    else .ok (t.put place .directory)

/-- Makes a directory unless it is there. -/
def ensureDirectory (t : Tree) (path : String) : Except Fault Tree :=
  match t.makeDirectory path with
  | .ok made => .ok made
  | .error fault =>
      match t.locate path with
      | .ok place => if t.isDirectory place then .ok t else .error fault
      | .error _ => .error fault

/-- Makes the directories of a list of paths, each a parent of the one before it, as far as they
lack: up to the first that can be made or is there, and from there down again. What was made stays
if a later one is refused. -/
def ensureAll (t : Tree) : List String → Tree × Except Fault Unit
  | [] => (t, .ok ())
  | path :: parents =>
      match t.ensureDirectory path with
      | .ok made => (made, .ok ())
      | .error .notFound =>
          match t.ensureAll parents with
          | (made, .error fault) => (made, .error fault)
          | (made, .ok ()) =>
              match made.ensureDirectory path with
              | .ok complete => (complete, .ok ())
              | .error fault => (made, .error fault)
      | .error fault => (t, .error fault)

/-- A path and those above it, each the parent of the one before it; the empty path is left out. -/
def ancestors : Nat → String → List String
  | 0, _ => []
  | budget + 1, path =>
      if path.isEmpty then []
      else
        match parent? path with
        | some above => path :: ancestors budget above
        | none => [path]

/-- Makes a directory with all above it that are not there yet. -/
def makeDirectories (t : Tree) (path : String) : Tree × Except Fault Unit :=
  t.ensureAll (ancestors (path.length + 1) path)

/-- Writes a file in a directory that is there. -/
def write (t : Tree) (path content : String) : Except Fault Tree :=
  match t.start path with
  | .error fault => .error fault
  | .ok (here, segments) =>
      let last := segments.getLastD ""
      match t.walk here segments.dropLast with
      | .error fault => .error fault
      | .ok here =>
          if last = "" ∨ last = "." ∨ last = ".." then .error .isDirectory
          else
            match t.child here last with
            | .error fault => .error fault
            | .ok place =>
                if t.isDirectory place then .error .isDirectory
                else .ok (t.put place (.file content))

end Tree

end ApiCodec.Files

import ApiCodec.Document.Text
import ApiCodec.Files.Tree
import ApiCodec.Reference.Pointer
import ApiCodec.Text.Segments

set_option autoImplicit false

namespace ApiCodec

/-- A document and the files that it refers to, by their path relative to it. -/
structure Bundle where
  root : Json
  fragments : Fragments

/-- Why a document and its files are not loaded. -/
inductive BundleError
  | file (path : String) (fault : Files.Fault)
  | format (path : String) (cause : ParseError)
  /-- More than a number of files were loaded, and references to others were left. -/
  | endless (files : Nat)

def BundleError.message : BundleError → String
  | .file path fault => "failed to read " ++ path ++ ": " ++ fault.message
  | .format path cause => "failed to parse " ++ path ++ ": " ++ cause.message
  | .endless files => "more than " ++ toString files ++ " files are referred to"

mutual

/-- The texts under `$ref` anywhere in a value, in order. -/
def Json.references : Json → List String
  | .arr items => itemReferences items
  | .obj fields => fieldReferences fields
  | .null => []
  | .bool _ => []
  | .num _ => []
  | .str _ => []

def itemReferences : List Json → List String
  | [] => []
  | item :: rest => item.references ++ itemReferences rest

def fieldReferences : List (String × Json) → List String
  | [] => []
  | (key, value) :: rest =>
      (match key, value with
        | "$ref", .str path => [path]
        | _, _ => value.references) ++ fieldReferences rest

end

/-- The file that a reference in a file leads to. References to other hosts lead to none. -/
def targetFile? (base : Option String) (reference : String) : Option String :=
  if Text.contains "://" reference then none
  else
    match Pointer.parse reference with
    | .ok pointer => (pointer.relativeTo base).file
    | .error _ => none

def targetFiles (base : Option String) (value : Json) : List String :=
  value.references.filterMap (targetFile? base)

namespace Bundle

/-- The state of loading: what is loaded, and whose references are still to be followed, the latest
first. -/
structure Progress where
  fragments : Fragments
  pending : List (Option String × Json)

variable {m : Type → Type} [Monad m]

def loadFiles (load : String → m Json) (progress : Progress) : List String → m Progress
  | [] => return progress
  | file :: rest => do
      if Assoc.has file progress.fragments then
        loadFiles load progress rest
      else
        let value ← load file
        loadFiles load
          { fragments := progress.fragments ++ [(file, value)]
            pending := (some file, value) :: progress.pending }
          rest

/-- Follows references until all are followed; `none` if files are left once the references of
`limit` documents were followed. -/
def follow (load : String → m Json) : Nat → Progress → m (Option Fragments)
  | limit, { fragments, pending } =>
      match pending, limit with
      | [], _ => return some fragments
      | _ :: _, 0 => return none
      | (file, value) :: rest, limit + 1 => do
          let next ← loadFiles load { fragments, pending := rest } (targetFiles file value)
          follow load limit next

/-- The document at a path with all files that it refers to. Their paths are relative to the
document, and those given to the loader start from its directory. -/
def load (loader : String → m Json) (limit : Nat) (path : String) : m (Option Bundle) := do
  let root ← loader path
  let directory := (Files.parent? path).getD ""
  let fragments ←
    follow (fun file => loader (Files.join directory file)) limit
      { fragments := [], pending := [(none, root)] }
  return fragments.map fun fragments => { root, fragments }

end Bundle

/-- The format in which a file is written: its name tells JSON, all else is YAML. -/
def TextFormat.ofPath (path : String) : TextFormat := if Files.isJson path then .json else .yaml

def readDocument (path : String) : Except Files.Fault String → Except BundleError Json
  | .error fault => .error (.file path fault)
  | .ok text =>
      match (TextFormat.ofPath path).read text with
      | .ok value => .ok value
      | .error cause => .error (.format path cause)

end ApiCodec

import ApiCodec.Json.Location
import ApiCodec.Reference.Path

set_option autoImplicit false

namespace ApiCodec

/-- What a pointer addresses, as far as its segments tell. -/
inductive PointerKind
  | definition
  | parameter
  | response
  | requestBody
  | other
  deriving DecidableEq, Repr, Inhabited

/-- The name of a kind of target in messages. -/
def PointerKind.label : PointerKind → String
  | .definition => "Definition"
  | .parameter => "Parameter"
  | .response => "Response"
  | .requestBody => "RequestBody"
  | .other => "Other"

/-- Why a reference leads nowhere. -/
inductive ReferenceError
  /-- The text is no pointer. -/
  | invalidPointer (raw : String)
  /-- The pointer addresses a collection that does not hold what is asked for. -/
  | unsupportedCollection (pointer collection : String)
  /-- The pointer's file is not loaded. -/
  | missingFragment (file : String)
  /-- Nothing is at the place that the pointer addresses. -/
  | targetNotFound (pointer : String)
  deriving DecidableEq, Repr

def ReferenceError.message : ReferenceError → String
  | .invalidPointer raw => "invalid reference format: " ++ raw
  | .unsupportedCollection pointer collection =>
      "reference " ++ pointer ++ " points into unsupported collection `" ++ collection ++ "`"
  | .missingFragment file => "external fragment not loaded: " ++ file
  | .targetNotFound pointer => "reference target not found: " ++ pointer

/-- A parsed reference. -/
structure Pointer where
  /-- The file part; a pointer without one is local. -/
  file : Option String
  kind : PointerKind
  /-- The decoded segments before the last, with slashes between them. -/
  collection : String
  /-- The decoded last segment, or the stem of a file that is meant as a whole. -/
  name : String
  /-- The text after the hash sign, still escaped. -/
  fragment : String
  deriving DecidableEq, Repr

namespace Pointer

/-- What decoded segments address. A single segment addresses a definition in another file. -/
def kindOf (isExternal : Bool) : List String → PointerKind
  | ["definitions", _] => .definition
  | ["components", "schemas", _] => .definition
  | ["parameters", _] => .parameter
  | ["components", "parameters", _] => .parameter
  | ["responses", _] => .response
  | ["components", "responses", _] => .response
  | ["components", "requestBodies", _] => .requestBody
  | [_] => if isExternal then .definition else .other
  | _ => .other

/-- File and fragment of a reference: the texts before and after its first hash sign. -/
def split (raw : String) : String × String := (Text.cut? '#' raw).getD (raw, "")

/-- The decoded segments of a fragment; `none` if it does not start with a slash or if a segment
is empty. -/
def segments? (fragment : String) : Option (List String) :=
  match fragment.toList with
  | c :: path =>
      let names := (Text.splitOn '/' path).map fun segment => Json.unescape segment
      if c = '/' ∧ [] ∉ names then some (names.map String.ofList) else none
  | [] => none

def parse (raw : String) : Except ReferenceError Pointer :=
  let (path, fragment) := split raw
  let file := if path.isEmpty then none else some path
  if fragment.isEmpty then
    match file with
    | some path =>
        .ok { file, kind := .other, collection := "", name := Path.stem path, fragment := "" }
    | none => .error (.invalidPointer raw)
  else
    match segments? fragment with
    | some segments =>
        .ok
          { file
            kind := kindOf file.isSome segments
            collection := "/".intercalate segments.dropLast
            name := segments.getLastD ""
            fragment }
    | none => .error (.invalidPointer raw)

def isExternal (p : Pointer) : Bool := p.file.isSome

/-- The file that a file name means when it stands in `base`. -/
def anchor : Option String → Option String → Option String
  | none, base => base
  | some file, some base => some (Path.joinRelative base file)
  | some file, none => some (Path.normalize file)

/-- The pointer as it reads in the root document, found inside the file `base`. A single segment
addresses a definition as soon as the pointer leads to another file. -/
def relativeTo (p : Pointer) (base : Option String) : Pointer :=
  let file := anchor p.file base
  { p with
    file
    kind :=
      if p.kind = .other ∧ p.collection = "" ∧ p.fragment ≠ "" ∧ file.isSome then .definition
      else p.kind }

/-- The identity of a pointer's target. -/
def key (p : Pointer) : String := p.file.getD "" ++ "#" ++ p.fragment

/-- Parses a reference that has to address a given kind of target. -/
def expectKind (raw : String) (kind : PointerKind) : Except ReferenceError Pointer :=
  match parse raw with
  | .error e => .error e
  | .ok p =>
      if p.kind = kind then .ok p else .error (.unsupportedCollection raw p.collection)

end Pointer

/-- The files that a document refers to, by their path relative to it. -/
abbrev Fragments := List (String × Json)

/-- The node that an external pointer addresses. -/
def Fragments.lookup (fragments : Fragments) (p : Pointer) : Except ReferenceError Json :=
  match p.file with
  | none => .error (.missingFragment p.key)
  | some file =>
      match Assoc.get? file fragments with
      | none => .error (.missingFragment file)
      | some value =>
          match Json.at? p.fragment.toList value with
          | none => .error (.targetNotFound p.key)
          | some node => .ok node

end ApiCodec

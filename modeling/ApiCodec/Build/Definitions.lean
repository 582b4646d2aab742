import ApiCodec.Build.Trace
import ApiCodec.Text.NameSet

set_option autoImplicit false

/-!
Definitions made of schemas. A local pointer becomes the name it ends in. The target of an external
pointer is put in place of the pointer, unless it is published under a name; a target that is
reached again inside itself is published under a name of its own.

The targets that are being put in place are pairwise different and each is found in a fragment, so
there are never more of them than `Sources.addresses`; that is why `Sources.follow` ends.
-/

namespace ApiCodec

open Document

/-- What external pointers are followed into. -/
structure Sources where
  fragments : Fragments
  /-- The names under which targets are published, by the keys of their pointers. -/
  aliases : List (String × String)
  /-- The names that the document itself gives to definitions. -/
  declared : List String

/-- The keys of all pointers into fragments that lead to a node. -/
def Fragments.keys (fragments : Fragments) : List String :=
  fragments.flatMap fun (file, value) =>
    (Json.addresses value).map fun path => file ++ "#" ++ String.ofList path

theorem Fragments.key_mem_keys {fragments : Fragments} {p : Pointer} {node : Json}
    (h : fragments.lookup p = .ok node) : p.key ∈ fragments.keys := by
  simp only [Fragments.lookup] at h
  split at h
  · simp at h
  · next file hfile =>
      split at h
      · simp at h
      · next value hvalue =>
          split at h
          · simp at h
          · next place hplace =>
              simp only [keys, List.mem_flatMap, List.mem_map]
              exact ⟨(file, value), Assoc.mem_of_get? hvalue, p.fragment.toList,
                Json.mem_addresses hplace, by simp [Pointer.key, hfile]⟩

def SchemaType.dataType : SchemaType → DataType
  | .string => .string
  | .number => .number
  | .integer => .integer
  | .boolean => .boolean
  | .array => .array
  | .object => .object
  | .null => .null
  | .file => .file

/-- The type of a definition, whether its values may be null, and the types of which a value may
have any. -/
def typesOf (nullable : Option Bool) : Option TypeSet → Option DataType × Bool × List DataType
  | none => (none, nullable.getD false, [])
  | some (.one type) => (some (SchemaType.dataType type), nullable.getD false, [])
  | some (.list types) =>
      let orNull := nullable.getD false || types.contains .null
      match (types.filter (· != .null)).map SchemaType.dataType with
      | [] => (some .null, orNull, [])
      | [type] => (some type, orNull, [])
      | variants => (none, orNull, variants)

/-- A limit and whether it is exclusive. An exclusive limit of its own takes the place of the
inclusive one. -/
def limitOf (inclusive : Option Binary64) : Option ExclusiveLimit → Option Binary64 × Bool
  | none => (inclusive, false)
  | some (.flag on) => (inclusive, on)
  | some (.bound limit) => (some limit, true)

def constraintsOf (limits : Limits) : Constraints :=
  let (minimum, exclusiveMinimum) := limitOf limits.minimum limits.exclusiveMinimum
  let (maximum, exclusiveMaximum) := limitOf limits.maximum limits.exclusiveMaximum
  { minimum, maximum, exclusiveMinimum, exclusiveMaximum
    minLength := limits.minLength
    maxLength := limits.maxLength
    pattern := limits.pattern
    minItems := limits.minItems
    maxItems := limits.maxItems }

/-- The keyword `enum`, or else the extension for enumerations that may grow. -/
def enumerationOf (values extensibleValues : List Json) : Option Enumeration :=
  if !values.isEmpty then some ⟨values, false⟩
  else if !extensibleValues.isEmpty then some ⟨extensibleValues, true⟩
  else none

def unionOf (variants : List DataType) : Option Composition :=
  if variants.isEmpty then none
  else some (.mk .oneOf (variants.map fun type => .inline (.ofType type)))

/-- A composition of members that are yet to be found. -/
def composed (kind : CompositionKind) (notes : List Notice)
    (members : Transform Notice (List Node)) : Transform Notice (Option Composition) := do
  Transform.tell notes
  return some (.mk kind (← members))

/-- Follows a reference that stands in the file `base`. -/
def resolve (follow : Pointer → Transform Notice Node) (base : Option String) (path : String) :
    Transform Notice Node :=
  match Pointer.parse path with
  | .error cause => .fail (.reference cause)
  | .ok parsed =>
      let pointer := parsed.relativeTo base
      if pointer.isExternal then follow pointer
      else if pointer.kind = .definition then .value (.ref pointer.name)
      else do
        Transform.note (.untypedPointer path)
        return .inline .untyped

section

variable (follow : Pointer → Transform Notice Node) (base : Option String)

mutual

/-- Brings a node that stands in the file `base` to its one form. -/
def normalizeNode : SchemaNode → Transform Notice Node
  | .ref path => resolve follow base path
  | .inline schema => do return .inline (← normalizeSchema schema)

/-- Brings a schema that stands in the file `base` to its one form. -/
def normalizeSchema : Schema → Transform Notice Definition
  | { types, format, title, description, default, nullable, properties, required, additional, items,
      allOf, oneOf, anyOf, values, limits, disjoint, extensibleValues, importFrom, .. } => do
      let (type, nullable, variants) := typesOf nullable types
      let properties ← normalizeProperties properties
      let items ← normalizeItems items
      let additional ← normalizeAdditional additional
      let ignored := if allOf.isEmpty then [] else [Notice.allOfIgnored]
      let composition ←
        if !oneOf.isEmpty then composed .oneOf ignored (normalizeNodes oneOf)
        else if !anyOf.isEmpty then composed .oneOf ignored (normalizeNodes anyOf)
        else if !allOf.isEmpty then
          composed (if disjoint = some true then .oneOf else .allOf) [] (normalizeNodes allOf)
        else pure (unionOf variants)
      return {
        type, nullable, format, properties, required, items, additional
        enumeration := enumerationOf values extensibleValues
        composition
        constraints := constraintsOf limits
        default, title, description, importFrom }

def normalizeProperties : List (String × SchemaNode) → Transform Notice (List (String × Node))
  | [] => return []
  | (name, node) :: rest => do
      let node ← normalizeNode node
      return (name, node) :: (← normalizeProperties rest)

def normalizeItems : Option ItemsSchema → Transform Notice (Option Node)
  | none => return none
  | some (.one node) => do return some (← normalizeNode node)
  | some (.list []) => return none
  | some (.list (node :: rest)) => do
      if !rest.isEmpty then Transform.note (.moreItemSchemas (rest.length + 1))
      return some (← normalizeNode node)

def normalizeAdditional : Option AdditionalSchema → Transform Notice (Option Additional)
  | none => return none
  | some (.flag allowed) => return some (.flag allowed)
  | some (.node values) => do return some (.node (← normalizeNode values))

def normalizeNodes : List SchemaNode → Transform Notice (List Node)
  | [] => return []
  | node :: rest => do
      let node ← normalizeNode node
      return node :: (← normalizeNodes rest)

end

end

namespace Sources

/-- The node that an external pointer addresses, read as a value of some type. -/
def load {α : Type} (s : Sources) (read : Json → Shape.Result α) (p : Pointer) :
    Except TransformError α :=
  match s.fragments.lookup p with
  | .error cause => .error (.reference cause)
  | .ok value =>
      match read value with
      | .error cause => .error (.parse (.fragment p.key cause))
      | .ok a => .ok a

theorem key_mem_of_load {α : Type} {s : Sources} {read : Json → Shape.Result α} {p : Pointer}
    {a : α} (h : s.load read p = .ok a) : p.key ∈ s.fragments.keys := by
  simp only [load] at h
  split at h
  · simp at h
  · next value hvalue => exact Fragments.key_mem_keys hvalue

def publishedName (s : Sources) (p : Pointer) : String :=
  promotedName (p.file.getD "") p.name fun name => s.declared.contains name

/-- Puts the target of an external pointer in place of it. `stack` holds the keys of the targets
that are being put in place around it. -/
def follow (s : Sources) (stack : List String) (p : Pointer) : Transform Notice Node :=
  match Assoc.get? p.key s.aliases with
  | some name => .value (.ref name)
  | none =>
      if _ : p.key ∈ stack then do
        Transform.promote p
        return .ref (s.publishedName p)
      else
        match _ : s.load SchemaNode.read p with
        | .error e => .fail e
        | .ok node => normalizeNode (fun q => s.follow (p.key :: stack) q) p.file node
termination_by s.fragments.keys.countP fun key => !stack.contains key
decreasing_by exact NameSet.countP_lt_countP (key_mem_of_load (by assumption)) (by assumption)

/-- Brings a node found in the file `base` to its one form. -/
def normalize (s : Sources) (base : Option String) (node : SchemaNode) : Transform Notice Node :=
  normalizeNode (s.follow []) base node

def definitionOf : Node → Definition
  | .ref name => .named name
  | .inline definition => definition

/-- The definition that an external target stands for, whether it is published or not. -/
def materialize (s : Sources) (p : Pointer) : Transform Notice Definition :=
  match s.load SchemaNode.read p with
  | .error e => .fail e
  | .ok node => definitionOf <$> normalizeNode (s.follow [p.key]) p.file node

def normalizeTopLevel (s : Sources) : SchemaNode → Transform Notice Definition
  | .ref path => definitionOf <$> resolve (fun p => .inline <$> s.materialize p) none path
  | .inline schema => normalizeSchema (s.follow []) none schema

end Sources

end ApiCodec

import ApiCodec.Emit.Codec
import ApiCodec.Proofs.Flatten.Names

set_option autoImplicit false

namespace ApiCodec.Emit

@[simp] theorem imports_plain (text : String) : (Expr.plain text).imports = [] := rfl

@[simp] theorem imports_name (name : String) : (Expr.name name).imports = [name] := rfl

@[simp] theorem imports_mapText (e : Expr) (f : String → String) :
    (e.mapText f).imports = e.imports := rfl

@[simp] theorem imports_join (separator : String) (es : List Expr) :
    (Expr.join separator es).imports = es.flatMap (·.imports) := rfl

@[simp] theorem imports_pair (f : String → String → String) (a b : Expr) :
    (Expr.pair f a b).imports = a.imports ++ b.imports := rfl

@[simp] theorem imports_combine (combinator : String) (es : List Expr) :
    (combine combinator es).imports = es.flatMap (·.imports) := by
  cases es with
  | nil => rfl
  | cons first rest =>
      cases rest with
      | nil => simp [combine]
      | cons second rest => rfl

@[simp] theorem imports_refine (base : Expr) (var : String) (checks : List String) :
    (refine base var checks).imports = base.imports := by
  unfold refine
  split <;> rfl

@[simp] theorem imports_literalCodec (value : Json) : (literalCodec value).imports = [] := by
  unfold literalCodec
  split <;> rfl

@[simp] theorem imports_enumerationCodec (e : Enumeration) : (enumerationCodec e).imports = [] := by
  simp only [enumerationCodec]
  split
  · rfl
  · simp only [imports_combine, List.flatMap_append, List.flatMap_map, imports_literalCodec]
    split <;> simp

@[simp] theorem imports_enumerationType (e : Enumeration) : (enumerationType e).imports = [] := rfl

@[simp] theorem imports_orNullCodec (nullable : Bool) (type : Option DataType) (e : Expr) :
    (orNullCodec nullable type e).imports = e.imports := by
  unfold orNullCodec
  split <;> rfl

@[simp] theorem imports_orNullType (nullable : Bool) (type : Option DataType) (e : Expr) :
    (orNullType nullable type e).imports = e.imports := by
  unfold orNullType
  split <;> rfl

/-- The names in an expression that may be missing. -/
def importsOf (e : Option Expr) : List String := (e.map (·.imports)).getD []

/-- The names in an object: those in its properties if it has any, or else those in its values. -/
def objectImports (isEmpty : Bool) (properties values : List String) : List String :=
  if isEmpty then values else properties

def typeImports (type : Option DataType) (isObject : Bool) (item object : List String) :
    List String :=
  match type with
  | some .array => item
  | some .object => object
  | none => if isObject then object else []
  | _ => []

theorem imports_typeCodec (type : Option DataType) (c : Constraints) (isObject : Bool)
    (item : Option Expr) (object : Expr) :
    (typeCodec type c isObject item object).imports =
      typeImports type isObject (importsOf item) object.imports := by
  rcases type with _ | type
  · cases isObject <;> rfl
  · cases type <;> cases item <;> simp [typeCodec, typeImports, importsOf]

theorem imports_typeType (type : Option DataType) (isObject : Bool) (item : Option Expr)
    (object : Expr) :
    (typeType type isObject item object).imports =
      typeImports type isObject (importsOf item) object.imports := by
  rcases type with _ | type
  · cases isObject <;> rfl
  · cases type <;> cases item <;> simp [typeType, typeImports, importsOf]

theorem imports_objectType (fields : List Expr) (values : Option Expr) :
    (objectType fields values).imports =
      objectImports fields.isEmpty (fields.flatMap (·.imports)) (importsOf values) := by
  unfold objectType objectImports
  cases fields <;> cases values <;> simp [importsOf]

theorem mem_imports_block {combinator name : String} {properties : List Property} :
    name ∈ (block combinator properties).flatMap (·.imports) ↔
      ∃ p ∈ properties, name ∈ p.codec.imports := by
  unfold block
  cases properties with
  | nil => simp
  | cons first rest => simp [List.flatMap_cons]

/-- Required properties come before optional ones in a codec. -/
theorem mem_imports_objectCodec {o : Options} {properties : List Property} {values : Option Expr}
    {name : String} :
    name ∈ (objectCodec o properties values).imports ↔
      name ∈ objectImports properties.isEmpty (properties.flatMap (·.codec.imports))
        (importsOf values) := by
  cases properties with
  | nil => cases values <;> simp [objectCodec, objectImports, importsOf]
  | cons first rest =>
      have inBlocks : name ∈ (block "t.interface" ((first :: rest).filter (·.required)) ++
          block "t.partial" ((first :: rest).filter fun p => !p.required)).flatMap (·.imports) ↔
            name ∈ (first :: rest).flatMap (·.codec.imports) := by
        rw [List.flatMap_append, List.mem_append, mem_imports_block, mem_imports_block,
          List.mem_flatMap]
        constructor
        · rintro (⟨p, member, named⟩ | ⟨p, member, named⟩)
          · exact ⟨p, (List.mem_filter.mp member).1, named⟩
          · exact ⟨p, (List.mem_filter.mp member).1, named⟩
        · rintro ⟨p, member, named⟩
          cases required : p.required with
          | true => exact Or.inl ⟨p, List.mem_filter.mpr ⟨member, required⟩, named⟩
          | false => exact Or.inr ⟨p, List.mem_filter.mpr ⟨member, by simp [required]⟩, named⟩
      have shape : (objectCodec o (first :: rest) values).imports =
          (block "t.interface" ((first :: rest).filter (·.required)) ++
            block "t.partial" ((first :: rest).filter fun p => !p.required)).flatMap
              (·.imports) := by
        rw [← imports_combine "t.intersection"]
        cases strict : o.strictInterfaces <;>
          simp only [objectCodec, strict, List.isEmpty_cons, if_true] <;> rfl
      rw [shape, inBlocks]
      rfl

section

variable {name : String} {own own' others others' : List String}

theorem mem_objectImports_mono (isEmpty : Bool) (properties : name ∈ own → name ∈ own')
    (values : name ∈ others → name ∈ others') (named : name ∈ objectImports isEmpty own others) :
    name ∈ objectImports isEmpty own' others' := by
  cases isEmpty
  · exact properties named
  · exact values named

theorem mem_typeImports_mono (type : Option DataType) (isObject : Bool)
    (item : name ∈ own → name ∈ own') (object : name ∈ others → name ∈ others')
    (named : name ∈ typeImports type isObject own others) :
    name ∈ typeImports type isObject own' others' := by
  rcases type with _ | type
  · cases isObject
    · exact named
    · exact object named
  · cases type <;> first | exact named | exact item named | exact object named

end

variable (o : Options)

theorem isEmpty_propertyCodecs (required : List String) (properties : List (String × Node)) :
    (propertyCodecs o required properties).isEmpty = properties.isEmpty := by
  cases properties <;> rfl

theorem isEmpty_fieldTypes (required : List String) (properties : List (String × Node)) :
    (fieldTypes o required properties).isEmpty = properties.isEmpty := by
  cases properties <;> rfl

mutual

theorem mem_imports_nodeType_iff (name : String) :
    ∀ node : Node, name ∈ (nodeType o node).imports ↔ name ∈ (nodeCodec o node).imports
  | .ref _ => Iff.rfl
  | .inline d => mem_imports_definitionType_iff name d

/-- The type of a definition names what its codec names. -/
theorem mem_imports_definitionType_iff (name : String) :
    ∀ d : Definition,
      name ∈ (definitionType o d).imports ↔ name ∈ (definitionCodec o d).imports
  | { type, nullable, properties, required, items, additional, enumeration, composition,
      constraints, .. } => by
      have own := mem_imports_fieldTypes_iff name required properties
      have values := mem_imports_valuesType_iff name additional
      have item := mem_imports_itemType_iff name items
      have object : name ∈ (objectType (fieldTypes o required properties)
            (valuesType o additional)).imports ↔
          name ∈ (objectCodec o (propertyCodecs o required properties)
            (valuesCodec o additional)).imports := by
        rw [imports_objectType, mem_imports_objectCodec, isEmpty_fieldTypes, isEmpty_propertyCodecs]
        exact ⟨mem_objectImports_mono _ own.mp values.mp,
          mem_objectImports_mono _ own.mpr values.mpr⟩
      simp only [definitionType, definitionCodec, imports_orNullType, imports_orNullCodec]
      cases composition with
      | none =>
          cases enumeration with
          | none =>
              simp only [compositionType, compositionCodec, imports_typeType, imports_typeCodec]
              exact ⟨mem_typeImports_mono _ _ item.mp object.mp,
                mem_typeImports_mono _ _ item.mpr object.mpr⟩
          | some e => simp [compositionType, compositionCodec]
      | some composition =>
          obtain ⟨kind, members⟩ := composition
          have members := mem_imports_memberTypes_iff name members
          simp only [compositionType, compositionCodec]
          split
          · simpa using members
          · simp only [imports_pair, imports_join, imports_combine, List.mem_append, members,
              object]

theorem mem_imports_fieldTypes_iff (name : String) (required : List String) :
    ∀ properties : List (String × Node),
      name ∈ (fieldTypes o required properties).flatMap (·.imports) ↔
        name ∈ (propertyCodecs o required properties).flatMap (·.codec.imports)
  | [] => Iff.rfl
  | (_, node) :: rest => by
      have first := mem_imports_nodeType_iff name node
      have others := mem_imports_fieldTypes_iff name required rest
      simp only [fieldTypes, propertyCodecs, List.flatMap_cons, List.mem_append, imports_mapText,
        first, others]

theorem mem_imports_itemType_iff (name : String) :
    ∀ items : Option Node,
      name ∈ importsOf (itemType o items) ↔ name ∈ importsOf (itemCodec o items)
  | none => Iff.rfl
  | some node => mem_imports_nodeType_iff name node

theorem mem_imports_valuesType_iff (name : String) :
    ∀ additional : Option Additional,
      name ∈ importsOf (valuesType o additional) ↔ name ∈ importsOf (valuesCodec o additional)
  | none => Iff.rfl
  | some (.flag _) => Iff.rfl
  | some (.node values) => mem_imports_nodeType_iff name values

theorem mem_imports_memberTypes_iff (name : String) :
    ∀ members : List Node,
      name ∈ (memberTypes o members).flatMap (·.imports) ↔
        name ∈ (memberCodecs o members).flatMap (·.imports)
  | [] => Iff.rfl
  | node :: rest => by
      have first := mem_imports_nodeType_iff name node
      have others := mem_imports_memberTypes_iff name rest
      simp only [memberTypes, memberCodecs, List.flatMap_cons, List.mem_append, imports_mapText,
        first, others]

end

theorem mem_of_mem_objectImports {name : String} {isEmpty : Bool} {own values : List String}
    (named : name ∈ objectImports isEmpty own values) : name ∈ own ∨ name ∈ values := by
  cases isEmpty
  · exact Or.inl named
  · exact Or.inr named

theorem mem_of_mem_typeImports {name : String} {type : Option DataType} {isObject : Bool}
    {item object : List String} (named : name ∈ typeImports type isObject item object) :
    name ∈ item ∨ name ∈ object := by
  rcases type with _ | type
  · cases isObject
    · cases named
    · exact Or.inr named
  · cases type <;> first | exact Or.inl named | exact Or.inr named | cases named

mutual

theorem mem_occurrences_of_nodeCodec (name : String) :
    ∀ node : Node, name ∈ (nodeCodec o node).imports → name ∈ node.occurrences
  | .ref _ => id
  | .inline d => mem_occurrences_of_definitionCodec name d

/-- A codec names only what occurs in its definition. -/
theorem mem_occurrences_of_definitionCodec (name : String) :
    ∀ d : Definition, name ∈ (definitionCodec o d).imports → name ∈ d.occurrences
  | { type, nullable, properties, required, items, additional, enumeration, composition,
      constraints, .. } => by
      have own := mem_occurrences_of_propertyCodecs name required properties
      have values := mem_occurrences_of_valuesCodec name additional
      have item := mem_occurrences_of_itemCodec name items
      have object (named : name ∈ (objectCodec o (propertyCodecs o required properties)
          (valuesCodec o additional)).imports) :
          name ∈ propertyOccurrences properties ∨ name ∈ additionalOccurrences additional := by
        rw [mem_imports_objectCodec] at named
        exact (mem_of_mem_objectImports named).imp own values
      simp only [definitionCodec, Definition.occurrences, imports_orNullCodec, List.mem_append]
      intro named
      cases composition with
      | none =>
          cases enumeration with
          | none =>
              simp only [compositionCodec, imports_typeCodec] at named
              rcases mem_of_mem_typeImports named with named | named
              · exact Or.inl (Or.inl (Or.inr (item named)))
              · rcases object named with named | named
                · exact Or.inl (Or.inl (Or.inl named))
                · exact Or.inl (Or.inr named)
          | some e =>
              simp only [compositionCodec, imports_enumerationCodec] at named
              cases named
      | some composition =>
          obtain ⟨kind, members⟩ := composition
          have member := mem_occurrences_of_memberCodecs name members
          simp only [compositionCodec] at named
          split at named
          · rw [imports_combine] at named
            exact Or.inr (member named)
          · rw [imports_pair, List.mem_append, imports_combine] at named
            rcases named with named | named
            · exact Or.inr (member named)
            · rcases object named with named | named
              · exact Or.inl (Or.inl (Or.inl named))
              · exact Or.inl (Or.inr named)

theorem mem_occurrences_of_propertyCodecs (name : String) (required : List String) :
    ∀ properties : List (String × Node),
      name ∈ (propertyCodecs o required properties).flatMap (·.codec.imports) →
        name ∈ propertyOccurrences properties
  | [] => id
  | (_, node) :: rest => by
      have first := mem_occurrences_of_nodeCodec name node
      have others := mem_occurrences_of_propertyCodecs name required rest
      simp only [propertyCodecs, propertyOccurrences, List.flatMap_cons, List.mem_append]
      exact Or.imp first others

theorem mem_occurrences_of_itemCodec (name : String) :
    ∀ items : Option Node, name ∈ importsOf (itemCodec o items) → name ∈ itemsOccurrences items
  | none => id
  | some node => mem_occurrences_of_nodeCodec name node

theorem mem_occurrences_of_valuesCodec (name : String) :
    ∀ additional : Option Additional,
      name ∈ importsOf (valuesCodec o additional) → name ∈ additionalOccurrences additional
  | none => id
  | some (.flag _) => id
  | some (.node values) => mem_occurrences_of_nodeCodec name values

theorem mem_occurrences_of_memberCodecs (name : String) :
    ∀ members : List Node,
      name ∈ (memberCodecs o members).flatMap (·.imports) → name ∈ memberOccurrences members
  | [] => id
  | node :: rest => by
      have first := mem_occurrences_of_nodeCodec name node
      have others := mem_occurrences_of_memberCodecs name rest
      simp only [memberCodecs, memberOccurrences, List.flatMap_cons, List.mem_append]
      exact Or.imp first others

end

/-- A type names only what occurs in its definition. -/
theorem mem_occurrences_of_definitionType {name : String} {d : Definition}
    (named : name ∈ (definitionType o d).imports) : name ∈ d.occurrences :=
  mem_occurrences_of_definitionCodec o name d ((mem_imports_definitionType_iff o name d).mp named)

end ApiCodec.Emit

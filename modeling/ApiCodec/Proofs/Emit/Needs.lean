import ApiCodec.Proofs.Emit.Codecs
import ApiCodec.Proofs.Emit.Contexts
import Mathlib.Data.List.Sort

set_option autoImplicit false

namespace ApiCodec

/-- Whether a definition is written as its type says, and not as a composition or an enumeration. -/
def Definition.IsTyped (d : Definition) : Prop := d.composition = none ∧ d.enumeration = none

def Definition.MayBeObject (d : Definition) : Prop := d.type = some .object ∨ d.type = none

mutual

/-- Whether a name is written in the generated code of a node. -/
inductive Node.Shows (name : String) : Node → Prop
  | ref : Node.Shows name (.ref name)
  | inline {d : Definition} (shown : Definition.Shows name d) : Node.Shows name (.inline d)

/-- Whether a name is written in the generated code of a definition: in a member of its composition,
in a property, in the values of an object without properties, or in the items of an array. -/
inductive Definition.Shows (name : String) : Definition → Prop
  | member {d : Definition} {kind : CompositionKind} {members : List Node} {node : Node}
      (composed : d.composition = some (.mk kind members)) (inside : node ∈ members)
      (shown : Node.Shows name node) : Definition.Shows name d
  | property {d : Definition} {entry : String × Node}
      (written : d.composition.isSome ∨ d.IsTyped ∧ d.MayBeObject) (inside : entry ∈ d.properties)
      (shown : Node.Shows name entry.2) : Definition.Shows name d
  | values {d : Definition} {node : Node} (typed : d.IsTyped) (object : d.MayBeObject)
      (empty : d.properties = []) (given : d.additional = some (.node node))
      (shown : Node.Shows name node) : Definition.Shows name d
  | item {d : Definition} {node : Node} (typed : d.IsTyped) (array : d.type = some .array)
      (given : d.items = some node) (shown : Node.Shows name node) : Definition.Shows name d

end

/-- What an object shows: what its properties show or, if it has none, what its values do. -/
def ObjectShows (name : String) (properties : List (String × Node))
    (additional : Option Additional) : Prop :=
  (∃ entry ∈ properties, Node.Shows name entry.2) ∨
    properties = [] ∧ ∃ node, additional = some (.node node) ∧ Node.Shows name node

namespace Definition

variable {d : Definition} {name : String}

theorem shows_iff_of_composed {kind : CompositionKind} {members : List Node}
    (composed : d.composition = some (.mk kind members)) :
    Definition.Shows name d ↔
      (∃ node ∈ members, Node.Shows name node) ∨
        ∃ entry ∈ d.properties, Node.Shows name entry.2 := by
  constructor
  · intro shown
    cases shown with
    | member same inside shown =>
        rw [composed, Option.some.injEq, Composition.mk.injEq] at same
        exact Or.inl ⟨_, same.2 ▸ inside, shown⟩
    | property _ inside shown => exact Or.inr ⟨_, inside, shown⟩
    | values typed => exact absurd (composed.symm.trans typed.1) (Option.some_ne_none _)
    | item typed => exact absurd (composed.symm.trans typed.1) (Option.some_ne_none _)
  · rintro (⟨node, inside, shown⟩ | ⟨entry, inside, shown⟩)
    · exact .member composed inside shown
    · exact .property (Or.inl (by rw [composed]; rfl)) inside shown

theorem not_shows_of_enumerated {e : Enumeration} (alone : d.composition = none)
    (enumerated : d.enumeration = some e) : ¬ Definition.Shows name d := by
  have untyped : ¬ d.IsTyped := fun typed =>
    absurd (enumerated.symm.trans typed.2) (Option.some_ne_none e)
  intro shown
  cases shown with
  | member composed => exact absurd (composed.symm.trans alone) (Option.some_ne_none _)
  | property written =>
      rcases written with composed | ⟨typed, _⟩
      · rw [alone] at composed
        cases composed
      · exact untyped typed
  | values typed => exact untyped typed
  | item typed => exact untyped typed

theorem shows_iff_of_typed (typed : d.IsTyped) :
    Definition.Shows name d ↔
      (d.type = some .array ∧ ∃ node, d.items = some node ∧ Node.Shows name node) ∨
        d.MayBeObject ∧ ObjectShows name d.properties d.additional := by
  constructor
  · intro shown
    cases shown with
    | member composed => exact absurd (composed.symm.trans typed.1) (Option.some_ne_none _)
    | property written inside shown =>
        rcases written with composed | ⟨_, object⟩
        · rw [typed.1] at composed
          cases composed
        · exact Or.inr ⟨object, Or.inl ⟨_, inside, shown⟩⟩
    | values _ object empty given shown => exact Or.inr ⟨object, Or.inr ⟨empty, _, given, shown⟩⟩
    | item _ array given shown => exact Or.inl ⟨array, _, given, shown⟩
  · rintro (⟨array, node, given, shown⟩ |
      ⟨object, ⟨entry, inside, shown⟩ | ⟨empty, node, given, shown⟩⟩)
    · exact .item typed array given shown
    · exact .property (Or.inr ⟨typed, object⟩) inside shown
    · exact .values typed object empty given shown

end Definition

namespace Emit

theorem mem_typeImports_iff {name : String} {type : Option DataType} {isObject : Bool}
    {item object : List String} :
    name ∈ typeImports type isObject item object ↔
      (type = some .array ∧ name ∈ item) ∨
        (type = some .object ∨ type = none ∧ isObject) ∧ name ∈ object := by
  rcases type with _ | type
  · cases isObject <;> simp [typeImports]
  · cases type <;> simp [typeImports]

/-- What shows something as an object is taken for one without a type. -/
theorem looksLikeObject_of_objectShows {name : String} {properties : List (String × Node)}
    {additional : Option Additional} (shown : ObjectShows name properties additional) :
    looksLikeObject properties additional := by
  rcases shown with ⟨entry, inside, _⟩ | ⟨_, node, given, _⟩
  · cases properties with
    | nil => cases inside
    | cons first rest => rfl
  · simp [looksLikeObject, given]

variable (o : Options)

mutual

theorem mem_imports_nodeCodec_iff (name : String) :
    ∀ node : Node, name ∈ (nodeCodec o node).imports ↔ Node.Shows name node
  | .ref other => by
      simp only [nodeCodec, imports_name, List.mem_singleton]
      constructor
      · rintro rfl
        exact .ref
      · rintro ⟨⟩
        rfl
  | .inline d => by
      rw [nodeCodec, mem_imports_definitionCodec_iff name d]
      constructor
      · exact .inline
      · intro shown
        cases shown with
        | inline shown => exact shown

theorem mem_imports_definitionCodec_iff (name : String) :
    ∀ d : Definition, name ∈ (definitionCodec o d).imports ↔ Definition.Shows name d
  | { type, nullable, properties, required, items, additional, enumeration, composition,
      constraints, .. } => by
      have own := mem_imports_propertyCodecs_iff name required properties
      have values := mem_imports_valuesCodec_iff name additional
      have item := mem_imports_itemCodec_iff name items
      have object : name ∈ (objectCodec o (propertyCodecs o required properties)
          (valuesCodec o additional)).imports ↔ ObjectShows name properties additional := by
        rw [mem_imports_objectCodec, isEmpty_propertyCodecs]
        cases properties with
        | nil => simpa [objectImports, ObjectShows] using values
        | cons first rest => simpa [objectImports, ObjectShows] using own
      simp only [definitionCodec, imports_orNullCodec]
      cases composition with
      | none =>
          cases enumeration with
          | none =>
              rw [Definition.shows_iff_of_typed ⟨rfl, rfl⟩]
              simp only [compositionCodec, imports_typeCodec, mem_typeImports_iff, item, object]
              refine or_congr_right (and_congr_left fun shown => or_congr_right ?_)
              exact and_iff_left (looksLikeObject_of_objectShows shown)
          | some e =>
              simp only [compositionCodec, imports_enumerationCodec, List.not_mem_nil, false_iff]
              exact Definition.not_shows_of_enumerated rfl rfl
      | some composition =>
          obtain ⟨kind, members⟩ := composition
          have members := mem_imports_memberCodecs_iff name members
          rw [Definition.shows_iff_of_composed rfl]
          simp only [compositionCodec]
          split
          · rename_i empty
            rw [imports_combine, members, List.isEmpty_iff.mp empty]
            simp
          · rename_i filled
            rw [List.isEmpty_iff] at filled
            simp only [imports_pair, List.mem_append, imports_combine, members, object, ObjectShows,
              filled, false_and, or_false]

theorem mem_imports_propertyCodecs_iff (name : String) (required : List String) :
    ∀ properties : List (String × Node),
      name ∈ (propertyCodecs o required properties).flatMap (·.codec.imports) ↔
        ∃ entry ∈ properties, Node.Shows name entry.2
  | [] => by simp [propertyCodecs]
  | (_, node) :: rest => by
      have first := mem_imports_nodeCodec_iff name node
      have others := mem_imports_propertyCodecs_iff name required rest
      simp [propertyCodecs, first, others]

theorem mem_imports_itemCodec_iff (name : String) :
    ∀ items : Option Node,
      name ∈ importsOf (itemCodec o items) ↔ ∃ node, items = some node ∧ Node.Shows name node
  | none => by simp [itemCodec, importsOf]
  | some node => by simpa [itemCodec, importsOf] using mem_imports_nodeCodec_iff name node

theorem mem_imports_valuesCodec_iff (name : String) :
    ∀ additional : Option Additional,
      name ∈ importsOf (valuesCodec o additional) ↔
        ∃ node, additional = some (.node node) ∧ Node.Shows name node
  | none => by simp [valuesCodec, importsOf]
  | some (.flag _) => by simp [valuesCodec, importsOf]
  | some (.node values) => by
      simpa [valuesCodec, importsOf] using mem_imports_nodeCodec_iff name values

theorem mem_imports_memberCodecs_iff (name : String) :
    ∀ members : List Node,
      name ∈ (memberCodecs o members).flatMap (·.imports) ↔ ∃ node ∈ members, Node.Shows name node
  | [] => by simp [memberCodecs]
  | node :: rest => by
      have first := mem_imports_nodeCodec_iff name node
      have others := mem_imports_memberCodecs_iff name rest
      simp [memberCodecs, first, others]

end

/-- Whether an expression that is written in a module adds some imports to its context, and neither
other imports nor an alias. -/
def Expr.Adds (e : Expr) (ctx : Context) (added : String → Prop) : Prop :=
  (∀ name, name ∈ (ctx.importAll e.imports).imports ↔ name ∈ ctx.imports ∨ added name) ∧
    (ctx.importAll e.imports).aliases = ctx.aliases

theorem Expr.adds_of_iff {e : Expr} {added : String → Prop}
    (same : ∀ name, name ∈ e.imports ↔ added name) (ctx : Context) : e.Adds ctx added := by
  refine ⟨fun name => ?_, rfl⟩
  rw [Context.mem_importAll, same]

/-- Expressions that name the same definitions leave the same context. -/
theorem Context.Tidy.importAll_congr {ctx : Context} (tidy : ctx.Tidy) {names others : List String}
    (same : ∀ name, name ∈ names ↔ name ∈ others) : ctx.importAll names = ctx.importAll others := by
  have members : ∀ name, name ∈ (ctx.importAll names).imports ↔
      name ∈ (ctx.importAll others).imports := by
    intro name
    rw [Context.mem_importAll, Context.mem_importAll, same]
  have imports := List.Pairwise.eq_of_mem_iff (tidy.importAll names).imports
    (tidy.importAll others).imports members
  exact congrArg (Context.mk · ctx.aliases) imports

/-- The properties in a codec, whose definition has no name there, add to a context what they show. -/
theorem mem_imports_propertiesOf_iff (ctx : Context) (d : Definition) (name : String) :
    name ∈ (propertiesOf o none ctx d).2.imports ↔
      name ∈ ctx.imports ∨ ∃ entry ∈ d.properties, Node.Shows name entry.2 := by
  have own := mem_imports_propertyCodecs_iff o name d.required d.properties
  simp only [propertiesOf, Context.mem_importAll, own]

theorem aliases_propertiesOf (ctx : Context) (d : Definition) :
    (propertiesOf o none ctx d).2.aliases = ctx.aliases := rfl

/-- The codec and the static type of a definition add the same imports to every context: the names
that the definition shows, which it refers to. Neither adds an alias, nor do the properties in the
codec, through which the context is passed; and where imports are in order, to write both leaves the
context that one of them does. -/
theorem codec_and_type_need_alike (o : Options) (d : Definition) (ctx : Context) :
    (definitionCodec o d).Adds ctx d.Shows ∧ (definitionType o d).Adds ctx d.Shows ∧
      ((∀ name, name ∈ (propertiesOf o none ctx d).2.imports ↔
          name ∈ ctx.imports ∨ ∃ entry ∈ d.properties, Node.Shows name entry.2) ∧
        (propertiesOf o none ctx d).2.aliases = ctx.aliases) ∧
      (∀ name, d.Shows name → name ∈ d.names) ∧
      (ctx.Tidy →
        ctx.importAll (definitionType o d).imports = ctx.importAll (definitionCodec o d).imports ∧
        ctx.importAll ((definitionType o d).imports ++ (definitionCodec o d).imports) =
          ctx.importAll (definitionCodec o d).imports) := by
  have codec := fun name => mem_imports_definitionCodec_iff o name d
  have both := fun name => mem_imports_definitionType_iff o name d
  have type : ∀ name, name ∈ (definitionType o d).imports ↔ d.Shows name :=
    fun name => (both name).trans (codec name)
  refine ⟨Expr.adds_of_iff codec ctx, Expr.adds_of_iff type ctx,
    ⟨mem_imports_propertiesOf_iff o ctx d, aliases_propertiesOf o ctx d⟩, fun name shown => ?_, ?_⟩
  · rw [Definition.mem_names]
    exact mem_occurrences_of_definitionCodec o name d ((codec name).mpr shown)
  · intro tidy
    refine ⟨tidy.importAll_congr both, tidy.importAll_congr fun name => ?_⟩
    rw [List.mem_append, both, or_self]

end Emit

open Emit

/-- A composition with properties of its own, one of them an enumeration with items for no use. -/
def Sample.zoo : Definition :=
  { Definition.untyped with
    properties :=
      [("keeper", .ref "Person"),
       ("size", .inline
         { Definition.ofType .string with
           items := some (.ref "Cage"), enumeration := some ⟨[.str "small"], false⟩ })]
    composition := some (.mk .allOf [.ref "Park"]) }

/-- The codec and the type both need the member and the property, but not the items. -/
theorem codec_and_type_need_alike_zoo :
    Context.Tidy { imports := ["Town"], aliases := [] } ∧
      Sample.zoo.names = ["Person", "Cage", "Park"] ∧
      Context.importAll { imports := ["Town"], aliases := [] }
          (definitionCodec {} Sample.zoo).imports =
        { imports := ["Park", "Person", "Town"], aliases := [] } ∧
      Context.importAll { imports := ["Town"], aliases := [] }
          (definitionType {} Sample.zoo).imports =
        { imports := ["Park", "Person", "Town"], aliases := [] } := by
  have tidy : Context.Tidy { imports := ["Town"], aliases := [] } := ⟨by decide, by decide⟩
  have codec : Context.importAll { imports := ["Town"], aliases := [] }
      (definitionCodec {} Sample.zoo).imports =
        { imports := ["Park", "Person", "Town"], aliases := [] } := by
    decide
  obtain ⟨_, _, _, _, same⟩ :=
    codec_and_type_need_alike {} Sample.zoo { imports := ["Town"], aliases := [] }
  exact ⟨tidy, rfl, codec, (same tidy).1.trans codec⟩

end ApiCodec

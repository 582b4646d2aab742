import ApiCodec.Decoder.Payload
import Mathlib.Data.List.Basic

set_option autoImplicit false

/-!
Which values conform to a node, however deep definitions lie inside each other. `Definition.Obeys`
states the rules for one definition, given what is known of the nodes in it; `Node.Conforms` is the
least relation closed under them, and `Node.ConformsWithin` counts how many definitions a derivation
nests. Main statement: looking at definitions down to a depth decides the second relation
(`conforms_iff`).
-/

namespace ApiCodec

/-- A number, rounded to binary64, within the numeric range; the two zeros are one. -/
structure Constraints.Covers (c : Constraints) (x : Binary64) : Prop where
  above : ∀ least, c.minimum = some least →
    if c.exclusiveMinimum then least.toUnits < x.toUnits else least.toUnits ≤ x.toUnits
  below : ∀ most, c.maximum = some most →
    if c.exclusiveMaximum then x.toUnits < most.toUnits else x.toUnits ≤ most.toUnits

/-- A count between two limits. -/
structure CountBetween (least most : Option Nat) (count : Nat) : Prop where
  least : ∀ bound, least = some bound → bound ≤ count
  most : ∀ bound, most = some bound → count ≤ bound

namespace Definition

/-- A closed enumeration lists the value. -/
def Lists (d : Definition) (value : Json) : Prop :=
  ∀ e, d.enumeration = some e → e.extensible = false → ∃ listed ∈ e.values, listed.eqv value

variable (holds : Node → Json → Prop)

/-- One member of a union holds of the value, or all members of an intersection. -/
inductive Composes (d : Definition) (value : Json) : Prop
  | alone (none : d.composition = none)
  | oneOf {members : List Node} {member : Node}
      (composed : d.composition = some (.mk .oneOf members)) (inside : member ∈ members)
      (held : holds member value)
  | allOf {members : List Node} (composed : d.composition = some (.mk .allOf members))
      (held : ∀ member ∈ members, holds member value)

/-- A field is as its property says, or as the definition says of fields that are no property. -/
inductive Admits (d : Definition) (field : String × Json) : Prop
  | declared {node : Node} (known : Assoc.get? field.1 d.properties = some node)
      (held : holds node field.2)
  | additional {values : Node} (unknown : Assoc.get? field.1 d.properties = none)
      (typed : d.additional = some (.node values)) (held : holds values field.2)
  | allowed (unknown : Assoc.get? field.1 d.properties = none)
      (flagged : d.additional = some (.flag true))
  | unsaid (unknown : Assoc.get? field.1 d.properties = none) (silent : d.additional = none)

/-- An object with the required fields, each of its fields being admitted. -/
inductive IsObject (d : Definition) : Json → Prop
  | of {fields : List (String × Json)} (required : ∀ name ∈ d.required, name ∈ Assoc.keys fields)
      (admitted : ∀ field ∈ fields, d.Admits holds field) : IsObject d (.obj fields)

/-- The value has the shape of the type, one rule for each type. The range is that of the number
rounded to binary64. A definition without a type that has properties, or says anything of additional
ones, means an object. -/
inductive HasShape (d : Definition) : Json → Prop
  | string {s : String} (typed : d.type = some .string)
      (length : CountBetween d.constraints.minLength d.constraints.maxLength s.length) :
      HasShape d (.str s)
  | integer {n : Number} {x : Binary64} (typed : d.type = some .integer) (whole : n.isWhole)
      (size : n.toBinary64? = some x) (range : d.constraints.Covers x) : HasShape d (.num n)
  | number {n : Number} {x : Binary64} (typed : d.type = some .number)
      (size : n.toBinary64? = some x) (range : d.constraints.Covers x) : HasShape d (.num n)
  | boolean {b : Bool} (typed : d.type = some .boolean) : HasShape d (.bool b)
  | null (typed : d.type = some .null) : HasShape d .null
  | file {s : String} (typed : d.type = some .file) : HasShape d (.str s)
  | array {items : List Json} (typed : d.type = some .array)
      (count : CountBetween d.constraints.minItems d.constraints.maxItems items.length)
      (held : ∀ node, d.items = some node → ∀ item ∈ items, holds node item) :
      HasShape d (.arr items)
  | object {value : Json} (typed : d.type = some .object) (object : d.IsObject holds value) :
      HasShape d value
  | untypedObject {value : Json} (untyped : d.type = none)
      (fields : d.properties ≠ [] ∨ d.additional ≠ none) (object : d.IsObject holds value) :
      HasShape d value
  | untyped {value : Json} (untyped : d.type = none) (bare : d.properties = [])
      (silent : d.additional = none) : HasShape d value

/-- The value is as the definition says: null where null is let in, or else listed, composed and
shaped as it says. -/
inductive Obeys (d : Definition) : Json → Prop
  | null (nullable : d.nullable) : Obeys d .null
  | structural {value : Json} (listed : d.Lists value) (composed : d.Composes holds value)
      (shaped : d.HasShape holds value) : Obeys d value

end Definition

/-- The definition that a node stands for. A name that is not in the table stands for none. -/
def Node.definition? (definitions : Definitions) : Node → Option Definition
  | .ref name => Assoc.get? name definitions
  | .inline d => some d

/-- The least relation closed under the rules: a value conforms to a node if it obeys the node's
definition, and what that says of the nodes in it (`holds`) is conformance again. -/
inductive Node.Conforms (definitions : Definitions) : Node → Json → Prop
  | of {node : Node} {d : Definition} {value : Json} (holds : Node → Json → Prop)
      (means : node.definition? definitions = some d) (obeys : d.Obeys holds value)
      (conforming : ∀ inner part, holds inner part → Conforms definitions inner part) :
      Conforms definitions node value

/-- Conformance by a derivation that nests at most so many definitions. -/
def Node.ConformsWithin (definitions : Definitions) : Nat → Node → Json → Prop
  | 0, _, _ => False
  | depth + 1, node, value =>
      ∃ d, node.definition? definitions = some d ∧
        d.Obeys (ConformsWithin definitions depth) value

theorem Constraints.hasNumber_iff (c : Constraints) (x : Binary64) :
    c.hasNumber x = true ↔ c.Covers x := by
  have limits : c.Covers x ↔
      (∀ least, c.minimum = some least →
        if c.exclusiveMinimum then least.toUnits < x.toUnits else least.toUnits ≤ x.toUnits) ∧
      ∀ most, c.maximum = some most →
        if c.exclusiveMaximum then x.toUnits < most.toUnits else x.toUnits ≤ most.toUnits :=
    ⟨fun covers => ⟨covers.above, covers.below⟩, fun both => ⟨both.1, both.2⟩⟩
  rw [limits, hasNumber, Bool.and_eq_true]
  apply and_congr
  · cases c.minimum <;> cases c.exclusiveMinimum <;> simp [Binary64.lt, Binary64.le]
  · cases c.maximum <;> cases c.exclusiveMaximum <;> simp [Binary64.lt, Binary64.le]

theorem withinCounts_iff (least most : Option Nat) (count : Nat) :
    withinCounts least most count = true ↔ CountBetween least most count := by
  rw [withinCounts, Bool.and_eq_true, Option.all_eq_true, Option.all_eq_true]
  simp only [decide_eq_true_eq]
  exact ⟨fun both => ⟨both.1, both.2⟩, fun between => ⟨between.least, between.most⟩⟩

namespace Definition

theorem fitsEnumeration_iff (d : Definition) (value : Json) :
    d.fitsEnumeration value = true ↔ d.Lists value := by
  unfold fitsEnumeration Lists
  cases d.enumeration with
  | none => simp
  | some e =>
      cases extensible : e.extensible <;> simp [extensible]

theorem fitsNumber_iff (d : Definition) (kind : Number → Bool) (value : Json) :
    d.fitsNumber kind value = true ↔
      ∃ n x, value = .num n ∧ kind n = true ∧ n.toBinary64? = some x ∧ d.constraints.Covers x := by
  cases value with
  | num n =>
      rw [fitsNumber, Bool.and_eq_true]
      cases size : n.toBinary64? <;> simp [size, Constraints.hasNumber_iff]
  | _ => simp [fitsNumber]

section

variable {test : Node → Json → Bool} {holds : Node → Json → Prop}
variable (agree : ∀ node value, test node value = true ↔ holds node value)

include agree

theorem fitsComposition_iff (d : Definition) (value : Json) :
    d.fitsComposition test value = true ↔ d.Composes holds value := by
  unfold fitsComposition
  constructor
  · intro fits
    split at fits
    · rename_i members composed
      obtain ⟨member, inside, fit⟩ := List.any_eq_true.mp fits
      exact .oneOf composed inside ((agree member value).mp fit)
    · rename_i members composed
      exact .allOf composed fun member inside =>
        (agree member value).mp (List.all_eq_true.mp fits member inside)
    · exact .alone (by assumption)
  · intro composes
    cases composes with
    | alone none => rw [none]
    | oneOf composed inside held =>
        rw [composed]
        exact List.any_eq_true.mpr ⟨_, inside, (agree _ value).mpr held⟩
    | allOf composed held =>
        rw [composed]
        exact List.all_eq_true.mpr fun member inside =>
          (agree member value).mpr (held member inside)

theorem fitsField_iff (d : Definition) (field : String × Json) :
    d.fitsField test field = true ↔ d.Admits holds field := by
  unfold fitsField
  constructor
  · intro fits
    split at fits
    · rename_i node known
      exact .declared known ((agree node field.2).mp fits)
    · rename_i unknown
      split at fits
      · rename_i values typed
        exact .additional unknown typed ((agree values field.2).mp fits)
      · rename_i allowed flagged
        exact .allowed unknown (fits ▸ flagged)
      · exact .unsaid unknown (by assumption)
  · intro admits
    cases admits with
    | declared known held => simpa only [known] using (agree _ field.2).mpr held
    | additional unknown typed held =>
        simpa only [unknown, typed] using (agree _ field.2).mpr held
    | allowed unknown flagged => simp only [unknown, flagged]
    | unsaid unknown silent => simp only [unknown, silent]

theorem fitsObject_iff (d : Definition) (value : Json) :
    d.fitsObject test value = true ↔ d.IsObject holds value := by
  constructor
  · intro fits
    cases value with
    | obj fields =>
        rw [fitsObject, Bool.and_eq_true, List.all_eq_true, List.all_eq_true] at fits
        obtain ⟨required, admitted⟩ := fits
        refine .of (fun name inside => Assoc.has_iff.mp (required name inside)) ?_
        intro field inside
        exact (fitsField_iff agree d field).mp (admitted field inside)
    | _ => cases fits
  · intro object
    cases object with
    | of required admitted =>
        rw [fitsObject, Bool.and_eq_true, List.all_eq_true, List.all_eq_true]
        refine ⟨fun name inside => Assoc.has_iff.mpr (required name inside), ?_⟩
        intro field inside
        exact (fitsField_iff agree d field).mpr (admitted field inside)

theorem fitsItems_iff (d : Definition) (items : List Json) :
    d.fitsArray test (.arr items) = true ↔
      CountBetween d.constraints.minItems d.constraints.maxItems items.length ∧
        ∀ node, d.items = some node → ∀ item ∈ items, holds node item := by
  rw [fitsArray, Bool.and_eq_true, withinCounts_iff]
  apply and_congr_right
  intro _
  cases d.items with
  | none => simp
  | some node => simp [List.all_eq_true, agree]

theorem hasShape_of_fitsShape {d : Definition} {value : Json} (fits : d.fitsShape test value = true) :
    d.HasShape holds value := by
  unfold fitsShape at fits
  split at fits
  · rename_i typed
    cases value with
    | str s => exact .string typed ((withinCounts_iff _ _ _).mp fits)
    | _ => cases fits
  · rename_i typed
    obtain ⟨n, x, rfl, whole, size, range⟩ := (fitsNumber_iff d _ value).mp fits
    exact .integer typed whole size range
  · rename_i typed
    obtain ⟨n, x, rfl, -, size, range⟩ := (fitsNumber_iff d _ value).mp fits
    exact .number typed size range
  · rename_i typed
    cases value with
    | bool b => exact .boolean typed
    | _ => cases fits
  · rename_i typed
    cases value with
    | null => exact .null typed
    | _ => cases fits
  · rename_i typed
    cases value with
    | str s => exact .file typed
    | _ => cases fits
  · rename_i typed
    cases value with
    | arr items =>
        obtain ⟨count, each⟩ := (fitsItems_iff agree d items).mp fits
        exact .array typed count each
    | _ => cases fits
  · rename_i typed
    exact .object typed ((fitsObject_iff agree d value).mp fits)
  · rename_i untyped
    by_cases fields : d.properties ≠ [] ∨ d.additional ≠ none
    · have asked : (!d.properties.isEmpty || d.additional.isSome) = true := by
        simpa [Option.isSome_iff_ne_none] using fields
      rw [if_pos asked] at fits
      exact .untypedObject untyped fields ((fitsObject_iff agree d value).mp fits)
    · rw [not_or, not_not, not_not] at fields
      exact .untyped untyped fields.1 fields.2

theorem fitsShape_of_hasShape {d : Definition} {value : Json} (shape : d.HasShape holds value) :
    d.fitsShape test value = true := by
  unfold fitsShape
  cases shape with
  | string typed length =>
      rw [typed]
      exact (withinCounts_iff _ _ _).mpr length
  | integer typed whole size range =>
      rw [typed]
      exact (fitsNumber_iff d _ _).mpr ⟨_, _, rfl, whole, size, range⟩
  | number typed size range =>
      rw [typed]
      exact (fitsNumber_iff d _ _).mpr ⟨_, _, rfl, rfl, size, range⟩
  | boolean typed => rw [typed]
  | null typed => rw [typed]; rfl
  | file typed => rw [typed]; rfl
  | array typed count held =>
      rw [typed]
      exact (fitsItems_iff agree d _).mpr ⟨count, held⟩
  | object typed isObject =>
      rw [typed]
      exact (fitsObject_iff agree d _).mpr isObject
  | untypedObject untyped fields isObject =>
      rw [untyped]
      have asked : (!d.properties.isEmpty || d.additional.isSome) = true := by
        simpa [Option.isSome_iff_ne_none] using fields
      simpa only [asked, if_true] using (fitsObject_iff agree d _).mpr isObject
  | untyped untyped bare silent =>
      rw [untyped, bare, silent]
      rfl

theorem fitsShape_iff (d : Definition) (value : Json) :
    d.fitsShape test value = true ↔ d.HasShape holds value :=
  ⟨hasShape_of_fitsShape agree, fitsShape_of_hasShape agree⟩

theorem fits_iff (d : Definition) (value : Json) :
    d.fits test value = true ↔ d.Obeys holds value := by
  have listed := fitsEnumeration_iff d value
  have composed := fitsComposition_iff agree d value
  have shaped := fitsShape_iff agree d value
  rw [fits, Bool.or_eq_true, Bool.and_eq_true, Bool.and_eq_true, Bool.and_eq_true, listed, composed,
    shaped]
  constructor
  · intro fits
    rcases fits with ⟨isNull, nullable⟩ | ⟨⟨listed, composed⟩, shaped⟩
    · cases value with
      | null => exact .null nullable
      | _ => cases isNull
    · exact .structural listed composed shaped
  · intro obeys
    cases obeys with
    | null nullable => exact Or.inl ⟨rfl, nullable⟩
    | structural listed composed shaped => exact Or.inr ⟨⟨listed, composed⟩, shaped⟩

end

end Definition

theorem Node.fits_iff {definitions : Definitions} {test : Definition → Json → Bool} {node : Node}
    {value : Json} :
    node.fits definitions test value = true ↔
      ∃ d, node.definition? definitions = some d ∧ test d value = true := by
  cases node with
  | ref name => cases known : Assoc.get? name definitions <;> simp [fits, definition?, known]
  | inline d => simp [fits, definition?]

/-- Looking at definitions inside each other down to a depth finds the derivations that nest no more
definitions than that. -/
theorem conforms_iff (definitions : Definitions) (depth : Nat) (node : Node) (value : Json) :
    node.fits definitions (conforms definitions depth) value = true ↔
      node.ConformsWithin definitions depth value := by
  induction depth generalizing node value with
  | zero =>
      rw [Node.fits_iff]
      simp [conforms, Node.ConformsWithin]
  | succ depth ih =>
      rw [Node.fits_iff]
      apply exists_congr
      intro d
      apply and_congr_right
      intro _
      exact Definition.fits_iff ih d value

end ApiCodec

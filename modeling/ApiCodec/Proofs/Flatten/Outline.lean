import ApiCodec.Model.Definition
import Mathlib.Data.List.Forall2

set_option autoImplicit false

namespace ApiCodec

/-- A run that gives some value of what is asked of it is a run that succeeds. -/
theorem exists_ok_of_map {ε α β : Type} {x : Except ε α} {f : α → β} {b : β}
    (found : x.toOption.map f = some b) : ∃ a, x = .ok a ∧ f a = b := by
  cases x with
  | error e => cases found
  | ok a => exact ⟨a, rfl, Option.some.inj found⟩

theorem exists_of_forall₂_left {α β : Type} {R : α → β → Prop} {as : List α} {bs : List β}
    (related : List.Forall₂ R as bs) {a : α} (member : a ∈ as) : ∃ b ∈ bs, R a b := by
  induction related with
  | nil => cases member
  | cons head _ ih =>
      rcases List.mem_cons.mp member with rfl | member
      · exact ⟨_, by simp, head⟩
      · obtain ⟨b, hb, found⟩ := ih member
        exact ⟨b, by simp [hb], found⟩

theorem exists_mem_zip_right {α β : Type} {R : α → β → Prop} {as : List α} {bs : List β}
    (related : List.Forall₂ R as bs) {b : β} (member : b ∈ bs) : ∃ a, (a, b) ∈ as.zip bs := by
  induction related with
  | nil => cases member
  | cons head _ ih =>
      rcases List.mem_cons.mp member with rfl | member
      · exact ⟨_, List.mem_cons_self⟩
      · obtain ⟨a, paired⟩ := ih member
        exact ⟨a, List.mem_cons_of_mem _ paired⟩

theorem forall₂_flip_of_zip {α β : Type} {R : α → β → Prop} {S : β → α → Prop} {as : List α}
    {bs : List β} (related : List.Forall₂ R as bs)
    (step : ∀ a b, (a, b) ∈ as.zip bs → R a b → S b a) : List.Forall₂ S bs as := by
  induction related with
  | nil => exact .nil
  | cons head _ ih =>
      refine .cons (step _ _ List.mem_cons_self head) (ih ?_)
      exact fun a b paired => step a b (List.mem_cons_of_mem _ paired)

/-- The fields of a node that hold no other nodes. -/
structure Face where
  type : Option DataType
  nullable : Bool
  format : Option String
  required : List String
  /-- What other properties an object may have, where that is a flag. -/
  additional : Option Bool
  enumeration : Option Enumeration
  composition : Option CompositionKind
  constraints : Constraints
  default : Option Json
  title : Option String
  description : Option String
  importFrom : Option String

/-- Where a part stands in a node. -/
inductive Slot
  | property (name : String)
  | items
  | values
  | member
  deriving DecidableEq, Repr

/-- A node down to its parts. -/
structure Outline (α : Type) where
  face : Face
  parts : List (Slot × α)

namespace Outline

variable {α β : Type}

/-- The outline with its parts changed. -/
def map (f : α → β) (o : Outline α) : Outline β :=
  ⟨o.face, o.parts.map fun part => (part.1, f part.2)⟩

/-- Two outlines with the same face whose parts stand in a relation, slot by slot. -/
structure Alike (R : α → β → Prop) (o : Outline α) (o' : Outline β) : Prop where
  face : o.face = o'.face
  parts : List.Forall₂ (fun p q => p.1 = q.1 ∧ R p.2 q.2) o.parts o'.parts

theorem Alike.mono {R S : α → β → Prop} {o : Outline α} {o' : Outline β} (alike : Alike R o o')
    (step : ∀ p ∈ o.parts, ∀ q ∈ o'.parts, R p.2 q.2 → S p.2 q.2) : Alike S o o' := by
  refine ⟨alike.face, ?_⟩
  have parts := alike.parts
  generalize o.parts = ps at parts step
  generalize o'.parts = qs at parts step
  induction parts with
  | nil => exact .nil
  | cons head _ ih =>
    refine .cons ⟨head.1, step _ (by simp) _ (by simp) head.2⟩ (ih ?_)
    intro p hp q hq
    exact step p (by simp [hp]) q (by simp [hq])

/-- Outlines that are alike up to the images of their parts have the same image. -/
theorem Alike.map_eq {γ : Type} {f : α → γ} {g : β → γ} {o : Outline α} {o' : Outline β}
    (alike : Alike (fun a b => f a = g b) o o') : o.map f = o'.map g := by
  have parts : o.parts.map (fun part => (part.1, f part.2)) =
      o'.parts.map (fun part => (part.1, g part.2)) := by
    have parts := alike.parts
    generalize o.parts = ps at parts
    generalize o'.parts = qs at parts
    induction parts with
    | nil => rfl
    | cons head _ ih =>
      obtain ⟨slot, image⟩ := head
      simp only [List.map_cons, slot, image, ih]
  unfold map
  rw [alike.face, parts]

end Outline

def Additional.flag? : Additional → Option Bool
  | .flag allowed => some allowed
  | .node _ => none

def Additional.node? : Additional → Option Node
  | .flag _ => none
  | .node values => some values

def Definition.face (d : Definition) : Face :=
  { type := d.type
    nullable := d.nullable
    format := d.format
    required := d.required
    additional := d.additional.bind Additional.flag?
    enumeration := d.enumeration
    composition := d.composition.map Composition.kind
    constraints := d.constraints
    default := d.default
    title := d.title
    description := d.description
    importFrom := d.importFrom }

def Definition.outline (d : Definition) : Outline Node :=
  { face := d.face
    parts :=
      d.properties.map (fun property => (.property property.1, property.2)) ++
        (d.items.toList.map fun node => (.items, node)) ++
        ((d.additional.bind Additional.node?).toList.map fun node => (.values, node)) ++
        ((d.composition.elim [] Composition.members).map fun node => (.member, node)) }

end ApiCodec

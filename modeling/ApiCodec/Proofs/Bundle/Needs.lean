import ApiCodec.Proofs.Bundle.Closed
import Mathlib.Order.Bounds.Defs

set_option autoImplicit false

namespace ApiCodec

open Relation (ReflTransGen)

/-- Some object in a value, however deep, has a text under `$ref`. -/
def Json.Mentions (value : Json) (path : String) : Prop :=
  ∃ fields, ReflTransGen HasPart value (.obj fields) ∧ ("$ref", .str path) ∈ fields

namespace Json

theorem Mentions.of_hasPart {whole part : Json} {path : String} (inside : whole.HasPart part)
    (mentions : part.Mentions path) : whole.Mentions path := by
  obtain ⟨fields, below, member⟩ := mentions
  exact ⟨fields, ReflTransGen.head inside below, member⟩

theorem mem_references_of_mentions {value : Json} {path : String} (mentions : value.Mentions path) :
    path ∈ value.references := by
  obtain ⟨fields, below, member⟩ := mentions
  have here : path ∈ (Json.obj fields).references :=
    fieldReferences_subset member (by simp [fieldReferences])
  induction below using ReflTransGen.head_induction_on with
  | refl => exact here
  | head inside _ ih => exact inside.references_subset ih

mutual

theorem mentions_of_mem_references {path : String} (value : Json)
    (member : path ∈ value.references) : value.Mentions path := by
  match value with
  | .arr items =>
      obtain ⟨item, there, mentions⟩ := exists_mentions_of_mem_items items member
      exact mentions.of_hasPart (.item there)
  | .obj fields =>
      rcases exists_mentions_of_mem_fields fields member with own | ⟨field, there, mentions⟩
      · exact ⟨fields, .refl, own⟩
      · exact mentions.of_hasPart (.field there)
  | .null => cases member
  | .bool _ => cases member
  | .num _ => cases member
  | .str _ => cases member

theorem exists_mentions_of_mem_items {path : String} (items : List Json)
    (member : path ∈ itemReferences items) : ∃ item ∈ items, item.Mentions path := by
  match items with
  | [] => cases member
  | item :: rest =>
      rcases List.mem_append.mp member with first | later
      · exact ⟨item, List.mem_cons_self, mentions_of_mem_references item first⟩
      · obtain ⟨other, there, mentions⟩ := exists_mentions_of_mem_items rest later
        exact ⟨other, List.mem_cons_of_mem _ there, mentions⟩

theorem exists_mentions_of_mem_fields {path : String} (fields : List (String × Json))
    (member : path ∈ fieldReferences fields) :
    ("$ref", .str path) ∈ fields ∨ ∃ field ∈ fields, field.2.Mentions path := by
  match fields with
  | [] => cases member
  | (key, value) :: rest =>
      rcases List.mem_append.mp member with first | later
      · split at first
        · cases List.mem_singleton.mp first
          exact Or.inl List.mem_cons_self
        · exact Or.inr ⟨(key, value), List.mem_cons_self, mentions_of_mem_references value first⟩
      · rcases exists_mentions_of_mem_fields rest later with own | ⟨field, there, mentions⟩
        · exact Or.inl (List.mem_cons_of_mem _ own)
        · exact Or.inr ⟨field, List.mem_cons_of_mem _ there, mentions⟩

end

theorem mem_references_iff {value : Json} {path : String} :
    path ∈ value.references ↔ value.Mentions path :=
  ⟨mentions_of_mem_references value, mem_references_of_mentions⟩

end Json

/-- A value that stands in the file `base`, or in the document, refers to a file: some reference in
it is not one to another host, is a pointer, and leads into that file from where it stands. -/
def RefersTo (base : Option String) (value : Json) (file : String) : Prop :=
  ∃ path, value.Mentions path ∧ Text.contains "://" path = false ∧
    ∃ p, Pointer.parse path = .ok p ∧ (p.relativeTo base).file = some file

theorem targetFile?_eq_some_iff {base : Option String} {path file : String} :
    targetFile? base path = some file ↔
      Text.contains "://" path = false ∧
        ∃ p, Pointer.parse path = .ok p ∧ (p.relativeTo base).file = some file := by
  unfold targetFile?
  by_cases remote : Text.contains "://" path
  · simp [remote]
  · have near : Text.contains "://" path = false := eq_false_of_ne_true remote
    rw [if_neg remote]
    cases Pointer.parse path with
    | error cause => simp [near]
    | ok p => simp [near]

theorem mem_targetFiles_iff {base : Option String} {value : Json} {file : String} :
    file ∈ targetFiles base value ↔ RefersTo base value file := by
  unfold targetFiles RefersTo
  rw [List.mem_filterMap]
  constructor
  · rintro ⟨path, member, leads⟩
    exact ⟨path, Json.mem_references_iff.mp member, targetFile?_eq_some_iff.mp leads⟩
  · rintro ⟨path, mentions, leads⟩
    exact ⟨path, Json.mem_references_iff.mpr mentions, targetFile?_eq_some_iff.mpr leads⟩

namespace Bundle

variable {ε : Type} {load : String → Except ε Json} {root : Json}

/-- Neither the document nor one of some files refers to another file. -/
structure Closes (load : String → Except ε Json) (root : Json) (files : Set String) : Prop where
  root : ∀ file, RefersTo none root file → file ∈ files
  file : ∀ file ∈ files, ∀ value, load file = .ok value →
    ∀ next, RefersTo (some file) value next → next ∈ files

/-- The document refers to a file, or another file that it needs does. -/
inductive Needs (load : String → Except ε Json) (root : Json) : String → Prop
  | root {file : String} (refers : RefersTo none root file) : Needs load root file
  | file {file next : String} {value : Json} (needed : Needs load root file)
      (loaded : load file = .ok value) (refers : RefersTo (some file) value next) :
      Needs load root next

theorem isLeast_needs :
    IsLeast {files | Closes load root files} {file | Needs load root file} := by
  constructor
  · exact ⟨fun _ refers => .root refers,
      fun _ needed _ loaded _ refers => .file needed loaded refers⟩
  · intro files closes file needed
    induction needed with
    | root refers => exact closes.root _ refers
    | file _ loaded refers ih => exact closes.file _ ih _ loaded _ refers

end Bundle

end ApiCodec

import ApiCodec.Files.Bundle
import ApiCodec.Proofs.Flatten.Follow
import ApiCodec.Proofs.Reading.Mentions

set_option autoImplicit false

namespace ApiCodec

namespace Fragments

/-- The file that a pointer leads into is loaded. -/
def Has (fragments : Fragments) (p : Pointer) : Prop :=
  ∃ file, p.file = some file ∧ file ∈ Assoc.keys fragments

/-- References that stand in the file `base` lead into no files but those that are loaded. -/
def Serves (fragments : Fragments) (base : Option String) (references : List String) : Prop :=
  ∀ path ∈ references, ∀ p, Pointer.within base path = .ok p → p.isExternal → fragments.Has p

/-- No file refers to one that is not loaded. -/
def Closed (fragments : Fragments) : Prop :=
  ∀ entry ∈ fragments, fragments.Serves (some entry.1) entry.2.references

variable {fragments : Fragments} {base : Option String}

theorem Serves.mono {references fewer : List String} (serves : fragments.Serves base references)
    (subset : fewer ⊆ references) : fragments.Serves base fewer :=
  fun path member => serves path (subset member)

theorem serves_of_targetFiles_subset {value : Json}
    (loaded : targetFiles base value ⊆ Assoc.keys fragments)
    (plain : ∀ reference ∈ value.references, Text.contains "://" reference = false) :
    fragments.Serves base value.references := by
  intro path member p points external
  obtain ⟨file, known⟩ := Pointer.exists_file external
  refine ⟨file, known, loaded (List.mem_filterMap.mpr ⟨path, member, ?_⟩)⟩
  obtain ⟨raw, parsed, rfl⟩ := Shape.map_eq_ok_iff.mp points
  simp only [targetFile?, plain path member, Bool.false_eq_true, if_false, parsed]
  exact known

end Fragments

namespace Bundle

variable {ε : Type} {loader : String → Except ε Json}

structure Adds (before after : Progress) (files : List String) : Prop where
  kept : before.fragments ⊆ after.fragments
  pending : before.pending ⊆ after.pending
  loaded : files ⊆ Assoc.keys after.fragments
  queued : ∀ entry ∈ after.fragments,
    entry ∈ before.fragments ∨ (some entry.1, entry.2) ∈ after.pending

theorem keys_subset {entries others : Fragments} (subset : entries ⊆ others) :
    Assoc.keys entries ⊆ Assoc.keys others :=
  List.map_subset Prod.fst subset

theorem adds_of_loadFiles {files : List String} {before after : Progress}
    (success : loadFiles loader before files = .ok after) : Adds before after files := by
  induction files generalizing before with
  | nil =>
      cases Except.ok.inj success
      exact ⟨List.Subset.refl _, List.Subset.refl _, List.nil_subset _,
        fun _ member => Or.inl member⟩
  | cons file rest ih =>
      simp only [loadFiles] at success
      split at success
      · rename_i known
        have adds := ih success
        refine ⟨adds.kept, adds.pending, List.cons_subset.mpr ⟨?_, adds.loaded⟩, adds.queued⟩
        exact keys_subset adds.kept (Assoc.has_iff.mp known)
      · obtain ⟨value, _, later⟩ := Shape.bind_eq_ok_iff.mp success
        have adds := ih later
        obtain ⟨kept, own⟩ := List.append_subset.mp adds.kept
        obtain ⟨first, pending⟩ := List.cons_subset.mp adds.pending
        refine ⟨kept, pending, List.cons_subset.mpr ⟨?_, adds.loaded⟩, ?_⟩
        · exact keys_subset own List.mem_cons_self
        · intro entry member
          rcases adds.queued entry member with there | queued
          · rcases List.mem_append.mp there with there | there
            · exact Or.inl there
            · cases List.mem_singleton.mp there
              exact Or.inr first
          · exact Or.inr queued

/-- The document and all loaded files, each with its place. -/
def Progress.sources (root : Json) (p : Progress) : List (Option String × Json) :=
  (none, root) :: p.fragments.map fun entry => (some entry.1, entry.2)

/-- What is no longer pending refers to loaded files alone. -/
def Progress.Settled (root : Json) (p : Progress) : Prop :=
  ∀ source ∈ p.sources root,
    source ∈ p.pending ∨ targetFiles source.1 source.2 ⊆ Assoc.keys p.fragments

theorem Adds.sources_subset {before after : Progress} {files : List String}
    (adds : Adds before after files) {root : Json} {source : Option String × Json}
    (member : source ∈ after.sources root) :
    source ∈ before.sources root ∨ source ∈ after.pending := by
  rcases List.mem_cons.mp member with rfl | member
  · exact Or.inl List.mem_cons_self
  · obtain ⟨entry, there, rfl⟩ := List.mem_map.mp member
    rcases adds.queued entry there with there | queued
    · exact Or.inl (List.mem_cons_of_mem _ (List.mem_map_of_mem there))
    · exact Or.inr queued

/-- Following the references of a pending value settles it. -/
theorem Progress.Settled.next {root : Json} {fragments : Fragments} {file : Option String}
    {value : Json} {rest : List (Option String × Json)} {after : Progress}
    (settled : Settled root ⟨fragments, (file, value) :: rest⟩)
    (adds : Adds ⟨fragments, rest⟩ after (targetFiles file value)) : Settled root after := by
  intro source member
  rcases adds.sources_subset member with there | queued
  · rcases settled source there with pending | covered
    · rcases List.mem_cons.mp pending with rfl | pending
      · exact Or.inr adds.loaded
      · exact Or.inl (adds.pending pending)
    · exact Or.inr (List.Subset.trans covered (keys_subset adds.kept))
  · exact Or.inl queued

theorem settled_of_follow {root : Json} {limit : Nat} {p : Progress} {fragments : Fragments}
    (settled : p.Settled root) (success : follow loader limit p = .ok (some fragments)) :
    Progress.Settled root ⟨fragments, []⟩ := by
  induction limit generalizing p with
  | zero =>
      obtain ⟨loaded, pending⟩ := p
      cases pending with
      | nil =>
          cases Except.ok.inj success
          exact settled
      | cons first rest => cases success
  | succ limit ih =>
      obtain ⟨loaded, pending⟩ := p
      cases pending with
      | nil =>
          cases Except.ok.inj success
          exact settled
      | cons first rest =>
          obtain ⟨file, value⟩ := first
          obtain ⟨next, added, later⟩ := Shape.bind_eq_ok_iff.mp success
          exact ih (settled.next (adds_of_loadFiles added)) later

/-- The values of a document and its files. -/
def values (b : Bundle) : List Json := b.root :: b.fragments.map Prod.snd

/-- All references of a document and its files lead into files that are loaded. -/
theorem serves_of_load {limit : Nat} {path : String} {b : Bundle}
    (loaded : load loader limit path = .ok (some b))
    (plain : ∀ value ∈ b.values, ∀ reference ∈ value.references,
      Text.contains "://" reference = false) :
    b.fragments.Serves none b.root.references ∧ b.fragments.Closed := by
  obtain ⟨root, _, rest⟩ := Shape.bind_eq_ok_iff.mp loaded
  obtain ⟨found, followed, made⟩ := Shape.bind_eq_ok_iff.mp rest
  obtain ⟨fragments, rfl, rfl⟩ := Option.map_eq_some_iff.mp (Except.ok.inj made)
  have start : Progress.Settled root ⟨[], [(none, root)]⟩ := fun source member => Or.inl member
  have settled := settled_of_follow start followed
  have covered : ∀ source ∈ Progress.sources root ⟨fragments, []⟩,
      targetFiles source.1 source.2 ⊆ Assoc.keys fragments := by
    intro source member
    rcases settled source member with pending | covered
    · cases pending
    · exact covered
  refine ⟨?_, ?_⟩
  · exact Fragments.serves_of_targetFiles_subset (covered _ List.mem_cons_self)
      (plain _ List.mem_cons_self)
  · intro entry member
    exact Fragments.serves_of_targetFiles_subset
      (covered _ (List.mem_cons_of_mem _ (List.mem_map_of_mem member)))
      (plain _ (List.mem_cons_of_mem _ (List.mem_map_of_mem member)))

end Bundle

end ApiCodec

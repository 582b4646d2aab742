import ApiCodec.Proofs.Flatten.Run
import Mathlib.Data.List.Induction
import Mathlib.Data.List.Nodup

set_option autoImplicit false

namespace ApiCodec

open Document

namespace Assembly

/-- The published target that a name stands for in the end, if there is one: the last of that name. -/
def holder? (a : Assembly) (name : String) : Option Publication :=
  a.published.reverse.find? (·.name == name)

theorem holder?_eq_none_iff {a : Assembly} {name : String} :
    a.holder? name = none ↔ ∀ p ∈ a.published, p.name ≠ name := by
  simp [holder?, List.find?_eq_none]

theorem get?_foldl_insert (name : String) (table : Definitions) (published : List Publication) :
    Assoc.get? name (published.foldl (fun table p => Assoc.insert p.name p.definition table) table) =
      match published.reverse.find? (·.name == name) with
      | some p => some p.definition
      | none => Assoc.get? name table := by
  induction published using List.reverseRecOn with
  | nil => rfl
  | append_singleton before p ih =>
      rw [List.foldl_append, List.foldl_cons, List.foldl_nil, Assoc.get?_insert, ih,
        List.reverse_append, List.reverse_singleton, List.singleton_append, List.find?_cons]
      by_cases same : p.name = name
      · simp [same]
      · rw [if_neg same, beq_eq_false_iff_ne.mpr same]

/-- What a name stands for in the end: the last target that was published under it, or else what the
document declares. -/
theorem get?_definitions (a : Assembly) (name : String) :
    Assoc.get? name a.definitions =
      match a.holder? name with
      | some p => some p.definition
      | none => Assoc.get? name a.declared :=
  get?_foldl_insert name a.declared a.published

theorem mem_keys_definitions {a : Assembly} {name : String} :
    name ∈ Assoc.keys a.definitions ↔
      name ∈ Assoc.keys a.declared ∨ ∃ p ∈ a.published, p.name = name := by
  rw [Assoc.mem_keys_iff, get?_definitions]
  cases held : a.holder? name with
  | some p =>
      have member : p ∈ a.published := by
        simpa using List.mem_of_find?_eq_some held
      have named : p.name = name := by
        simpa using List.find?_some held
      simpa using Or.inr ⟨p, member, named⟩
  | none =>
      rw [holder?_eq_none_iff] at held
      simp only [← Assoc.mem_keys_iff]
      exact ⟨Or.inl, fun known => known.resolve_right fun ⟨p, hp, named⟩ => held p hp named⟩

/-- Every definition is declared or was published. -/
theorem mem_definitions {a : Assembly} {entry : String × Definition}
    (member : entry ∈ a.definitions) :
    entry ∈ a.declared ∨ ∃ p ∈ a.published, entry = (p.name, p.definition) := by
  have step : ∀ (published : List Publication) (table : Definitions),
      entry ∈ published.foldl (fun table p => Assoc.insert p.name p.definition table) table →
      entry ∈ table ∨ ∃ p ∈ published, entry = (p.name, p.definition) := by
    intro published
    induction published with
    | nil => intro table member; exact Or.inl member
    | cons p rest ih =>
        intro table member
        rcases ih _ member with member | ⟨q, hq, same⟩
        · rcases Assoc.mem_insert member with same | member
          · exact Or.inr ⟨p, by simp, same⟩
          · exact Or.inl member
        · exact Or.inr ⟨q, by simp [hq], same⟩
  exact step a.published a.declared member

theorem unknownDefinition_notMem_duplicateIds (seen : List (String × Operation))
    (operations : List Operation) : QuietDiagnostics (duplicateIds seen operations) := by
  induction operations generalizing seen with
  | nil => exact QuietDiagnostics.nil
  | cons op rest ih =>
      unfold duplicateIds
      split
      · intro subject name member
        rcases List.mem_cons.mp member with same | member
        · cases same
        · exact ih seen subject name member
      · exact ih _

theorem count_unknownNames (definitions : Definitions) {names : List String} (distinct : names.Nodup)
    (owner subject name : String) :
    (unknownNames definitions owner names).count ⟨subject, .unknownDefinition name⟩ =
      if name ∈ Assoc.keys definitions then 0
      else if owner = subject ∧ name ∈ names then 1 else 0 := by
  have distinct' : (unknownNames definitions owner names).Nodup := by
    refine (distinct.filter _).map ?_
    intro a b same
    cases same
    rfl
  have member : (⟨subject, .unknownDefinition name⟩ : Diagnostic) ∈
      unknownNames definitions owner names ↔
        owner = subject ∧ name ∈ names ∧ name ∉ Assoc.keys definitions := by
    unfold unknownNames
    simp only [List.mem_map, List.mem_filter, Bool.not_eq_eq_eq_not, Bool.not_true,
      Diagnostic.mk.injEq, Notice.unknownDefinition.injEq, ← Bool.not_eq_true, Assoc.has_iff]
    constructor
    · rintro ⟨_, ⟨present, absent⟩, rfl, rfl⟩
      exact ⟨rfl, present, absent⟩
    · rintro ⟨rfl, present, absent⟩
      exact ⟨name, ⟨present, absent⟩, rfl, rfl⟩
  rw [distinct'.count, if_congr member rfl rfl]
  by_cases known : name ∈ Assoc.keys definitions <;> simp [known]

theorem count_flatMap_unknownNames {α : Type} (definitions : Definitions) {items : List α}
    (owner : α → String) {names : α → List String}
    (distinct : ∀ item ∈ items, (names item).Nodup) (subject name : String) :
    (items.flatMap fun item => unknownNames definitions (owner item) (names item)).count
        ⟨subject, .unknownDefinition name⟩ =
      if name ∈ Assoc.keys definitions then 0
      else items.countP fun item => owner item = subject ∧ name ∈ names item := by
  induction items with
  | nil => simp
  | cons item rest ih =>
      have one := count_unknownNames definitions (distinct item List.mem_cons_self)
        (owner item) subject name
      have more := ih fun other member => distinct other (List.mem_cons_of_mem _ member)
      rw [List.flatMap_cons, List.count_append, one, more, List.countP_cons]
      by_cases known : name ∈ Assoc.keys definitions
      · simp [known]
      · simp only [known, if_false, decide_eq_true_eq]
        exact Nat.add_comm _ _

/-- A name that is no definition is reported once for each definition and each operation that
refers to it, a name that is a definition never. -/
theorem count_unknownDefinition {a : Assembly} (quiet : QuietDiagnostics a.notes)
    (distinct : ∀ op ∈ a.operations, op.importedTypes.Nodup) (subject name : String) :
    a.diagnostics.count ⟨subject, .unknownDefinition name⟩ =
      if name ∈ Assoc.keys a.definitions then 0
      else
        (a.definitions.countP fun entry => entry.1 = subject ∧ name ∈ entry.2.names) +
          a.operations.countP fun op => op.id = subject ∧ name ∈ op.importedTypes := by
  have ofDefinitions := count_flatMap_unknownNames a.definitions Prod.fst
    (fun entry (_ : entry ∈ a.definitions) => Definition.nodup_names entry.2) subject name
  have ofOperations := count_flatMap_unknownNames a.definitions Operation.id distinct subject name
  unfold diagnostics danglingNames
  rw [List.count_append, List.count_append, List.count_eq_zero_of_not_mem (quiet subject name),
    List.count_eq_zero_of_not_mem (unknownDefinition_notMem_duplicateIds [] _ subject name),
    List.count_append, ofDefinitions, ofOperations]
  by_cases known : name ∈ Assoc.keys a.definitions
  · simp [known]
  · simp only [known, if_false, Nat.zero_add]

end Assembly

end ApiCodec

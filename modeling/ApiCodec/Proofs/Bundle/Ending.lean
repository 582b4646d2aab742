import ApiCodec.Proofs.Bundle.Reachable
import Mathlib.Data.Finset.Card
import Mathlib.Data.Set.Finite.Lattice

set_option autoImplicit false

namespace ApiCodec.Bundle

open Relation (TransGen)

variable {ε : Type}

/-- Loading comes to a result, whatever higher limit it is given. -/
def Returns (loader : String → Except ε Json) (path : String) (result : Except ε Bundle) : Prop :=
  ∃ limit, ∀ more, limit ≤ more → load loader more path = result.map some

section

variable {load : String → Except ε Json} {root : Json}

/-- A file that can be loaded refers to another. -/
def Leads (load : String → Except ε Json) (file next : String) : Prop :=
  ∃ value, load file = .ok value ∧ RefersTo (some file) value next

theorem Needs.leads {file next : String} (needed : Needs load root file)
    (leads : Leads load file next) : Needs load root next := by
  obtain ⟨value, loaded, refers⟩ := leads
  exact .file needed loaded refers

theorem Needs.leadsTo {file next : String} (needed : Needs load root file)
    (leads : TransGen (Leads load) file next) : Needs load root next := by
  induction leads with
  | single first => exact needed.leads first
  | tail _ last ih => exact ih.leads last

/-- A file is found over a number of others. -/
inductive NeedsAt (load : String → Except ε Json) (root : Json) : Nat → String → Prop
  | root {file : String} (refers : RefersTo none root file) : NeedsAt load root 0 file
  | next {n : Nat} {file next : String} (before : NeedsAt load root n file)
      (leads : Leads load file next) : NeedsAt load root (n + 1) next

theorem NeedsAt.needs {n : Nat} {file : String} (found : NeedsAt load root n file) :
    Needs load root file := by
  induction found with
  | root refers => exact .root refers
  | next _ leads ih => exact ih.leads leads

theorem Needs.exists_needsAt {file : String} (needed : Needs load root file) :
    ∃ n, NeedsAt load root n file := by
  induction needed with
  | root refers => exact ⟨0, .root refers⟩
  | file _ loaded refers ih =>
      obtain ⟨n, found⟩ := ih
      exact ⟨n + 1, .next found ⟨_, loaded, refers⟩⟩

theorem finite_refersTo (base : Option String) (value : Json) :
    {file | RefersTo base value file}.Finite := by
  apply (List.finite_toSet (targetFiles base value)).subset
  intro file refers
  exact mem_targetFiles_iff.mpr refers

theorem finite_leads (file : String) : {next | Leads load file next}.Finite := by
  cases given : load file with
  | error cause =>
      apply Set.finite_empty.subset
      rintro next ⟨value, loaded, _⟩
      cases given.symm.trans loaded
  | ok value =>
      apply (finite_refersTo (some file) value).subset
      rintro next ⟨other, loaded, refers⟩
      cases given.symm.trans loaded
      exact refers

theorem finite_needsAt (n : Nat) : {file | NeedsAt load root n file}.Finite := by
  induction n with
  | zero =>
      apply (finite_refersTo none root).subset
      rintro file ⟨refers⟩
      exact refers
  | succ n ih =>
      have onward : ∀ file ∈ {file | NeedsAt load root n file}, {next | Leads load file next}.Finite :=
        fun file _ => finite_leads file
      apply (ih.biUnion onward).subset
      rintro next ⟨⟩
      rename_i file before leads
      exact Set.mem_biUnion before leads

section

variable {C : Type} [DecidableEq C] {code : String → C} {codes : Finset C}
  (coded : ∀ file next, Needs load root file → Leads load file next → code file ∈ codes)
  (apart : ∀ file other next, Needs load root file → TransGen (Leads load) file other →
    Leads load other next → code other = code file → other = file)

include coded apart

/-- On a shortest way to a file all files before it have codes of their own. -/
theorem exists_codes {n : Nat} {file : String} (found : NeedsAt load root n file)
    (shortest : ∀ m < n, ¬ NeedsAt load root m file) :
    ∃ used ⊆ codes, used.card = n ∧ ∀ c ∈ used, ∃ m < n, ∃ other,
      NeedsAt load root m other ∧ TransGen (Leads load) other file ∧ code other = c := by
  induction found with
  | root refers => exact ⟨∅, Finset.empty_subset _, rfl, by simp⟩
  | @next n prev file before leads ih =>
      have nearer : ∀ m < n, ¬ NeedsAt load root m prev := by
        intro m less sooner
        exact shortest (m + 1) (Nat.succ_lt_succ less) (.next sooner leads)
      obtain ⟨used, inside, card, each⟩ := ih nearer
      have fresh : code prev ∉ used := by
        intro member
        obtain ⟨m, less, other, sooner, leadsTo, same⟩ := each _ member
        have equal : prev = other := apart other prev file sooner.needs leadsTo leads same.symm
        exact nearer m less (equal ▸ sooner)
      have own : code prev ∈ codes := coded prev file before.needs leads
      refine ⟨insert (code prev) used, Finset.insert_subset own inside, ?_, ?_⟩
      · rw [Finset.card_insert_of_notMem fresh, card]
      · intro c member
        rcases Finset.mem_insert.mp member with rfl | old
        · exact ⟨n, Nat.lt_succ_self n, prev, before, .single leads, rfl⟩
        · obtain ⟨m, less, other, sooner, leadsTo, same⟩ := each c old
          exact ⟨m, Nat.lt_succ_of_lt less, other, sooner, leadsTo.tail leads, same⟩

theorem finite_needs : {file | Needs load root file}.Finite := by
  have bounded : {n | n ≤ codes.card}.Finite := Set.finite_le_nat codes.card
  have each : ∀ n ∈ {n | n ≤ codes.card}, {file | NeedsAt load root n file}.Finite :=
    fun n _ => finite_needsAt n
  apply (bounded.biUnion each).subset
  intro file needed
  classical
  have reached := Needs.exists_needsAt needed
  obtain ⟨used, inside, card, _⟩ := exists_codes coded apart (Nat.find_spec reached)
    fun m less => Nat.find_min reached less
  have short : Nat.find reached ≤ codes.card := card ▸ Finset.card_le_card inside
  exact Set.mem_biUnion short (Nat.find_spec reached)

end

/-- As long as files are left, every document that was taken adds to the needed files found. -/
theorem exists_rounds_of_follow_none {n limit : Nat} {p : Progress}
    (rounds : Rounds load root n p) (left : follow load limit p = .ok none) :
    ∃ q, Rounds load root (n + limit) q ∧ q.pending ≠ [] := by
  induction limit generalizing n p with
  | zero =>
      obtain ⟨loaded, pending⟩ := p
      cases pending with
      | nil => cases left
      | cons first rest => exact ⟨_, rounds, List.cons_ne_nil first rest⟩
  | succ limit ih =>
      obtain ⟨loaded, pending⟩ := p
      cases pending with
      | nil => cases left
      | cons first rest =>
          obtain ⟨next, added, later⟩ := Shape.bind_eq_ok_iff.mp left
          obtain ⟨q, reached, unfinished⟩ := ih (rounds.next (round_of_first added)) later
          exact ⟨q, by rwa [Nat.add_assoc, Nat.add_comm 1] at reached, unfinished⟩

/-- Finitely many needed files are all taken before as many documents were. -/
theorem follow_ne_none (finite : {file | Needs load root file}.Finite) :
    follow load (finite.toFinset.card + 1) ⟨[], [(none, root)]⟩ ≠ .ok none := by
  intro left
  obtain ⟨q, rounds, unfinished⟩ := exists_rounds_of_follow_none .start left
  have sound := rounds.sound
  have fewer : q.fragments.length ≤ finite.toFinset.card := by
    classical
    have inside : (Assoc.keys q.fragments).toFinset ⊆ finite.toFinset := by
      intro file member
      have needed := sound.needed file (List.mem_toFinset.mp member)
      exact finite.mem_toFinset.mpr needed
    have card := Finset.card_le_card inside
    rw [List.toFinset_card_of_nodup sound.nodup] at card
    simpa [Assoc.keys] using card
  have count := sound.count
  have pending : 0 < q.pending.length := List.length_pos_iff.mpr unfinished
  omega

/-- If all needed files can be loaded, following references does not fail. -/
theorem exists_follow (given : ∀ file, Needs load root file → ∃ value, load file = .ok value)
    {n : Nat} {p : Progress} (rounds : Rounds load root n p) (limit : Nat) :
    ∃ found, follow load limit p = .ok found := by
  induction limit generalizing n p with
  | zero =>
      obtain ⟨loaded, pending⟩ := p
      cases pending with
      | nil => exact ⟨some loaded, rfl⟩
      | cons first rest => exact ⟨none, rfl⟩
  | succ limit ih =>
      obtain ⟨loaded, pending⟩ := p
      cases pending with
      | nil => exact ⟨some loaded, rfl⟩
      | cons first rest =>
          obtain ⟨next, added⟩ := rounds.sound.exists_next given List.mem_cons_self
            (List.Perm.refl _) ⟨loaded, rest⟩
          obtain ⟨found, later⟩ := ih (rounds.next (round_of_first added))
          exact ⟨found, Shape.bind_eq_ok_iff.mpr ⟨next, added, later⟩⟩

end

section

variable {loader : String → Except ε Json} {path : String} {root : Json}

/-- Loading that comes to an end at some limit has a result. -/
theorem exists_returns_of_ne_none {limit : Nat} (opened : loader path = .ok root)
    (ends : load loader limit path ≠ .ok none) : ∃ result, Returns loader path result := by
  have same : ∀ more, limit ≤ more → load loader more path = load loader limit path :=
    fun _ le => load_mono opened le ends
  cases result : load loader limit path with
  | error cause => exact ⟨.error cause, limit, fun more le => (same more le).trans result⟩
  | ok found =>
      cases found with
      | none => exact absurd result ends
      | some b => exact ⟨.ok b, limit, fun more le => (same more le).trans result⟩

/-- Loading a document that needs finitely many files comes to a result. -/
theorem exists_returns (opened : loader path = .ok root)
    (finite : {file | Needs (loader ∘ place path) root file}.Finite) :
    ∃ result, Returns loader path result := by
  apply exists_returns_of_ne_none opened
  intro left
  exact follow_ne_none finite ((load_eq_none_iff opened _).mp left)

/-- A document is loaded with the files that it needs. -/
theorem mem_keys_iff_of_load {limit : Nat} {b : Bundle}
    (loaded : load loader limit path = .ok (some b)) {file : String} :
    file ∈ Assoc.keys b.fragments ↔ Needs (loader ∘ place path) b.root file := by
  obtain ⟨m, rounds⟩ := exists_rounds_of_load loaded
  exact rounds.sound.mem_keys_iff rfl

/-- If all that a document needs can be loaded, loading ends only with finitely many files. -/
theorem finite_needs_of_ne_none {limit : Nat} (opened : loader path = .ok root)
    (given : ∀ file, Needs (loader ∘ place path) root file →
      ∃ value, loader (place path file) = .ok value)
    (ends : load loader limit path ≠ .ok none) :
    {file | Needs (loader ∘ place path) root file}.Finite := by
  obtain ⟨found, followed⟩ := exists_follow given .start limit
  have loaded : load loader limit path = .ok (found.map fun fragments => ⟨root, fragments⟩) := by
    rw [load_eq opened, followed]
    rfl
  cases found with
  | none => exact absurd loaded ends
  | some fragments =>
      apply (List.finite_toSet (Assoc.keys fragments)).subset
      intro file needed
      exact (mem_keys_iff_of_load loaded).mpr needed

theorem returns_ok_of_given {result : Except ε Bundle} (opened : loader path = .ok root)
    (given : ∀ file, Needs (loader ∘ place path) root file →
      ∃ value, loader (place path file) = .ok value)
    (returns : Returns loader path result) : ∃ b, result = .ok b := by
  obtain ⟨limit, same⟩ := returns
  obtain ⟨found, followed⟩ := exists_follow given .start limit
  have loaded := same limit (Nat.le_refl limit)
  rw [load_eq opened, followed] at loaded
  cases result with
  | error cause => cases loaded
  | ok b => exact ⟨b, rfl⟩

end

end ApiCodec.Bundle

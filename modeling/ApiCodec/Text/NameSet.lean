set_option autoImplicit false

namespace ApiCodec

/-- Names in order, each once. -/
abbrev NameSet := List String

namespace NameSet

/-- Adds a name at its place. -/
def insert (name : String) : NameSet → NameSet
  | [] => [name]
  | first :: rest =>
      if name < first then name :: first :: rest
      else if name = first then first :: rest
      else first :: insert name rest

def ofList (names : List String) : NameSet := names.foldl (fun set name => insert name set) []

def union (set other : NameSet) : NameSet := other.foldl (fun set name => insert name set) set

theorem mem_insert {name other : String} {set : NameSet} :
    other ∈ insert name set ↔ other = name ∨ other ∈ set := by
  induction set with
  | nil => simp [insert]
  | cons first rest ih =>
      simp only [insert]
      split
      · simp
      · split
        · next h => simp [h]
        · simp only [List.mem_cons, ih]
          constructor
          · rintro (h | h | h) <;> simp [h]
          · rintro (h | h | h) <;> simp [h]

theorem mem_union {name : String} {set other : NameSet} :
    name ∈ union set other ↔ name ∈ set ∨ name ∈ other := by
  induction other generalizing set with
  | nil => simp [union]
  | cons first rest ih =>
      have h : name ∈ union (insert first set) rest ↔ name ∈ insert first set ∨ name ∈ rest := ih
      simp only [union] at h
      simp only [union, List.foldl_cons, h, mem_insert, List.mem_cons]
      constructor
      · rintro ((h | h) | h) <;> simp [h]
      · rintro (h | h | h) <;> simp [h]

theorem mem_ofList {name : String} {names : List String} : name ∈ ofList names ↔ name ∈ names := by
  have h : name ∈ union [] names ↔ name ∈ ([] : NameSet) ∨ name ∈ names := mem_union
  simpa [union, ofList] using h

theorem pairwise_insert {name : String} {set : NameSet} (sorted : set.Pairwise (· < ·)) :
    (insert name set).Pairwise (· < ·) := by
  induction set with
  | nil => simp [insert]
  | cons first rest ih =>
      obtain ⟨before, others⟩ := List.pairwise_cons.1 sorted
      simp only [insert]
      split
      · next h =>
          refine List.pairwise_cons.2 ⟨?_, sorted⟩
          intro other member
          rcases List.mem_cons.1 member with rfl | member
          · exact h
          · exact String.lt_trans h (before other member)
      · split
        · exact sorted
        · next hlt hne =>
            refine List.pairwise_cons.2 ⟨?_, ih others⟩
            intro other member
            rcases mem_insert.1 member with rfl | member
            · exact Std.lt_of_le_of_ne (Std.not_lt.1 hlt) (Ne.symm hne)
            · exact before other member

theorem pairwise_union {set names : NameSet} (sorted : set.Pairwise (· < ·)) :
    (union set names).Pairwise (· < ·) := by
  induction names generalizing set with
  | nil => exact sorted
  | cons first rest ih => exact ih (pairwise_insert sorted)

/-- A name that stands in a set is not added again. -/
theorem insert_eq_self {name : String} {set : NameSet} (sorted : set.Pairwise (· < ·))
    (known : name ∈ set) : insert name set = set := by
  induction set with
  | nil => cases known
  | cons first rest ih =>
      obtain ⟨before, others⟩ := List.pairwise_cons.1 sorted
      simp only [insert]
      rcases List.mem_cons.1 known with rfl | later
      · rw [if_neg (String.lt_irrefl name), if_pos rfl]
      · have after := before name later
        have distinct : name ≠ first := by
          rintro rfl
          exact String.lt_irrefl name after
        rw [if_neg (String.lt_asymm after), if_neg distinct, ih others later]

theorem union_eq_self {set names : NameSet} (sorted : set.Pairwise (· < ·))
    (known : ∀ name ∈ names, name ∈ set) : union set names = set := by
  induction names with
  | nil => rfl
  | cons first rest ih =>
      obtain ⟨there, others⟩ := List.forall_mem_cons.1 known
      rw [union, List.foldl_cons, insert_eq_self sorted there]
      exact ih others

/-- The names of a set stand in order. -/
theorem pairwise_ofList (names : List String) : (ofList names).Pairwise (· < ·) :=
  have start : ([] : NameSet).Pairwise (· < ·) := List.Pairwise.nil
  pairwise_union start

/-- Names in order are each there once. -/
theorem nodup_of_pairwise {set : NameSet} (sorted : set.Pairwise (· < ·)) : set.Nodup :=
  sorted.imp fun h => by
    rintro rfl
    exact String.lt_irrefl _ h

theorem nodup_ofList (names : List String) : (ofList names).Nodup :=
  nodup_of_pairwise (pairwise_ofList names)

/-- No more names are left when some name is passed over besides those seen before. -/
theorem countP_le_countP (names seen : List String) (name : String) :
    names.countP (fun k => !(name :: seen).contains k) ≤ names.countP (fun k => !seen.contains k) := by
  apply List.countP_mono_left
  intro k _ h
  simp at h ⊢
  exact h.2

/-- Fewer names are left when one of them is passed over besides those seen before. -/
theorem countP_lt_countP {names seen : List String} {name : String} (hname : name ∈ names)
    (hseen : name ∉ seen) :
    names.countP (fun k => !(name :: seen).contains k) < names.countP (fun k => !seen.contains k) := by
  induction names with
  | nil => simp at hname
  | cons k rest ih =>
      have hle := countP_le_countP rest seen name
      by_cases hk : k = name
      · subst hk
        simp only [List.countP_cons]
        simp [hseen] at hle ⊢
        omega
      · have hrest : name ∈ rest := by
          rcases List.mem_cons.1 hname with h | h
          · exact absurd h.symm hk
          · exact h
        have := ih hrest
        simp only [List.countP_cons]
        by_cases hs : k ∈ seen <;> simp [hs, hk] at this ⊢ <;> omega

end NameSet

end ApiCodec

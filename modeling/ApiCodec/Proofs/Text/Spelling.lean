import ApiCodec.Proofs.Text.Folding

set_option autoImplicit false

namespace ApiCodec.Text

/-- A letter or digit of ASCII, or a character outside of ASCII. -/
def isSpelled (c : Char) : Bool := c.isAlphanum || 128 ≤ c.toNat

namespace Tables

/-- The images of a run are outside of ASCII and no surrogates; or the run is a single character,
whose image is checked itself. -/
def ShiftRun.Lands (run : ShiftRun) : Prop :=
  (128 ≤ run.first + run.shift ∧ run.last + run.shift < 0xd800) ∨
    (0xe000 ≤ run.first + run.shift ∧ run.last + run.shift < 0x110000) ∨
    (run.last = run.first ∧ isSpelled (Char.ofNat (run.first + run.shift).toNat))

instance (run : ShiftRun) : Decidable run.Lands :=
  inferInstanceAs (Decidable (_ ∨ _))

theorem isSpelled_of_valid {code : Nat} (wide : 128 ≤ code) (valid : code.isValidChar) :
    isSpelled (Char.ofNat code) := by
  have code_eq : (Char.ofNat code).toNat = code := by
    rw [Char.ofNat, dif_pos valid]
    rfl
  rw [isSpelled, code_eq, Bool.or_eq_true, decide_eq_true_iff]
  exact Or.inr wide

theorem ShiftRun.Lands.isSpelled {run : ShiftRun} (lands : run.Lands) {code : Nat}
    (inside : run.has code) : Text.isSpelled (Char.ofNat (code + run.shift).toNat) := by
  rw [ShiftRun.has, Bool.and_eq_true, Bool.and_eq_true, decide_eq_true_iff, decide_eq_true_iff]
    at inside
  obtain ⟨⟨first, last⟩, _⟩ := inside
  rcases lands with ⟨least, most⟩ | ⟨least, most⟩ | ⟨single, checked⟩
  · exact isSpelled_of_valid (by omega) (Or.inl (by omega))
  · exact isSpelled_of_valid (by omega) (Or.inr ⟨by omega, by omega⟩)
  · rwa [show code = run.first by omega]

/-- The image of a character outside of ASCII. -/
theorem isSpelled_image {long : List (Nat × List Nat)} {runs : List ShiftRun}
    (longLand : ∀ row ∈ long, ∀ code ∈ row.2, isSpelled (Char.ofNat code))
    (runsLand : ∀ run ∈ runs, 128 ≤ run.last → run.Lands) {c : Char} (wide : 128 ≤ c.toNat) :
    ∀ d ∈ image long runs c, isSpelled d := by
  unfold image
  split
  · rename_i codes found
    intro d member
    obtain ⟨code, inside, rfl⟩ := List.mem_map.mp member
    obtain ⟨before, after, rfl, _⟩ := List.lookup_eq_some_iff.mp found
    exact longLand _ (List.mem_append_right _ List.mem_cons_self) code inside
  · split
    · rename_i run found
      have inside := List.find?_some found
      rw [List.forall_mem_singleton]
      refine (runsLand run (List.mem_of_find?_eq_some found) ?_).isSpelled inside
      rw [ShiftRun.has, Bool.and_eq_true, Bool.and_eq_true, decide_eq_true_iff,
        decide_eq_true_iff] at inside
      exact Nat.le_trans wide inside.1.2
    · rw [List.forall_mem_singleton, isSpelled, Bool.or_eq_true, decide_eq_true_iff]
      exact Or.inr wide

/-- The rows of the case maps. -/
theorem maps_land :
    (∀ run ∈ toLower ++ toUpper, 128 ≤ run.last → run.Lands) ∧
      ∀ row ∈ toLowerLong ++ toUpperLong, ∀ code ∈ row.2, isSpelled (Char.ofNat code) := by
  decide +kernel

theorem isSpelled_lower {c : Char} (wide : 128 ≤ c.toNat) :
    ∀ d ∈ image toLowerLong toLower c, isSpelled d :=
  isSpelled_image (fun row inside => maps_land.2 row (List.mem_append_left _ inside))
    (fun run inside => maps_land.1 run (List.mem_append_left _ inside)) wide

theorem isSpelled_upper {c : Char} (wide : 128 ≤ c.toNat) :
    ∀ d ∈ image toUpperLong toUpper c, isSpelled d :=
  isSpelled_image (fun row inside => maps_land.2 row (List.mem_append_right _ inside))
    (fun run inside => maps_land.1 run (List.mem_append_right _ inside)) wide

end Tables

/-- Letters and digits of ASCII stay such in both cases. -/
theorem isAlphanum_cases {c : Char} (small : c.toNat < 128) (alphanumeric : c.isAlphanum) :
    c.toLower.isAlphanum ∧ c.toUpper.isAlphanum :=
  forall_ascii (P := fun c => c.isAlphanum → c.toLower.isAlphanum ∧ c.toUpper.isAlphanum)
    (by decide) small alphanumeric

theorem isSpelled_lowerChar {c : Char} (alphanumeric : isAlphanumeric c) :
    ∀ d ∈ lowerChar c, isSpelled d := by
  unfold lowerChar
  split
  · rename_i small
    rw [isAlphanumeric, if_pos small] at alphanumeric
    rw [List.forall_mem_singleton, isSpelled, (isAlphanum_cases small alphanumeric).1, Bool.true_or]
  · rename_i wide
    exact Tables.isSpelled_lower (by omega)

theorem isSpelled_upperChar {c : Char} (alphanumeric : isAlphanumeric c) :
    ∀ d ∈ upperChar c, isSpelled d := by
  unfold upperChar
  split
  · rename_i small
    rw [isAlphanumeric, if_pos small] at alphanumeric
    rw [List.forall_mem_singleton, isSpelled, (isAlphanum_cases small alphanumeric).2, Bool.true_or]
  · rename_i wide
    exact Tables.isSpelled_upper (by omega)

theorem isSpelled_lowerWord {word : List Char} (alphanumeric : ∀ c ∈ word, isAlphanumeric c) :
    ∀ d ∈ lowerWord word, isSpelled d := by
  fun_induction lowerWord word with
  | case1 => exact List.forall_mem_nil _
  | case2 c sigma =>
      rw [List.forall_mem_singleton]
      decide
  | case3 c other => exact isSpelled_lowerChar (alphanumeric c List.mem_cons_self)
  | case4 c d rest ih =>
      obtain ⟨first, others⟩ := List.forall_mem_cons.mp alphanumeric
      exact List.forall_mem_append.mpr ⟨isSpelled_lowerChar first, ih others⟩

theorem isSpelled_capitalWord {word : List Char} (alphanumeric : ∀ c ∈ word, isAlphanumeric c) :
    ∀ d ∈ capitalWord word, isSpelled d := by
  cases word with
  | nil => exact List.forall_mem_nil _
  | cons c rest =>
      obtain ⟨first, others⟩ := List.forall_mem_cons.mp alphanumeric
      exact List.forall_mem_append.mpr ⟨isSpelled_upperChar first, isSpelled_lowerWord others⟩

/-- Of the characters of ASCII, names in camelCase have letters and digits only. -/
theorem isSpelled_camelCase (text : String) : ∀ c ∈ (camelCase text).toList, isSpelled c := by
  unfold camelCase
  have all : ∀ word ∈ words text.toList, ∀ c ∈ word, isAlphanumeric c := fun _ member _ inside =>
    (mem_of_mem_words member inside).2
  split
  · simp
  · rename_i first rest found
    rw [found, List.forall_mem_cons] at all
    rw [String.toList_ofList, List.forall_mem_append]
    refine ⟨isSpelled_lowerWord all.1, fun c inside => ?_⟩
    obtain ⟨word, member, inside⟩ := List.mem_flatMap.mp inside
    exact isSpelled_capitalWord (all.2 word member) c inside

end ApiCodec.Text

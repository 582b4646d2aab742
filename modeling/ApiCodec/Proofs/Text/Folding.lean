import ApiCodec.Naming

set_option autoImplicit false

namespace ApiCodec.Text

/-- All characters are of ASCII. -/
def IsAscii (text : List Char) : Prop := ∀ c ∈ text, c.toNat < 128

instance (text : List Char) : Decidable (IsAscii text) :=
  List.decidableBAll (fun c : Char => c.toNat < 128) text

/-- What holds of all characters of ASCII, one by one. -/
theorem forall_ascii {P : Char → Prop} (each : ∀ code < 128, P (Char.ofNat code)) {c : Char}
    (small : c.toNat < 128) : P c := by
  have found := each c.toNat small
  rwa [Char.ofNat_toNat] at found

/-- The letters and digits of a text, in small letters. -/
def folded (text : String) : List Char := (text.toList.filter isAlphanumeric).map Char.toLower

/-- Cutting loses nothing. -/
theorem flatten_cutWords (mode : LetterMode) (word : List Char) {rest : List Char}
    (more : rest ≠ []) : (cutWords mode word rest).flatten = word.reverse ++ rest := by
  fun_induction cutWords mode word rest with
  | case1 => exact absurd rfl more
  | case2 mode word c => simp
  | case3 mode word c d rest _ ih =>
      rw [List.flatten_cons, ih (List.cons_ne_nil d rest)]
      simp
  | case4 mode word c d rest _ _ ih =>
      rw [List.flatten_cons, ih (List.cons_ne_nil d rest)]
      rfl
  | case5 mode word c d rest _ _ ih =>
      rw [ih (List.cons_ne_nil d rest)]
      simp

theorem ne_nil_of_mem_runsFrom {test : Char → Bool} {started rest run : List Char}
    (member : run ∈ runsFrom test started rest) : run ≠ [] := by
  fun_induction runsFrom test started rest with
  | case1 => cases member
  | case2 started other =>
      rw [List.mem_singleton.mp member]
      simpa using other
  | case3 started c rest _ ih => exact ih member
  | case4 started c rest _ _ ih => exact ih member
  | case5 started c rest _ other ih =>
      rcases List.mem_cons.mp member with rfl | later
      · simpa using other
      · exact ih later

theorem flatten_runsFrom (test : Char → Bool) (started rest : List Char) :
    (runsFrom test started rest).flatten = started.reverse ++ rest.filter test := by
  fun_induction runsFrom test started rest with
  | case1 started empty => simpa using empty
  | case2 started other => simp
  | case3 started c rest holds ih => simp [ih, holds]
  | case4 started c rest fails empty ih => simp_all
  | case5 started c rest fails other ih => simp [ih, fails]

theorem flatten_flatMap_cutWords {runs : List (List Char)} (filled : ∀ run ∈ runs, run ≠ []) :
    (runs.flatMap (cutWords .boundary [])).flatten = runs.flatten := by
  induction runs with
  | nil => rfl
  | cons run rest ih =>
      obtain ⟨first, others⟩ := List.forall_mem_cons.mp filled
      rw [List.flatMap_cons, List.flatten_append, flatten_cutWords .boundary [] first, ih others,
        List.flatten_cons, List.reverse_nil, List.nil_append]

/-- The words of a text are its letters and digits. -/
theorem flatten_words (text : List Char) :
    (words text).flatten = text.filter isAlphanumeric := by
  rw [words, flatten_flatMap_cutWords fun _ => ne_nil_of_mem_runsFrom, flatten_runsFrom,
    List.reverse_nil, List.nil_append]

theorem mem_of_mem_words {text word : List Char} (member : word ∈ words text) {c : Char}
    (inside : c ∈ word) : c ∈ text ∧ isAlphanumeric c := by
  have kept : c ∈ text.filter isAlphanumeric := by
    rw [← flatten_words]
    exact List.mem_flatten.mpr ⟨word, member, inside⟩
  exact List.mem_filter.mp kept

theorem isAscii_of_mem_words {text word : List Char} (ascii : IsAscii text)
    (member : word ∈ words text) : IsAscii word :=
  fun c inside => ascii c (mem_of_mem_words member inside).1

/-- Both cases of a letter of ASCII have one small letter. -/
theorem toLower_cases {c : Char} (small : c.toNat < 128) :
    c.toLower.toLower = c.toLower ∧ c.toUpper.toLower = c.toLower :=
  forall_ascii (P := fun c => c.toLower.toLower = c.toLower ∧ c.toUpper.toLower = c.toLower)
    (by decide) small

theorem toLower_lowerChar {c : Char} (small : c.toNat < 128) :
    (lowerChar c).map Char.toLower = [c.toLower] := by
  rw [lowerChar, if_pos small, List.map_singleton, (toLower_cases small).1]

theorem toLower_upperChar {c : Char} (small : c.toNat < 128) :
    (upperChar c).map Char.toLower = [c.toLower] := by
  rw [upperChar, if_pos small, List.map_singleton, (toLower_cases small).2]

theorem toLower_lowerWord {word : List Char} (ascii : IsAscii word) :
    (lowerWord word).map Char.toLower = word.map Char.toLower := by
  fun_induction lowerWord word with
  | case1 => rfl
  | case2 c sigma =>
      have small := ascii c List.mem_cons_self
      omega
  | case3 c other => exact toLower_lowerChar (ascii c List.mem_cons_self)
  | case4 c d rest ih =>
      obtain ⟨first, others⟩ := List.forall_mem_cons.mp ascii
      rw [List.map_append, toLower_lowerChar first, ih others]
      rfl

theorem toLower_capitalWord {word : List Char} (ascii : IsAscii word) :
    (capitalWord word).map Char.toLower = word.map Char.toLower := by
  cases word with
  | nil => rfl
  | cons c rest =>
      obtain ⟨first, others⟩ := List.forall_mem_cons.mp ascii
      rw [capitalWord, List.map_append, toLower_upperChar first, toLower_lowerWord others]
      rfl

theorem toLower_flatMap_capitalWord {words : List (List Char)}
    (ascii : ∀ word ∈ words, IsAscii word) :
    (words.flatMap capitalWord).map Char.toLower = words.flatten.map Char.toLower := by
  induction words with
  | nil => rfl
  | cons word rest ih =>
      obtain ⟨first, others⟩ := List.forall_mem_cons.mp ascii
      rw [List.flatMap_cons, List.map_append, toLower_capitalWord first, ih others,
        List.flatten_cons, List.map_append]

theorem toLower_pascalCase {text : String} (ascii : IsAscii text.toList) :
    (pascalCase text).toList.map Char.toLower = folded text := by
  rw [pascalCase, String.toList_ofList,
    toLower_flatMap_capitalWord fun _ member => isAscii_of_mem_words ascii member, flatten_words,
    folded]

theorem toLower_camelCase {text : String} (ascii : IsAscii text.toList) :
    (camelCase text).toList.map Char.toLower = folded text := by
  have all : ∀ word ∈ words text.toList, IsAscii word := fun _ member =>
    isAscii_of_mem_words ascii member
  unfold camelCase folded
  rw [← flatten_words]
  split
  · rename_i none
    rw [none]
    rfl
  · rename_i first rest found
    rw [found, List.forall_mem_cons] at all
    rw [found, String.toList_ofList, List.map_append, toLower_lowerWord all.1,
      toLower_flatMap_capitalWord all.2, List.flatten_cons, List.map_append]

theorem mem_scrubFrom {test : Char → Bool} {started gap : Bool} {text : List Char} {c : Char}
    (member : c ∈ scrubFrom test started gap text) : c = '_' ∨ c ∈ text := by
  fun_induction scrubFrom test started gap text with
  | case1 => cases member
  | case2 started gap d rest _ _ ih =>
      rcases List.mem_cons.mp member with mark | member
      · exact Or.inl mark
      · rcases List.mem_cons.mp member with rfl | later
        · exact Or.inr List.mem_cons_self
        · exact (ih later).imp_right (List.mem_cons_of_mem d)
  | case3 started gap d rest _ _ ih =>
      rcases List.mem_cons.mp member with rfl | later
      · exact Or.inr List.mem_cons_self
      · exact (ih later).imp_right (List.mem_cons_of_mem d)
  | case4 started gap d rest _ ih => exact (ih member).imp_right (List.mem_cons_of_mem d)

theorem isAscii_sanitize {name : String} (ascii : IsAscii name.toList) :
    IsAscii (sanitize name).toList := by
  rw [sanitize, String.toList_ofList, sanitizeBy]
  split
  · decide
  · intro c member
    rcases mem_scrubFrom member with rfl | inside
    · decide
    · exact ascii c inside

end ApiCodec.Text

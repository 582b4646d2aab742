import ApiCodec.Proofs.Text.Folding

set_option autoImplicit false

namespace ApiCodec.Text

/-- The maximal runs of characters that satisfy a test, in their order. A run ends with the text or
before a character that fails the test; such characters belong to no run. -/
inductive HasRuns (test : Char → Bool) : List Char → List (List Char) → Prop
  | nil : HasRuns test [] []
  | gap {c : Char} {text : List Char} {runs : List (List Char)} (fails : test c = false)
      (rest : HasRuns test text runs) : HasRuns test (c :: text) runs
  | last {run : List Char} (filled : run ≠ []) (kept : ∀ c ∈ run, test c) :
      HasRuns test run [run]
  | run {run : List Char} {c : Char} {text : List Char} {runs : List (List Char)}
      (filled : run ≠ []) (kept : ∀ c ∈ run, test c) (fails : test c = false)
      (rest : HasRuns test text runs) : HasRuns test (run ++ c :: text) (run :: runs)

def runs (test : Char → Bool) (text : List Char) : List (List Char) := runsFrom test [] text

section

variable {test : Char → Bool} {text other : List Char} {cut : List (List Char)}

theorem hasRuns_runsFrom {started : List Char} (kept : ∀ c ∈ started, test c) :
    HasRuns test (started.reverse ++ text) (runsFrom test started text) := by
  fun_induction runsFrom test started text with
  | case1 started empty =>
      rw [List.isEmpty_iff.mp empty]
      exact .nil
  | case2 started filled =>
      rw [List.append_nil]
      exact .last (by simpa using filled) (by simpa using kept)
  | case3 started c rest holds ih =>
      have more := ih (List.forall_mem_cons.mpr ⟨holds, kept⟩)
      rwa [List.reverse_cons, List.append_assoc] at more
  | case4 started c rest fails empty ih =>
      rw [List.isEmpty_iff.mp empty]
      exact .gap (by simpa using fails) (ih (List.forall_mem_nil _))
  | case5 started c rest fails filled ih =>
      exact .run (by simpa using filled) (by simpa using kept) (by simpa using fails)
        (ih (List.forall_mem_nil _))

theorem hasRuns_runs (test : Char → Bool) (text : List Char) :
    HasRuns test text (runs test text) :=
  hasRuns_runsFrom (List.forall_mem_nil _)

/-- A run is taken into the run that is open before it. -/
theorem runsFrom_append {run : List Char} (kept : ∀ c ∈ run, test c) (started : List Char) :
    runsFrom test started (run ++ text) = runsFrom test (run.reverse ++ started) text := by
  induction run generalizing started with
  | nil => rfl
  | cons c run ih =>
      obtain ⟨holds, kept⟩ := List.forall_mem_cons.mp kept
      rw [List.cons_append, runsFrom, if_pos holds, ih kept, List.reverse_cons, List.append_assoc]
      rfl

theorem HasRuns.runs_eq (has : HasRuns test text cut) : runs test text = cut := by
  unfold runs
  induction has with
  | nil => rfl
  | gap fails _ ih => simpa [runsFrom, fails] using ih
  | @last run filled kept =>
      have whole : runsFrom test [] (run ++ []) = runsFrom test (run.reverse ++ []) [] :=
        runsFrom_append kept []
      rw [List.append_nil, List.append_nil] at whole
      rw [whole, runsFrom, if_neg (by simpa using filled), List.reverse_reverse]
  | @run run c text runs filled kept fails _ ih =>
      rw [runsFrom_append kept, List.append_nil, runsFrom, if_neg (by simp [fails]),
        if_neg (by simpa using filled), ih, List.reverse_reverse]

theorem HasRuns.filled (has : HasRuns test text cut) : ∀ run ∈ cut, run ≠ [] := by
  induction has with
  | nil => exact List.forall_mem_nil _
  | gap _ _ ih => exact ih
  | last filled _ => exact List.forall_mem_singleton.mpr filled
  | run filled _ _ _ ih => exact List.forall_mem_cons.mpr ⟨filled, ih⟩

theorem HasRuns.kept (has : HasRuns test text cut) : ∀ run ∈ cut, ∀ c ∈ run, test c := by
  induction has with
  | nil => exact List.forall_mem_nil _
  | gap _ _ ih => exact ih
  | last _ kept => exact List.forall_mem_singleton.mpr kept
  | run _ kept _ _ ih => exact List.forall_mem_cons.mpr ⟨kept, ih⟩

/-- The characters of the runs are those that satisfy the test. -/
theorem flatten_runs (test : Char → Bool) (text : List Char) :
    (runs test text).flatten = text.filter test :=
  flatten_runsFrom test [] text

theorem runs_eq_nil_iff : runs test text = [] ↔ ∀ c ∈ text, test c = false := by
  have none : text.filter test = [] ↔ ∀ c ∈ text, test c = false := by
    simp [List.filter_eq_nil_iff]
  rw [← none, ← flatten_runs]
  constructor
  · intro empty
    rw [empty]
    rfl
  · intro empty
    rw [List.eq_nil_iff_forall_not_mem]
    intro run member
    refine (hasRuns_runs test text).filled run member ?_
    exact List.flatten_eq_nil_iff.mp empty run member

/-- Runs that are joined by a character that fails the test are cut again. -/
theorem hasRuns_intercalate {sep : Char} (fails : test sep = false) (filled : ∀ run ∈ cut, run ≠ [])
    (kept : ∀ run ∈ cut, ∀ c ∈ run, test c) : HasRuns test ([sep].intercalate cut) cut := by
  induction cut with
  | nil => exact .nil
  | cons run rest ih =>
      obtain ⟨first, others⟩ := List.forall_mem_cons.mp filled
      obtain ⟨holds, hold⟩ := List.forall_mem_cons.mp kept
      cases rest with
      | nil =>
          rw [List.intercalate_singleton]
          exact .last first holds
      | cons next rest =>
          rw [List.intercalate_cons_cons, List.append_assoc]
          exact .run first holds fails (ih others hold)

end

section

variable {test : Char → Bool} {text : List Char} {cut : List (List Char)}

theorem scrubFrom_run {run : List Char} (kept : ∀ c ∈ run, test c) :
    scrubFrom test true false (run ++ text) = run ++ scrubFrom test true false text := by
  induction run with
  | nil => rfl
  | cons c run ih =>
      obtain ⟨holds, kept⟩ := List.forall_mem_cons.mp kept
      simp [scrubFrom, holds, ih kept]

/-- A run gets an underscore in front if others were kept before it. -/
theorem scrubFrom_run_of_gap {run : List Char} (filled : run ≠ []) (kept : ∀ c ∈ run, test c) :
    scrubFrom test true true (run ++ text) = '_' :: run ++ scrubFrom test true false text := by
  cases run with
  | nil => exact absurd rfl filled
  | cons c run =>
      obtain ⟨holds, kept⟩ := List.forall_mem_cons.mp kept
      simp [scrubFrom, holds, scrubFrom_run kept]

/-- The first run gets none. -/
theorem scrubFrom_first_run {run : List Char} (filled : run ≠ []) (kept : ∀ c ∈ run, test c)
    (gap : Bool) :
    scrubFrom test false gap (run ++ text) = run ++ scrubFrom test true false text := by
  cases run with
  | nil => exact absurd rfl filled
  | cons c run =>
      obtain ⟨holds, kept⟩ := List.forall_mem_cons.mp kept
      simp [scrubFrom, holds, scrubFrom_run kept]

theorem scrubFrom_fails {c : Char} (fails : test c = false) (started gap : Bool) :
    scrubFrom test started gap (c :: text) = scrubFrom test started true text := by
  simp [scrubFrom, fails]

/-- Behind what was kept, each run is kept with an underscore. -/
theorem HasRuns.scrubFrom_behind (has : HasRuns test text cut) :
    scrubFrom test true true text = cut.flatMap ('_' :: ·) := by
  induction has with
  | nil => rfl
  | gap fails _ ih => rw [scrubFrom_fails fails, ih]
  | @last run filled kept =>
      have whole : scrubFrom test true true (run ++ []) =
          '_' :: run ++ scrubFrom test true false [] := scrubFrom_run_of_gap filled kept
      rw [List.append_nil] at whole
      rw [whole, List.flatMap_singleton]
      exact List.append_nil _
  | @run run c text runs filled kept fails _ ih =>
      rw [scrubFrom_run_of_gap filled kept, scrubFrom_fails fails, ih]
      rfl

theorem intercalate_cons (sep : Char) (run : List Char) (rest : List (List Char)) :
    [sep].intercalate (run :: rest) = run ++ rest.flatMap (sep :: ·) := by
  induction rest generalizing run with
  | nil => simp
  | cons next rest ih => rw [List.intercalate_cons_cons, ih]; simp

theorem HasRuns.scrubFrom_eq (has : HasRuns test text cut) (gap : Bool) :
    scrubFrom test false gap text = ['_'].intercalate cut := by
  induction has generalizing gap with
  | nil => rfl
  | gap fails _ ih => rw [scrubFrom_fails fails, ih]
  | @last run filled kept =>
      have whole : scrubFrom test false gap (run ++ []) =
          run ++ scrubFrom test true false [] := scrubFrom_first_run filled kept gap
      rw [List.append_nil] at whole
      rw [whole, List.intercalate_singleton]
      exact List.append_nil _
  | @run run c text runs filled kept fails rest _ =>
      rw [scrubFrom_first_run filled kept, scrubFrom_fails fails, rest.scrubFrom_behind,
        intercalate_cons]

/-- A text as an identifier is its runs, joined by underscores. -/
theorem HasRuns.sanitizeBy_eq (has : HasRuns test text cut) :
    sanitizeBy test text = if cut = [] then unnamed else ['_'].intercalate cut := by
  unfold sanitizeBy
  rw [has.scrubFrom_eq false]
  cases cut with
  | nil => rfl
  | cons run rest =>
      have filled : run ≠ [] := has.filled run List.mem_cons_self
      rw [if_neg (List.cons_ne_nil run rest), intercalate_cons]
      cases run with
      | nil => exact absurd rfl filled
      | cons c run => rfl

end

/-- Underscores only between other characters, and no two of them side by side. -/
structure IsTidy (text : List Char) : Prop where
  nonempty : text ≠ []
  first : text.head? ≠ some '_'
  last : text.getLast? ≠ some '_'
  single : ¬ ['_', '_'] <:+: text

/-- A text is tidy if no piece between its underscores is empty. -/
theorem isTidy_of_splitOn {text : List Char} (filled : [] ∉ splitOn '_' text) : IsTidy text := by
  refine ⟨?_, fun first => ?_, fun last => ?_, ?_⟩
  · rintro rfl
    exact filled (List.mem_singleton.mpr rfl)
  · obtain ⟨rest, rfl⟩ := List.head?_eq_some_iff.mp first
    exact filled (by simp [splitOn])
  · obtain ⟨rest, rfl⟩ := List.getLast?_eq_some_iff.mp last
    refine filled ?_
    rw [splitOn_append_sep]
    exact List.mem_append_right _ (List.mem_singleton.mpr rfl)
  · rintro ⟨before, behind, rfl⟩
    refine filled ?_
    rw [List.append_assoc, List.cons_append, splitOn_append_sep]
    exact List.mem_append_right _ (by simp [splitOn])

section

variable {test : Char → Bool} (letters : ∀ c : Char, c.isAlpha → test c) (mark : test '_' = false)

include letters in
theorem hasRuns_unnamed : HasRuns test unnamed [unnamed] := by
  have alphabetic : unnamed.all Char.isAlpha := by decide
  exact .last (by decide) fun c member => letters c (List.all_eq_true.mp alphabetic c member)

include letters mark

/-- The runs of an identifier are those of the text it was made of. -/
theorem hasRuns_sanitizeBy (text : List Char) :
    HasRuns test (sanitizeBy test text)
      (if runs test text = [] then [unnamed] else runs test text) := by
  have has := hasRuns_runs test text
  rw [has.sanitizeBy_eq]
  split
  · exact hasRuns_unnamed letters
  · exact hasRuns_intercalate mark has.filled has.kept

theorem sanitizeBy_sanitizeBy (text : List Char) :
    sanitizeBy test (sanitizeBy test text) = sanitizeBy test text := by
  rw [(hasRuns_sanitizeBy letters mark text).sanitizeBy_eq, (hasRuns_runs test text).sanitizeBy_eq]
  split
  · rw [if_neg (List.cons_ne_nil _ _), List.intercalate_singleton]
  · rfl

theorem isTidy_sanitizeBy (text : List Char) : IsTidy (sanitizeBy test text) := by
  have has := hasRuns_sanitizeBy letters mark text
  have joined := has.sanitizeBy_eq
  generalize (if runs test text = [] then [unnamed] else runs test text) = cut at has joined
  rw [sanitizeBy_sanitizeBy letters mark] at joined
  refine isTidy_of_splitOn ?_
  rw [joined]
  split
  · decide
  · rename_i some
    have plain : ∀ run ∈ cut, '_' ∉ run := fun run member inside => by
      have holds := has.kept run member '_' inside
      rw [mark] at holds
      cases holds
    rw [splitOn_intercalate some plain]
    exact fun empty => has.filled [] empty rfl

end

/-- Let a test hold of the letters of ASCII and fail for the underscore. Made an identifier, a text
is not empty and has underscores only between other characters, one at a time. It is its runs of
characters that satisfy the test, joined by underscores, or `unnamed` if there is none; so its own
runs are those of the text, and to make it an identifier again changes nothing. Texts with the same
runs are the same identifier, and texts with different runs, neither without any, are different
ones. -/
theorem sanitizing_reaches_normal_form {test : Char → Bool}
    (letters : ∀ c : Char, c.isAlpha → test c) (mark : test '_' = false) (text : List Char) :
    IsTidy (sanitizeBy test text) ∧
      ((∀ c ∈ text, test c = false) → sanitizeBy test text = unnamed) ∧
      ((∃ c ∈ text, test c) →
        sanitizeBy test text = ['_'].intercalate (runs test text) ∧
          HasRuns test text (runs test text) ∧
          HasRuns test (sanitizeBy test text) (runs test text)) ∧
      sanitizeBy test (sanitizeBy test text) = sanitizeBy test text ∧
      ∀ other,
        (runs test text = runs test other → sanitizeBy test text = sanitizeBy test other) ∧
        (runs test text ≠ [] → runs test other ≠ [] → runs test text ≠ runs test other →
          sanitizeBy test text ≠ sanitizeBy test other) := by
  have has := hasRuns_runs test text
  have made := has.sanitizeBy_eq
  refine ⟨isTidy_sanitizeBy letters mark text, fun none => ?_, fun ⟨c, inside, holds⟩ => ?_,
    sanitizeBy_sanitizeBy letters mark text, fun other => ⟨fun same => ?_, ?_⟩⟩
  · rw [made, if_pos (runs_eq_nil_iff.mpr none)]
  · have some : runs test text ≠ [] := fun empty => by
      rw [runs_eq_nil_iff.mp empty c inside] at holds
      cases holds
    have again := hasRuns_sanitizeBy letters mark text
    rw [if_neg some] at made again
    exact ⟨made, has, again⟩
  · rw [made, (hasRuns_runs test other).sanitizeBy_eq, same]
  · intro here there different same
    have first := hasRuns_sanitizeBy letters mark text
    have second := hasRuns_sanitizeBy letters mark other
    rw [if_neg here, same] at first
    rw [if_neg there] at second
    exact different (first.runs_eq.symm.trans second.runs_eq)

theorem isAlphanumeric_of_isAlpha {c : Char} (letter : c.isAlpha) : isAlphanumeric c := by
  have atMost : c.val ≤ 'Z'.val ∨ c.val ≤ 'z'.val := by
    rcases (Bool.or_eq_true c.isUpper c.isLower).mp letter with upper | lower
    · exact Or.inl (of_decide_eq_true upper).2
    · exact Or.inr (of_decide_eq_true ((Bool.and_eq_true _ _).mp lower).2)
  have small : c.toNat < 128 := by
    have code : c.toNat = c.val.toNat := rfl
    have limits : 'Z'.val.toNat = 90 ∧ 'z'.val.toNat = 122 := by decide
    rw [UInt32.le_iff_toNat_le, UInt32.le_iff_toNat_le] at atMost
    omega
  rw [isAlphanumeric, if_pos small, Char.isAlphanum, letter, Bool.true_or]

theorem letters_isAlphanumeric : ∀ c : Char, c.isAlpha → isAlphanumeric c :=
  fun _ => isAlphanumeric_of_isAlpha

theorem isAlphanumeric_mark : isAlphanumeric '_' = false := by decide

/-- The runs of letters and digits that an identifier is made of. -/
def nameRuns (name : String) : List (List Char) :=
  if runs isAlphanumeric name.toList = [] then [unnamed] else runs isAlphanumeric name.toList

theorem toList_sanitize (name : String) :
    (sanitize name).toList = sanitizeBy isAlphanumeric name.toList := String.toList_ofList

theorem isTidy_sanitize (name : String) : IsTidy (sanitize name).toList := by
  rw [toList_sanitize]
  exact isTidy_sanitizeBy letters_isAlphanumeric isAlphanumeric_mark _

theorem hasRuns_sanitize (name : String) :
    HasRuns isAlphanumeric (sanitize name).toList (nameRuns name) := by
  rw [toList_sanitize]
  exact hasRuns_sanitizeBy letters_isAlphanumeric isAlphanumeric_mark _

theorem sanitize_sanitize (name : String) : sanitize (sanitize name) = sanitize name := by
  rw [← String.toList_inj, toList_sanitize, toList_sanitize]
  exact sanitizeBy_sanitizeBy letters_isAlphanumeric isAlphanumeric_mark _

/-- Names are one identifier exactly if it is made of the same runs. -/
theorem sanitize_eq_iff (name other : String) :
    sanitize name = sanitize other ↔ nameRuns name = nameRuns other := by
  constructor
  · intro same
    have again := hasRuns_sanitize name
    rw [same] at again
    exact again.runs_eq.symm.trans (hasRuns_sanitize other).runs_eq
  · intro same
    rw [← sanitize_sanitize name, ← sanitize_sanitize other, ← String.toList_inj,
      toList_sanitize (sanitize name), toList_sanitize (sanitize other),
      (hasRuns_sanitize name).sanitizeBy_eq, (hasRuns_sanitize other).sanitizeBy_eq, same]

/-- A name with separators in front, in a row and at the end, and one that is cut elsewhere. -/
theorem sanitizing_reaches_normal_form_pet :
    (∀ c : Char, c.isAlpha → isAlphanumeric c) ∧ isAlphanumeric '_' = false ∧
      runs isAlphanumeric "--get pet.by__id!".toList =
        ["get".toList, "pet".toList, "by".toList, "id".toList] ∧
      sanitizeBy isAlphanumeric "--get pet.by__id!".toList = "get_pet_by_id".toList ∧
      IsTidy "get_pet_by_id".toList ∧
      sanitizeBy isAlphanumeric "get pet byid".toList ≠ "get_pet_by_id".toList := by
  have cut : runs isAlphanumeric "--get pet.by__id!".toList =
      ["get".toList, "pet".toList, "by".toList, "id".toList] := by decide +kernel
  have kept : ∃ c ∈ "--get pet.by__id!".toList, isAlphanumeric c :=
    ⟨'g', by decide +kernel, by decide⟩
  obtain ⟨tidy, _, joined, _, told⟩ :=
    sanitizing_reaches_normal_form letters_isAlphanumeric isAlphanumeric_mark
      "--get pet.by__id!".toList
  have made : sanitizeBy isAlphanumeric "--get pet.by__id!".toList = "get_pet_by_id".toList := by
    rw [(joined kept).1, cut]
    decide +kernel
  rw [made] at tidy told
  have apart := (told "get pet byid".toList).2 (by decide +kernel) (by decide +kernel)
    (by decide +kernel)
  exact ⟨letters_isAlphanumeric, isAlphanumeric_mark, cut, made, tidy, apart.symm⟩

end ApiCodec.Text

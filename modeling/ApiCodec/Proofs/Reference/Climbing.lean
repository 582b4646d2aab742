import ApiCodec.Proofs.Reference.Anchoring

set_option autoImplicit false

namespace ApiCodec.Path

open Text (splitOn)

section

variable {stack : List (List Char)} {segment : List Char}

theorem push_up_replicate (n : Nat) :
    push false (List.replicate n up) up = List.replicate (n + 1) up :=
  push_up_relative fun _ member => List.eq_of_mem_replicate (List.mem_of_mem_head? member)

/-- Ways up that no name stands below are never taken back. -/
theorem push_append_ups (n : Nat) :
    push false (stack ++ List.replicate n up) segment =
      push false stack segment ++ List.replicate n up := by
  rcases segment_cases segment with void | rfl | name
  · rw [push_void void, push_void void]
  · cases stack with
    | nil => exact push_up_replicate n
    | cons top below =>
        by_cases above : top = up
        · subst above
          rfl
        · rw [push_up_of_ne above]
          exact push_up_of_ne above
  · rw [push_name name, push_name name, List.cons_append]

theorem foldl_push_ups (segments : List (List Char)) (n : Nat) :
    segments.foldl (push false) (stack ++ List.replicate n up) =
      segments.foldl (push false) stack ++ List.replicate n up := by
  induction segments generalizing stack with
  | nil => rfl
  | cons segment rest ih =>
      rw [List.foldl_cons, List.foldl_cons, push_append_ups]
      exact ih

/-- Ways up, then further segments: the first stay. -/
theorem stackOf_ups (n : Nat) (segments : List (List Char)) :
    stackOf false (List.replicate n up ++ segments) =
      stackOf false segments ++ List.replicate n up := by
  have start : stackOf false (List.replicate n up) = List.replicate n up := by
    induction n with
    | zero => rfl
    | succ n ih =>
        rw [List.replicate_succ', stackOf_append, ih, ← List.replicate_succ']
        exact push_up_replicate n
  have further : segments.foldl (push false) ([] ++ List.replicate n up) =
      segments.foldl (push false) [] ++ List.replicate n up := foldl_push_ups segments n
  rw [stackOf_append, start]
  exact further

end

/-- In a stack of a relative path all names stand above all ways up. -/
theorem exists_names_stackOf (segments : List (List Char)) :
    ∃ names n, stackOf false segments = names ++ List.replicate n up ∧
      ∀ name ∈ names, IsName name := by
  induction segments using List.reverseRecOn with
  | nil => exact ⟨[], 0, rfl, by simp⟩
  | append_singleton before segment ih =>
      obtain ⟨names, n, same, named⟩ := ih
      rw [stackOf_append, same, List.foldl_cons, List.foldl_nil, push_append_ups]
      rcases segment_cases segment with void | rfl | name
      · exact ⟨names, n, by rw [push_void void], named⟩
      · cases names with
        | nil =>
            refine ⟨[], n + 1, ?_, by simp⟩
            rw [push_up_nil, List.replicate_succ]
            rfl
        | cons top below =>
            obtain ⟨own, rest⟩ := List.forall_mem_cons.mp named
            exact ⟨below, n, by rw [push_up_of_ne own.ne_up], rest⟩
      · exact ⟨segment :: names, n, by rw [push_name name], List.forall_mem_cons.mpr ⟨name, named⟩⟩

/-- How often a path leads up before it leads anywhere else. -/
def ups (file : String) : Nat := (stack file.toList).count up

/-- A path that is as it reads when resolved. -/
def IsResolved (file : String) : Prop := normalize file = file

theorem toList_normalize (file : String) :
    (normalize file).toList = written (isAbsolute file.toList) (stack file.toList) :=
  String.toList_ofList

theorem IsResolved.toList_eq {file : String} (resolved : IsResolved file) :
    file.toList = written (isAbsolute file.toList) (stack file.toList) := by
  have same : normalize file = file := resolved
  rw [← toList_normalize, same]

section

variable {absolute : Bool} {segments : List (List Char)}
  (plain : ∀ segment ∈ segments, '/' ∉ segment)

include plain

theorem isAbsolute_written_stackOf :
    isAbsolute (written absolute (stackOf absolute segments)) = absolute :=
  isAbsolute_written fun _ member => isWritable_of_mem_stackOf plain member

theorem stack_written_stackOf :
    stack (written absolute (stackOf absolute segments)) = stackOf absolute segments := by
  have writable : ∀ segment ∈ stackOf absolute segments, IsWritable segment := fun _ member =>
    isWritable_of_mem_stackOf plain member
  rw [stack, isAbsolute_written writable, stackOf, foldl_push_written writable, ← stackOf,
    stackOf_reverse_stackOf]

theorem isResolved_written_stackOf :
    IsResolved (String.ofList (written absolute (stackOf absolute segments))) := by
  apply String.toList_inj.mp
  rw [toList_normalize, String.toList_ofList, stack_written_stackOf plain,
    isAbsolute_written_stackOf plain]

end

theorem plain_splitOn (path : List Char) : ∀ segment ∈ splitOn '/' path, '/' ∉ segment :=
  fun _ => Text.not_mem_of_mem_splitOn

theorem plain_front_append (base target : List Char) :
    ∀ segment ∈ front base ++ splitOn '/' target, '/' ∉ segment := by
  intro segment member
  rcases List.mem_append.mp member with inside | inside
  · exact plain_front inside
  · exact plain_splitOn target segment inside

theorem isResolved_normalize (file : String) : IsResolved (normalize file) :=
  isResolved_written_stackOf (plain_splitOn _)

theorem stack_normalize (file : String) : stack (normalize file).toList = stack file.toList := by
  rw [toList_normalize]
  exact stack_written_stackOf (plain_splitOn _)

theorem isAbsolute_normalize (file : String) :
    isAbsolute (normalize file).toList = isAbsolute file.toList := by
  rw [toList_normalize]
  exact isAbsolute_written_stackOf (plain_splitOn _)

theorem isResolved_joinRelative (base target : String) : IsResolved (joinRelative base target) := by
  unfold joinRelative
  rw [joinChars_eq]
  split
  · exact isResolved_written_stackOf (plain_splitOn _)
  · exact isResolved_written_stackOf (plain_front_append _ _)

theorem isAbsolute_joinRelative (base target : String) :
    isAbsolute (joinRelative base target).toList =
      (isAbsolute target.toList || isAbsolute base.toList) := by
  unfold joinRelative
  rw [String.toList_ofList, joinChars_eq]
  by_cases rooted : isAbsolute target.toList
  · rw [if_pos rooted, rooted, Bool.true_or]
    exact isAbsolute_written_stackOf (plain_splitOn _)
  · rw [if_neg rooted, eq_false_of_ne_true rooted, Bool.false_or]
    exact isAbsolute_written_stackOf (plain_front_append _ _)

/-- A resolved path to a file is written from its name on top of its directory. -/
theorem IsResolved.exists_stack {file : String} (resolved : IsResolved file)
    (named : NamesFile file) :
    ∃ name directory, stack file.toList = name :: directory ∧ IsName name ∧
      file.toList = written (isAbsolute file.toList) (name :: directory) := by
  have top := stackOf_append_splitOn named (isAbsolute file.toList) []
  rw [List.nil_append, ← stack] at top
  refine ⟨_, _, top, named, ?_⟩
  rw [← top]
  exact resolved.toList_eq

/-- A resolved relative path has the segments of its stack. -/
theorem IsResolved.splitOn_eq {file : String} (resolved : IsResolved file)
    (relative : isAbsolute file.toList = false) (nonempty : stack file.toList ≠ []) :
    splitOn '/' file.toList = (stack file.toList).reverse := by
  have text := resolved.toList_eq
  rw [relative] at text
  have writable : ∀ segment ∈ stack file.toList, IsWritable segment := fun _ =>
    isWritable_of_mem_stack
  have cut : splitOn '/' (written false (stack file.toList)) = _ := splitOn_written writable
  rw [← text, if_neg nonempty] at cut
  exact cut

/-- A path with a number of further `..` before it. -/
def climbed (n : Nat) (file : String) : String :=
  normalize (String.ofList ((List.replicate n ['.', '.', '/']).flatten ++ file.toList))

theorem splitOn_ups (n : Nat) (path : List Char) :
    splitOn '/' ((List.replicate n ['.', '.', '/']).flatten ++ path) =
      List.replicate n up ++ splitOn '/' path := by
  induction n with
  | zero => rfl
  | succ n ih =>
      have first : (List.replicate (n + 1) ['.', '.', '/']).flatten ++ path =
          up ++ '/' :: ((List.replicate n ['.', '.', '/']).flatten ++ path) := rfl
      rw [first, Text.splitOn_append _ (by decide), ih]
      rfl

theorem isResolved_climbed (n : Nat) (file : String) : IsResolved (climbed n file) :=
  isResolved_normalize _

theorem climbed_zero {file : String} (resolved : IsResolved file) : climbed 0 file = file := by
  have same : String.ofList ((List.replicate 0 ['.', '.', '/']).flatten ++ file.toList) = file :=
    String.ofList_toList
  rw [climbed, same]
  exact resolved

theorem isAbsolute_climbed_of_pos {n : Nat} (positive : 0 < n) (file : String) :
    isAbsolute (climbed n file).toList = false := by
  obtain ⟨m, rfl⟩ := Nat.exists_eq_add_one_of_ne_zero (Nat.pos_iff_ne_zero.mp positive)
  rw [climbed, isAbsolute_normalize, String.toList_ofList]
  rfl

section

variable {file : String} (relative : isAbsolute file.toList = false)

include relative

theorem isAbsolute_ups (n : Nat) :
    isAbsolute ((List.replicate n ['.', '.', '/']).flatten ++ file.toList) = false := by
  cases n with
  | zero => exact relative
  | succ n => rfl

theorem isAbsolute_climbed (n : Nat) : isAbsolute (climbed n file).toList = false := by
  rw [climbed, isAbsolute_normalize, String.toList_ofList]
  exact isAbsolute_ups relative n

theorem stack_climbed (n : Nat) :
    stack (climbed n file).toList = stack file.toList ++ List.replicate n up := by
  rw [climbed, stack_normalize, String.toList_ofList, stack, isAbsolute_ups relative, splitOn_ups,
    stackOf_ups, stack, relative]

theorem stack_climbed_ne_nil (nonempty : stack file.toList ≠ []) (n : Nat) :
    stack (climbed n file).toList ≠ [] := by
  rw [stack_climbed relative]
  exact List.append_ne_nil_of_left_ne_nil nonempty _

theorem stack_climbed_names {names : List (List Char)} {m : Nat}
    (stacked : stack file.toList = names ++ List.replicate m up) (n : Nat) :
    stack (climbed n file).toList = names ++ List.replicate (m + n) up := by
  rw [stack_climbed relative, stacked, List.append_assoc, List.replicate_append_replicate]

theorem toList_climbed (n : Nat) :
    (climbed n file).toList = written false (stack file.toList ++ List.replicate n up) := by
  rw [(isResolved_climbed n file).toList_eq, isAbsolute_climbed relative, stack_climbed relative]

theorem ups_climbed (n : Nat) : ups (climbed n file) = ups file + n := by
  rw [ups, stack_climbed relative, List.count_append, List.count_replicate_self, ups]

theorem climbed_climbed (m n : Nat) : climbed m (climbed n file) = climbed (n + m) file := by
  apply String.toList_inj.mp
  rw [toList_climbed (isAbsolute_climbed relative n), stack_climbed relative,
    toList_climbed relative, List.append_assoc, List.replicate_append_replicate]

theorem lastSegment_climbed (resolved : IsResolved file) (named : NamesFile file) (n : Nat) :
    lastSegment (climbed n file).toList = lastSegment file.toList := by
  obtain ⟨name, directory, top, _, _⟩ := resolved.exists_stack named
  have here : stack file.toList ≠ [] := top ▸ List.cons_ne_nil name directory
  have above : stack (climbed n file).toList ≠ [] := stack_climbed_ne_nil relative here n
  rw [lastSegment, lastSegment, resolved.splitOn_eq relative here,
    (isResolved_climbed n file).splitOn_eq (isAbsolute_climbed relative n) above,
    stack_climbed relative, top, List.cons_append, List.reverse_cons, List.reverse_cons,
    List.getLastD_concat, List.getLastD_concat]

/-- Two resolved paths with the same names are the same but for further ways up. -/
theorem eq_climbed {other : String} (resolved : IsResolved other) {n : Nat}
    (otherRelative : isAbsolute other.toList = false)
    (same : stack other.toList = stack file.toList ++ List.replicate n up) :
    other = climbed n file := by
  apply String.toList_inj.mp
  rw [resolved.toList_eq, otherRelative, same, toList_climbed relative]

/-- The names of a path, the last one first, above its ways up. -/
theorem exists_names_stack :
    ∃ names, stack file.toList = names ++ List.replicate (ups file) up ∧
      ∀ name ∈ names, IsName name := by
  obtain ⟨names, n, same, named⟩ := exists_names_stackOf (splitOn '/' file.toList)
  have stacked : stack file.toList = names ++ List.replicate n up := by rw [stack, relative, same]
  have none : names.count up = 0 := List.count_eq_zero.mpr fun member => (named up member).ne_up rfl
  have count : ups file = n := by
    rw [ups, stacked, List.count_append, none, List.count_replicate_self, Nat.zero_add]
  exact ⟨names, by rw [stacked, count], named⟩

variable {target : String} (targetRelative : isAbsolute target.toList = false)

include targetRelative

/-- What is found from a file is found above it from a file above. -/
theorem joinRelative_climbed (resolved : IsResolved file) (named : NamesFile file) (n : Nat) :
    joinRelative (climbed n file) target = climbed n (joinRelative file target) := by
  obtain ⟨name, directory, top, _, text⟩ := resolved.exists_stack named
  have writable : ∀ segment ∈ name :: directory, IsWritable segment := fun segment member =>
    isWritable_of_mem_stack (top ▸ member)
  have above : ∀ segment ∈ name :: (directory ++ List.replicate n up), IsWritable segment := by
    rw [← List.cons_append, ← top, ← stack_climbed relative]
    exact fun _ member => isWritable_of_mem_stack member
  have found : isAbsolute (joinRelative file target).toList = false := by
    rw [isAbsolute_joinRelative, targetRelative, relative, Bool.false_or]
  have plain : ∀ segment ∈ directory.reverse ++ splitOn '/' target.toList, '/' ∉ segment := by
    intro segment member
    rcases List.mem_append.mp member with inside | inside
    · exact (writable segment (List.mem_cons_of_mem _ (List.mem_reverse.mp inside))).plain
    · exact plain_splitOn _ segment inside
  have here : (joinRelative file target).toList =
      written false (stackOf false (directory.reverse ++ splitOn '/' target.toList)) := by
    rw [joinRelative, String.toList_ofList, text, relative,
      joinChars_from_written targetRelative writable]
  apply String.toList_inj.mp
  rw [toList_climbed found, here, stack_written_stackOf plain, joinRelative, String.toList_ofList,
    toList_climbed relative, top, List.cons_append, joinChars_from_written targetRelative above,
    List.reverse_append, List.reverse_replicate, List.append_assoc, stackOf_ups]

/-- What is found from a file leads up as often as the file, and then on. -/
theorem ups_le_ups_joinRelative (named : NamesFile file) :
    ups file ≤ ups (joinRelative file target) := by
  obtain ⟨names, stacked, _⟩ := exists_names_stack relative
  have top := stackOf_append_splitOn named (isAbsolute file.toList) []
  rw [List.nil_append, ← stack, stacked, relative, List.nil_append] at top
  have joined : stack (joinRelative file target).toList =
      stackOf false (front file.toList ++ splitOn '/' target.toList) := by
    rw [joinRelative, String.toList_ofList, joinChars_eq, if_neg (by simp [targetRelative]),
      relative]
    exact stack_written_stackOf (plain_front_append _ _)
  cases names with
  | nil =>
      have above : lastSegment file.toList = up :=
        List.eq_of_mem_replicate (top ▸ List.mem_cons_self)
      exact absurd above named.ne_up
  | cons name below =>
      have directory : stackOf false (front file.toList) = below ++ List.replicate (ups file) up :=
        (List.cons.inj top).2.symm
      show ups file ≤ (stack (joinRelative file target).toList).count up
      rw [joined, stackOf_append, directory, foldl_push_ups, List.count_append,
        List.count_replicate_self]
      exact Nat.le_add_left _ _

end

end ApiCodec.Path

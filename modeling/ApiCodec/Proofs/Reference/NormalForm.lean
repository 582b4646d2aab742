import ApiCodec.Proofs.Reference.Climbing

set_option autoImplicit false

namespace ApiCodec.Path

open Text (splitOn)

/-- The segments of a path behind the slash that it may start with. If nothing is there, it has
none. -/
def segmentsOf (path : List Char) : List (List Char) :=
  let rest := if isAbsolute path then path.tail else path
  if rest = [] then [] else splitOn '/' rest

/-- A path that has nothing left to resolve. -/
structure IsNormal (path : String) : Prop where
  filled : [] ∉ segmentsOf path.toList
  pointless : ['.'] ∉ segmentsOf path.toList
  /-- The ways up, as many as there are, stand in front. -/
  climbsFirst : ∃ n names, segmentsOf path.toList = List.replicate n up ++ names ∧ up ∉ names
  rooted : isAbsolute path.toList → up ∉ segmentsOf path.toList

theorem plain_segmentsOf {path piece : List Char} (member : piece ∈ segmentsOf path) :
    '/' ∉ piece := by
  have cut : ∀ rest : List Char, (piece ∈ if rest = [] then [] else splitOn '/' rest) →
      '/' ∉ piece := by
    intro rest member
    split at member
    · cases member
    · exact Text.not_mem_of_mem_splitOn member
  exact cut _ member

/-- A path is written from its segments. -/
theorem written_segmentsOf (path : List Char) :
    written (isAbsolute path) (segmentsOf path).reverse = path := by
  have joined : ∀ rest : List Char,
      ['/'].intercalate (if rest = [] then [] else splitOn '/' rest) = rest := by
    intro rest
    split
    · rename_i none
      rw [none]
      rfl
    · exact Text.intercalate_splitOn '/' rest
  rw [written, List.reverse_reverse, segmentsOf, joined]
  cases path with
  | nil => rfl
  | cons c path =>
      by_cases slash : c = '/'
      · subst slash
        rfl
      · have relative : isAbsolute (c :: path) = false := by simp [isAbsolute, slash]
        simp [relative]

/-- Segments that are written are read again. -/
theorem segmentsOf_written {absolute : Bool} {stack : List (List Char)}
    (writable : ∀ segment ∈ stack, IsWritable segment) :
    segmentsOf (written absolute stack) = stack.reverse := by
  have text : (if absolute then (written absolute stack).tail else written absolute stack) =
      ['/'].intercalate stack.reverse := by
    cases absolute <;> rfl
  have plain : ∀ segment ∈ stack.reverse, '/' ∉ segment := fun segment member =>
    (writable segment (List.mem_reverse.mp member)).plain
  unfold segmentsOf
  rw [isAbsolute_written writable, text]
  cases pieces : stack.reverse with
  | nil => rfl
  | cons first rest =>
      have cut : splitOn '/' (['/'].intercalate (first :: rest)) = first :: rest :=
        Text.splitOn_intercalate (List.cons_ne_nil first rest) (pieces ▸ plain)
      have nonempty : ['/'].intercalate (first :: rest) ≠ [] := by
        intro empty
        have alone : [[]] = first :: rest := by rw [← cut, empty]; rfl
        have member : [] ∈ stack := by
          rw [← List.mem_reverse, pieces, ← alone]
          exact List.mem_singleton.mpr rfl
        exact (writable [] member).nonempty rfl
      simp only [if_neg nonempty, cut]

theorem segmentsOf_normalize (path : String) :
    segmentsOf (normalize path).toList = (stack path.toList).reverse := by
  rw [toList_normalize, segmentsOf_written fun _ => isWritable_of_mem_stack]

theorem isNormal_normalize (path : String) : IsNormal (normalize path) := by
  have pushed : ∀ piece ∈ segmentsOf (normalize path).toList,
      ¬ IsVoid piece ∧ (isAbsolute path.toList → piece ≠ up) := by
    intro piece member
    rw [segmentsOf_normalize, List.mem_reverse] at member
    exact (mem_stackOf member).2
  refine ⟨fun member => (pushed _ member).1 (Or.inl rfl),
    fun member => (pushed _ member).1 (Or.inr rfl), ?_, ?_⟩
  · rw [segmentsOf_normalize]
    cases rooted : isAbsolute path.toList with
    | true =>
        refine ⟨0, _, rfl, fun member => ?_⟩
        exact (mem_stackOf (List.mem_reverse.mp member)).2.2 rooted rfl
    | false =>
        obtain ⟨names, stacked, named⟩ := exists_names_stack rooted
        refine ⟨ups path, names.reverse, ?_, fun member => ?_⟩
        · rw [stacked, List.reverse_append, List.reverse_replicate]
        · exact (named up (List.mem_reverse.mp member)).ne_up rfl
  · intro rooted member
    rw [isAbsolute_normalize] at rooted
    exact (pushed up member).2 rooted rfl

/-- Segments in normal form stay on the stack as they come. -/
theorem IsNormal.stackOf_segmentsOf {path : String} (normal : IsNormal path) :
    stackOf (isAbsolute path.toList) (segmentsOf path.toList) =
      (segmentsOf path.toList).reverse := by
  obtain ⟨n, names, same, others⟩ := normal.climbsFirst
  have named : ∀ name ∈ names, IsName name := by
    intro name member
    have inside : name ∈ segmentsOf path.toList := same ▸ List.mem_append_right _ member
    refine ⟨?_, fun above => others (above ▸ member)⟩
    rintro (rfl | rfl)
    · exact normal.filled inside
    · exact normal.pointless inside
  cases rooted : isAbsolute path.toList with
  | true =>
      have all : ∀ segment ∈ segmentsOf path.toList, IsName segment := by
        intro segment member
        rw [same] at member
        rcases List.mem_append.mp member with above | inside
        · have way := List.eq_of_mem_replicate above
          exact absurd (same ▸ List.mem_append_left _ (way ▸ above)) (normal.rooted rooted)
        · exact named segment inside
      rw [stackOf, foldl_push_names [] all, List.append_nil]
  | false =>
      rw [same, stackOf_ups, stackOf, foldl_push_names [] named, List.append_nil,
        List.reverse_append, List.reverse_replicate]

/-- The paths in normal form are those that normalizing leaves as they are. -/
theorem isResolved_iff_isNormal {path : String} : IsResolved path ↔ IsNormal path := by
  constructor
  · intro resolved
    have same : normalize path = path := resolved
    rw [← same]
    exact isNormal_normalize path
  · intro normal
    have writable : ∀ segment ∈ (segmentsOf path.toList).reverse, IsWritable segment := by
      intro segment member
      have inside := List.mem_reverse.mp member
      exact ⟨fun empty => normal.filled (empty ▸ inside), plain_segmentsOf inside⟩
    have text := written_segmentsOf path.toList
    have stacked : stack path.toList = (segmentsOf path.toList).reverse := by
      conv_lhs => rw [stack, ← text]
      rw [isAbsolute_written writable, stackOf, foldl_push_written writable, List.reverse_reverse]
      exact normal.stackOf_segmentsOf
    apply String.toList_inj.mp
    rw [toList_normalize, stacked, text]

/-- What stands before a slash is on the stack before the rest is pushed. -/
theorem stack_append_slash {path : List Char} (nonempty : path ≠ []) (rest : List Char) :
    isAbsolute (path ++ '/' :: rest) = isAbsolute path ∧
      stack (path ++ '/' :: rest) =
        (splitOn '/' rest).foldl (push (isAbsolute path)) (stack path) := by
  have root : isAbsolute (path ++ '/' :: rest) = isAbsolute path := by
    cases path with
    | nil => exact absurd rfl nonempty
    | cons c path => rfl
  refine ⟨root, ?_⟩
  rw [stack, root, Text.splitOn_append_sep, stackOf_append, ← stack]

theorem toList_append_slash (path rest : String) :
    (path ++ "/" ++ rest).toList = path.toList ++ '/' :: rest.toList := by
  rw [String.toList_append, String.toList_append, List.append_assoc]
  rfl

theorem normalize_append_slash {path : String} (nonempty : normalize path ≠ "") (rest : String) :
    normalize (path ++ "/" ++ rest) = normalize (normalize path ++ "/" ++ rest) := by
  have resolved : (normalize path).toList ≠ [] := fun empty =>
    nonempty (String.toList_inj.mp (empty.trans String.toList_empty.symm))
  have given : path.toList ≠ [] := by
    intro empty
    refine resolved ?_
    rw [toList_normalize, empty]
    rfl
  obtain ⟨root, stacked⟩ := stack_append_slash given rest.toList
  obtain ⟨root', stacked'⟩ := stack_append_slash resolved rest.toList
  have same : normalizeChars (path ++ "/" ++ rest).toList =
      normalizeChars (normalize path ++ "/" ++ rest).toList := by
    rw [toList_append_slash, toList_append_slash, normalizeChars_eq_iff, root, root', stacked,
      stacked', isAbsolute_normalize, stack_normalize]
    exact ⟨rfl, rfl⟩
  exact congrArg String.ofList same

/-- A path starts at the root exactly if it does so when normalized; normalized, it has no segment
that is empty or a point, and `..` only in front, and not at all if it starts at the root; these are
the paths that normalizing leaves as they are, so doing it again changes nothing. What goes on behind
a path may be normalized with the path or with what is left of it, unless nothing is left. -/
theorem normalizing_gives_normal_form (path : String) :
    isAbsolute (normalize path).toList = isAbsolute path.toList ∧
      IsNormal (normalize path) ∧
      (normalize path = path ↔ IsNormal path) ∧
      normalize (normalize path) = normalize path ∧
      (normalize path ≠ "" → ∀ rest,
        normalize (path ++ "/" ++ rest) = normalize (normalize path ++ "/" ++ rest)) :=
  ⟨isAbsolute_normalize path, isNormal_normalize path, isResolved_iff_isNormal,
    isResolved_normalize path, normalize_append_slash⟩

/-- A path that leads above its start and goes on above that. -/
theorem normalizing_gives_normal_form_above :
    normalize "./a//../../b/c" = "../b/c" ∧ normalize "./a//../../b/c" ≠ "" ∧
      IsNormal "../b/c" ∧ ¬ IsNormal "./a//../../b/c" ∧
      normalize "./a//../../b/c/../../../d" = normalize "../b/c/../../../d" := by
  have left : normalize "./a//../../b/c" = "../b/c" := by decide +kernel
  have nonempty : normalize "./a//../../b/c" ≠ "" := by rw [left]; decide
  obtain ⟨_, normal, fixed, _, behind⟩ := normalizing_gives_normal_form "./a//../../b/c"
  have moved := behind nonempty "../../../d"
  rw [left] at normal fixed moved
  exact ⟨left, nonempty, normal, fixed.not.mp (by decide), moved⟩

/-- Of a path that comes back to its start nothing is left, and what goes on behind it would start
at the root. -/
example : normalize "a/.." = "" ∧ normalize "a/../b" = "b" ∧ normalize ("" ++ "/" ++ "b") = "/b" := by
  decide +kernel

end ApiCodec.Path

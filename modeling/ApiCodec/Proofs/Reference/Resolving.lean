import ApiCodec.Reference.Path
import Mathlib.Data.List.Induction

set_option autoImplicit false

namespace ApiCodec.Path

open Text (splitOn)

/-- The segment that leads to the directory above. -/
def up : List Char := ['.', '.']

/-- A segment that leads nowhere. -/
def IsVoid (segment : List Char) : Prop := segment = [] ∨ segment = ['.']

/-- A segment that leads to what has its name. -/
structure IsName (segment : List Char) : Prop where
  notVoid : ¬ IsVoid segment
  ne_up : segment ≠ up

instance (segment : List Char) : Decidable (IsVoid segment) := inferInstanceAs (Decidable (_ ∨ _))

instance (segment : List Char) : Decidable (IsName segment) :=
  decidable_of_iff (¬ IsVoid segment ∧ segment ≠ up) ⟨fun h => ⟨h.1, h.2⟩, fun h => ⟨h.1, h.2⟩⟩

theorem notVoid_up : ¬ IsVoid up := by decide

theorem segment_cases (segment : List Char) : IsVoid segment ∨ segment = up ∨ IsName segment := by
  by_cases void : IsVoid segment
  · exact Or.inl void
  · by_cases above : segment = up
    · exact Or.inr (Or.inl above)
    · exact Or.inr (Or.inr ⟨void, above⟩)

theorem isName_of_length {segment : List Char} (long : 2 < segment.length) : IsName segment := by
  refine ⟨?_, ?_⟩
  · rintro (rfl | rfl) <;> simp at long
  · rintro rfl
    simp [up] at long

section

variable {absolute : Bool} {stack below : List (List Char)} {segment top : List Char}

theorem push_void (void : IsVoid segment) : push absolute stack segment = stack := if_pos void

theorem push_name (name : IsName segment) : push absolute stack segment = segment :: stack := by
  have notVoid : ¬ (segment = [] ∨ segment = ['.']) := name.notVoid
  have ne_up : segment ≠ ['.', '.'] := name.ne_up
  unfold push
  rw [if_neg notVoid, if_neg ne_up]

theorem push_up_nil (absolute : Bool) :
    push absolute [] up = if absolute then [] else [up] := rfl

theorem push_up_up (absolute : Bool) (below : List (List Char)) :
    push absolute (up :: below) up = if absolute then up :: below else up :: up :: below := rfl

/-- A name is taken back by the way up. -/
theorem push_up_of_ne (name : top ≠ up) : push absolute (top :: below) up = below := by
  have notVoid : ¬ (up = [] ∨ up = ['.']) := notVoid_up
  have above : up = ['.', '.'] := rfl
  unfold push
  rw [if_neg notVoid, if_pos above]
  exact if_neg name

/-- Above a relative start, the way up stays. -/
theorem push_up_relative (climbs : ∀ top ∈ stack.head?, top = up) :
    push false stack up = up :: stack := by
  cases stack with
  | nil => rfl
  | cons top below =>
      obtain rfl : top = up := climbs top rfl
      rfl

/-- What is on the stack was there or is the segment; the way up is never on that of an absolute
path. -/
theorem mem_push_cases {piece : List Char} (member : piece ∈ push absolute stack segment) :
    piece ∈ stack ∨ piece = segment ∧ ¬ IsVoid segment ∧ (absolute → segment ≠ up) := by
  rcases segment_cases segment with void | rfl | name
  · rw [push_void void] at member
    exact Or.inl member
  · cases stack with
    | nil =>
        rw [push_up_nil] at member
        split at member
        · cases member
        · rename_i relative
          exact Or.inr ⟨List.mem_singleton.mp member, notVoid_up, fun root => absurd root relative⟩
    | cons top below =>
        by_cases climbs : top = up
        · subst climbs
          rw [push_up_up] at member
          split at member
          · exact Or.inl member
          · rename_i relative
            rcases List.mem_cons.mp member with rfl | member
            · exact Or.inr ⟨rfl, notVoid_up, fun root => absurd root relative⟩
            · exact Or.inl member
        · rw [push_up_of_ne climbs] at member
          exact Or.inl (List.mem_cons_of_mem _ member)
  · rw [push_name name] at member
    rcases List.mem_cons.mp member with rfl | member
    · exact Or.inr ⟨rfl, name.notVoid, fun _ => name.ne_up⟩
    · exact Or.inl member

end

/-- What is left of segments that are resolved, the last one first. -/
def stackOf (absolute : Bool) (segments : List (List Char)) : List (List Char) :=
  segments.foldl (push absolute) []

theorem stackOf_append (absolute : Bool) (segments more : List (List Char)) :
    stackOf absolute (segments ++ more) =
      more.foldl (push absolute) (stackOf absolute segments) :=
  List.foldl_append

theorem mem_foldl_push_cases {absolute : Bool} {segments stack : List (List Char)}
    {piece : List Char} (member : piece ∈ segments.foldl (push absolute) stack) :
    piece ∈ stack ∨ piece ∈ segments ∧ ¬ IsVoid piece ∧ (absolute → piece ≠ up) := by
  induction segments generalizing stack with
  | nil => exact Or.inl member
  | cons segment rest ih =>
      rcases ih member with pushed | ⟨later, stays⟩
      · rcases mem_push_cases pushed with below | ⟨rfl, stays⟩
        · exact Or.inl below
        · exact Or.inr ⟨List.mem_cons_self, stays⟩
      · exact Or.inr ⟨List.mem_cons_of_mem _ later, stays⟩

theorem mem_stackOf {absolute : Bool} {segments : List (List Char)} {piece : List Char}
    (member : piece ∈ stackOf absolute segments) :
    piece ∈ segments ∧ ¬ IsVoid piece ∧ (absolute → piece ≠ up) :=
  (mem_foldl_push_cases member).resolve_left List.not_mem_nil

theorem isName_of_mem_stackOf {segments : List (List Char)} {piece : List Char}
    (member : piece ∈ stackOf true segments) : IsName piece :=
  ⟨(mem_stackOf member).2.1, (mem_stackOf member).2.2 rfl⟩

theorem foldl_push_names {absolute : Bool} {segments : List (List Char)}
    (stack : List (List Char)) (names : ∀ segment ∈ segments, IsName segment) :
    segments.foldl (push absolute) stack = segments.reverse ++ stack := by
  induction segments generalizing stack with
  | nil => rfl
  | cons segment rest ih =>
      obtain ⟨name, names⟩ := List.forall_mem_cons.mp names
      rw [List.foldl_cons, push_name name, ih _ names, List.reverse_cons, List.append_assoc]
      rfl

/-- A relative piece of a path may be resolved before what it stands behind. -/
theorem foldl_push_stackOf (absolute : Bool) (stack segments : List (List Char)) :
    (stackOf false segments).reverse.foldl (push absolute) stack =
      segments.foldl (push absolute) stack := by
  induction segments using List.reverseRecOn with
  | nil => rfl
  | append_singleton before segment ih =>
      rw [stackOf, List.foldl_append, List.foldl_append, List.foldl_cons, List.foldl_cons,
        List.foldl_nil, List.foldl_nil, ← ih, ← stackOf]
      have pushed : ∀ piece, (piece :: stackOf false before).reverse.foldl (push absolute) stack =
          push absolute ((stackOf false before).reverse.foldl (push absolute) stack) piece := by
        intro piece
        rw [List.reverse_cons, List.foldl_append, List.foldl_cons, List.foldl_nil]
      rcases segment_cases segment with void | rfl | name
      · rw [push_void void, push_void void]
      · by_cases climbs : ∀ top ∈ (stackOf false before).head?, top = up
        · rw [push_up_relative climbs, pushed]
        · -- The last segment before is a name, which both sides take back.
          cases front : stackOf false before with
          | nil => simp [front] at climbs
          | cons top below =>
              have notVoid : ¬ IsVoid top :=
                (mem_stackOf (front ▸ List.mem_cons_self : top ∈ stackOf false before)).2.1
              have name : IsName top := ⟨notVoid, by simpa [front] using climbs⟩
              rw [push_up_of_ne name.ne_up, List.reverse_cons, List.foldl_append, List.foldl_cons,
                List.foldl_nil, push_name name, push_up_of_ne name.ne_up]
      · rw [push_name name, push_name name, pushed, push_name name]

/-- Resolved segments stay as they are. -/
theorem stackOf_reverse_stackOf (absolute : Bool) (segments : List (List Char)) :
    stackOf absolute (stackOf absolute segments).reverse = stackOf absolute segments := by
  cases absolute with
  | false => exact foldl_push_stackOf false [] segments
  | true =>
      have names : ∀ piece ∈ (stackOf true segments).reverse, IsName piece := fun piece member =>
        isName_of_mem_stackOf (List.mem_reverse.mp member)
      rw [stackOf, foldl_push_names [] names, List.reverse_reverse, List.append_nil]

/-- The path with the segments of a stack. -/
def written (absolute : Bool) (stack : List (List Char)) : List Char :=
  if absolute then '/' :: ['/'].intercalate stack.reverse else ['/'].intercalate stack.reverse

theorem normalizeChars_eq (path : List Char) :
    normalizeChars path = written (isAbsolute path) (stackOf (isAbsolute path) (splitOn '/' path)) :=
  rfl

/-- A segment that can be written: not empty and without slash. -/
structure IsWritable (segment : List Char) : Prop where
  nonempty : segment ≠ []
  plain : '/' ∉ segment

theorem isWritable_of_mem_stackOf {absolute : Bool} {segments : List (List Char)}
    {piece : List Char} (plain : ∀ segment ∈ segments, '/' ∉ segment)
    (member : piece ∈ stackOf absolute segments) : IsWritable piece := by
  obtain ⟨inside, notVoid, _⟩ := mem_stackOf member
  exact ⟨fun empty => notVoid (Or.inl empty), plain piece inside⟩

theorem splitOn_slash (path : List Char) : splitOn '/' ('/' :: path) = [] :: splitOn '/' path := by
  simp [splitOn]

/-- A path is absolute if something follows an empty first segment. -/
theorem isAbsolute_iff {path : List Char} :
    isAbsolute path ↔ ∃ rest, rest ≠ [] ∧ splitOn '/' path = [] :: rest := by
  unfold isAbsolute
  cases path with
  | nil => simp [splitOn]
  | cons c path =>
      by_cases slash : c = '/'
      · subst slash
        simp [splitOn, Text.splitOn_ne_nil]
      · have first : ∀ rest, splitOn '/' (c :: path) ≠ [] :: rest := by
          intro rest
          simp only [splitOn, if_neg slash]
          split <;> simp
        simp [slash, first]

section

variable {absolute : Bool} {stack : List (List Char)}
  (writable : ∀ segment ∈ stack, IsWritable segment)

include writable

theorem isAbsolute_written : isAbsolute (written absolute stack) = absolute := by
  cases absolute with
  | true => rfl
  | false =>
      have split : ∀ rest, rest ≠ [] → splitOn '/' (written false stack) ≠ [] :: rest := by
        intro rest nonempty cut
        by_cases empty : stack = []
        · subst empty
          exact nonempty (List.cons.inj cut).2.symm
        · have pieces : ∀ segment ∈ stack.reverse, '/' ∉ segment := fun segment member =>
            (writable segment (List.mem_reverse.mp member)).plain
          have same : stack.reverse = [] :: rest :=
            (Text.splitOn_intercalate (by simpa using empty) pieces).symm.trans cut
          have member : [] ∈ stack := List.mem_reverse.mp (same ▸ List.mem_cons_self)
          exact (writable [] member).nonempty rfl
      rw [Bool.eq_false_iff]
      intro rooted
      obtain ⟨rest, nonempty, cut⟩ := isAbsolute_iff.mp rooted
      exact split rest nonempty cut

/-- A written path has the segments of its stack, with an empty one in front if it is absolute; the
one without any is written as an empty segment. -/
theorem splitOn_written :
    splitOn '/' (written absolute stack) =
      (if absolute then [[]] else []) ++ if stack = [] then [[]] else stack.reverse := by
  have pieces : ∀ segment ∈ stack.reverse, '/' ∉ segment := fun segment member =>
    (writable segment (List.mem_reverse.mp member)).plain
  have joined : splitOn '/' (['/'].intercalate stack.reverse) =
      if stack = [] then [[]] else stack.reverse := by
    split
    · rename_i empty
      subst empty
      rfl
    · rename_i nonempty
      exact Text.splitOn_intercalate (by simpa using nonempty) pieces
  cases absolute with
  | true => rw [written, if_pos rfl, splitOn_slash, joined, if_pos rfl, List.singleton_append]
  | false => exact joined

/-- Pushing the segments of a written path is pushing its stack. -/
theorem foldl_push_written (absolute' : Bool) (onto : List (List Char)) :
    (splitOn '/' (written absolute stack)).foldl (push absolute') onto =
      stack.reverse.foldl (push absolute') onto := by
  have void : push absolute' onto [] = onto := push_void (Or.inl rfl)
  have rooted : (if absolute then [[]] else ([] : List (List Char))).foldl (push absolute') onto =
      onto := by
    cases absolute with
    | true => exact void
    | false => rfl
  rw [splitOn_written writable, List.foldl_append, rooted]
  split
  · rename_i empty
    subst empty
    exact void
  · rfl

end

def stack (path : List Char) : List (List Char) :=
  stackOf (isAbsolute path) (splitOn '/' path)

theorem isWritable_of_mem_stack {path piece : List Char} (member : piece ∈ stack path) :
    IsWritable piece :=
  isWritable_of_mem_stackOf (fun _ => Text.not_mem_of_mem_splitOn) member

/-- Two paths read the same when resolved if both start at the root, or neither does, and their
stacks are the same. -/
theorem normalizeChars_eq_iff {path other : List Char} :
    normalizeChars path = normalizeChars other ↔
      isAbsolute path = isAbsolute other ∧ stack path = stack other := by
  rw [normalizeChars_eq, normalizeChars_eq, ← stack, ← stack]
  have writable : ∀ path, ∀ segment ∈ stack path, IsWritable segment := fun _ _ =>
    isWritable_of_mem_stack
  constructor
  · intro same
    have root : isAbsolute path = isAbsolute other := by
      have read : ∀ path, isAbsolute (written (isAbsolute path) (stack path)) = isAbsolute path :=
        fun path => isAbsolute_written (writable path)
      rw [← read path, same, read other]
    refine ⟨root, ?_⟩
    -- The segments of the text tell the stack, since none of those on it is empty.
    have cut := congrArg (splitOn '/') same
    rw [splitOn_written (writable path), splitOn_written (writable other), root] at cut
    have cut := List.append_cancel_left cut
    have void : ∀ path, [[]] ≠ (stack path).reverse := by
      intro path same
      have member : [] ∈ stack path := List.mem_reverse.mp (same ▸ List.mem_cons_self)
      exact (isWritable_of_mem_stack member).nonempty rfl
    split at cut <;> split at cut
    · rename_i left right
      rw [left, right]
    · exact absurd cut (void other)
    · exact absurd cut.symm (void path)
    · exact List.reverse_inj.mp cut
  · rintro ⟨root, same⟩
    rw [root, same]

def lastSegment (path : List Char) : List Char := (splitOn '/' path).getLastD []

theorem splitOn_eq_concat (path : List Char) :
    splitOn '/' path = (splitOn '/' path).dropLast ++ [lastSegment path] := by
  have nonempty := Text.splitOn_ne_nil '/' path
  have last : lastSegment path = (splitOn '/' path).getLast nonempty := by
    rw [lastSegment, List.getLastD_eq_getLast?, List.getLast?_eq_some_getLast nonempty]
    rfl
  rw [last, List.dropLast_concat_getLast]

theorem plain_lastSegment (path : List Char) : '/' ∉ lastSegment path := by
  have member : lastSegment path ∈ splitOn '/' path := by
    rw [splitOn_eq_concat]
    exact List.mem_append_right _ List.mem_cons_self
  exact Text.not_mem_of_mem_splitOn member

def front (path : List Char) : List (List Char) := (splitOn '/' path).dropLast

theorem plain_front {path piece : List Char} (member : piece ∈ front path) : '/' ∉ piece :=
  Text.not_mem_of_mem_splitOn (List.dropLast_subset _ member)

/-- What is left of a path is its last segment on top of the rest, if that is a name. -/
theorem stackOf_append_splitOn {path : List Char} (name : IsName (lastSegment path))
    (absolute : Bool) (before : List (List Char)) :
    stackOf absolute (before ++ splitOn '/' path) =
      lastSegment path :: stackOf absolute (before ++ front path) := by
  rw [splitOn_eq_concat path, ← front, ← List.append_assoc, stackOf_append, List.foldl_cons,
    List.foldl_nil, push_name name]

/-- The last segment of a file's path is a name. -/
def NamesFile (file : String) : Prop := IsName (lastSegment file.toList)

instance (file : String) : Decidable (NamesFile file) := inferInstanceAs (Decidable (IsName _))

/-- A path in the directory of a file is resolved behind all segments of the file but the last. -/
theorem joinChars_eq (base target : List Char) :
    joinChars base target =
      if isAbsolute target then written true (stackOf true (splitOn '/' target))
      else
        written (isAbsolute base) (stackOf (isAbsolute base) (front base ++ splitOn '/' target)) := by
  unfold joinChars
  cases rooted : isAbsolute target with
  | true => simp only [if_true, normalizeChars_eq, rooted]
  | false =>
      unfold directory?
      rw [← front]
      cases pieces : front base with
      | nil =>
          have single : isAbsolute base = false := by
            rw [Bool.eq_false_iff]
            intro absolute
            obtain ⟨rest, nonempty, cut⟩ := isAbsolute_iff.mp absolute
            rw [front, cut, List.dropLast_cons_of_ne_nil nonempty] at pieces
            cases pieces
          simp [normalizeChars_eq, rooted, single]
      | cons first rest =>
          have plain : ∀ piece ∈ first :: rest, '/' ∉ piece := fun _ member =>
            plain_front (pieces ▸ member)
          have cut : splitOn '/' (['/'].intercalate (first :: rest) ++ '/' :: target) =
              (first :: rest) ++ splitOn '/' target := by
            rw [Text.splitOn_append_sep, Text.splitOn_intercalate (by simp) plain]
          have sameRoot : isAbsolute (['/'].intercalate (first :: rest) ++ '/' :: target) =
              isAbsolute base := by
            have split : splitOn '/' base = first :: (rest ++ [lastSegment base]) := by
              rw [splitOn_eq_concat, ← front, pieces]
              rfl
            rw [Bool.eq_iff_iff, isAbsolute_iff, isAbsolute_iff, cut, split]
            simp [Text.splitOn_ne_nil]
          simp [normalizeChars_eq, cut, sameRoot]

end ApiCodec.Path

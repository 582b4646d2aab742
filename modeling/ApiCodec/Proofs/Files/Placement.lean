import ApiCodec.Files.Tree
import ApiCodec.Proofs.Reference.Resolving

set_option autoImplicit false

namespace ApiCodec

namespace Path

open Text (splitOn)

/-- Whether a way along segments leads out of the directory that it starts in, when it starts a
number of directories below it. -/
def leaves : Nat → List (List Char) → Bool
  | _, [] => false
  | depth, segment :: rest =>
      if IsVoid segment then leaves depth rest
      else if segment = up then
        match depth with
        | 0 => true
        | depth + 1 => leaves depth rest
      else leaves (depth + 1) rest

section

variable {depth : Nat} {segment : List Char} {rest : List (List Char)}

theorem leaves_void (void : IsVoid segment) :
    leaves depth (segment :: rest) = leaves depth rest := by
  cases depth <;> simp [leaves, void]

theorem leaves_name (name : IsName segment) :
    leaves depth (segment :: rest) = leaves (depth + 1) rest := by
  cases depth <;> simp [leaves, name.notVoid, name.ne_up]

theorem leaves_up_zero : leaves 0 (up :: rest) = true := by
  rw [leaves, if_neg notVoid_up, if_pos rfl]

theorem leaves_up_succ : leaves (depth + 1) (up :: rest) = leaves depth rest := by
  rw [leaves, if_neg notVoid_up, if_pos rfl]

end

/-- A last segment that is a name does not lead out. -/
theorem leaves_append_name (depth : Nat) (segments : List (List Char)) {name : List Char}
    (named : IsName name) : leaves depth (segments ++ [name]) = leaves depth segments := by
  induction segments generalizing depth with
  | nil => rw [List.nil_append, leaves_name named, leaves, leaves]
  | cons segment rest ih =>
      rw [List.cons_append]
      rcases segment_cases segment with void | rfl | other
      · rw [leaves_void void, leaves_void void, ih]
      · cases depth with
        | zero => rw [leaves_up_zero, leaves_up_zero]
        | succ depth => rw [leaves_up_succ, leaves_up_succ, ih]
      · rw [leaves_name other, leaves_name other, ih]

/-- A way that does not lead out ends where names were entered; `inner` is what was entered before
it. -/
theorem names_of_stays {segments inner : List (List Char)}
    (names : ∀ segment ∈ inner, IsName segment) (stays : leaves inner.length segments = false) :
    ∀ segment ∈ segments.foldl (push false) inner, IsName segment := by
  induction segments generalizing inner with
  | nil => exact names
  | cons segment rest ih =>
      rw [List.foldl_cons]
      rcases segment_cases segment with void | rfl | name
      · rw [leaves_void void] at stays
        rw [push_void void]
        exact ih names stays
      · cases inner with
        | nil =>
            rw [List.length_nil, leaves_up_zero] at stays
            cases stays
        | cons top inner =>
            obtain ⟨name, names⟩ := List.forall_mem_cons.mp names
            rw [List.length_cons, leaves_up_succ] at stays
            rw [push_up_of_ne name.ne_up]
            exact ih names stays
      · rw [leaves_name name] at stays
        rw [push_name name]
        exact ih (List.forall_mem_cons.mpr ⟨name, names⟩) stays

/-- A move from place to place that takes segments as they are meant, as long as it is below the
place where it began: `place` tells where it is from what was entered. -/
structure Walks {β : Type} (move : β → List Char → β) (place : List (List Char) → β) : Prop where
  void : ∀ inner segment, IsVoid segment → move (place inner) segment = place inner
  up : ∀ top inner, IsName top → move (place (top :: inner)) Path.up = place inner
  name : ∀ inner segment, IsName segment → move (place inner) segment = place (segment :: inner)

theorem Walks.foldl_of_stays {β : Type} {move : β → List Char → β}
    {place : List (List Char) → β} (walks : Walks move place) {segments inner : List (List Char)}
    (names : ∀ segment ∈ inner, IsName segment) (stays : leaves inner.length segments = false) :
    segments.foldl move (place inner) = place (segments.foldl (push false) inner) := by
  induction segments generalizing inner with
  | nil => rfl
  | cons segment rest ih =>
      rw [List.foldl_cons, List.foldl_cons]
      rcases segment_cases segment with void | rfl | name
      · rw [leaves_void void] at stays
        rw [push_void void, walks.void inner segment void]
        exact ih names stays
      · cases inner with
        | nil =>
            rw [List.length_nil, leaves_up_zero] at stays
            cases stays
        | cons top inner =>
            obtain ⟨name, names⟩ := List.forall_mem_cons.mp names
            rw [List.length_cons, leaves_up_succ] at stays
            rw [push_up_of_ne name.ne_up, walks.up top inner name]
            exact ih names stays
      · rw [leaves_name name] at stays
        rw [push_name name, walks.name inner segment name]
        exact ih (List.forall_mem_cons.mpr ⟨name, names⟩) stays

/-- Whatever is below the place where a way begins, resolving leaves it as it is. -/
theorem walks_push (absolute : Bool) (onto : List (List Char)) :
    Walks (push absolute) (· ++ onto) where
  void _ _ void := push_void void
  up _ _ name := push_up_of_ne name.ne_up
  name _ _ name := push_name name

/-- The way up stays at the bottom of a relative path. -/
theorem up_mem_foldl_push (segments inner : List (List Char)) :
    up ∈ segments.foldl (push false) (inner ++ [up]) := by
  induction segments generalizing inner with
  | nil => simp
  | cons segment rest ih =>
      rw [List.foldl_cons]
      rcases segment_cases segment with void | rfl | name
      · rw [push_void void]
        exact ih inner
      · cases inner with
        | nil => exact ih [up]
        | cons top inner =>
            by_cases climbs : top = up
            · subst climbs
              exact ih (up :: up :: inner)
            · rw [List.cons_append, push_up_of_ne climbs]
              exact ih inner
      · rw [push_name name]
        exact ih (segment :: inner)

/-- A way that leads out has a way up left. -/
theorem up_mem_of_leaves {segments inner : List (List Char)}
    (names : ∀ segment ∈ inner, IsName segment) (leads : leaves inner.length segments) :
    up ∈ segments.foldl (push false) inner := by
  induction segments generalizing inner with
  | nil => cases leads
  | cons segment rest ih =>
      rw [List.foldl_cons]
      rcases segment_cases segment with void | rfl | name
      · rw [leaves_void void] at leads
        rw [push_void void]
        exact ih names leads
      · cases inner with
        | nil => exact up_mem_foldl_push rest []
        | cons top inner =>
            obtain ⟨name, names⟩ := List.forall_mem_cons.mp names
            rw [List.length_cons, leaves_up_succ] at leads
            rw [push_up_of_ne name.ne_up]
            exact ih names leads
      · rw [leaves_name name] at leads
        rw [push_name name]
        exact ih (List.forall_mem_cons.mpr ⟨name, names⟩) leads

/-- A walk along a path that was joined goes along the directory, then along the path. -/
theorem foldl_join {β : Type} {move : β → List Char → β} (stay : ∀ place, move place [] = place)
    (start : β) (directory : List Char) {path : List Char} (relative : isAbsolute path = false) :
    (splitOn '/' (Files.joinChars directory path)).foldl move start =
      (splitOn '/' path).foldl move ((splitOn '/' directory).foldl move start) := by
  have here : (splitOn '/' []).foldl move start = start := stay start
  have notRooted : (path.head? == some '/') = false := relative
  unfold Files.joinChars
  rw [notRooted, Bool.false_or]
  split
  · rename_i empty
    have none : directory = [] := by simpa using empty
    rw [none, here]
  · split
    · rename_i slash
      obtain ⟨front, rfl⟩ := List.getLast?_eq_some_iff.mp (by simpa using slash)
      rw [List.append_assoc, List.singleton_append, Text.splitOn_append_sep,
        Text.splitOn_append_sep, List.foldl_append, List.foldl_append]
      exact congrArg (fun place => (splitOn '/' path).foldl move place) (stay _).symm
    · rw [Text.splitOn_append_sep, List.foldl_append]

theorem isAbsolute_join (directory : List Char) {path : List Char}
    (relative : isAbsolute path = false) :
    isAbsolute (Files.joinChars directory path) = isAbsolute directory := by
  have notRooted : (path.head? == some '/') = false := relative
  unfold Files.joinChars
  rw [notRooted, Bool.false_or]
  cases directory with
  | nil => exact relative
  | cons c rest =>
      rw [if_neg (by simp)]
      split <;> rfl

theorem stack_join (directory : List Char) {path : List Char} (relative : isAbsolute path = false) :
    stack (Files.joinChars directory path) =
      (splitOn '/' path).foldl (push (isAbsolute directory)) (stack directory) := by
  rw [stack, isAbsolute_join directory relative]
  exact foldl_join (fun _ => push_void (Or.inl rfl)) [] directory relative

theorem stack_ne_nil {path : List Char} (named : IsName (lastSegment path)) : stack path ≠ [] := by
  have last := stackOf_append_splitOn named (isAbsolute path) []
  rw [List.nil_append, ← stack] at last
  rw [last]
  exact List.cons_ne_nil _ _

structure Below (directory path : List Char) : Prop where
  root : isAbsolute path = isAbsolute directory
  inside : ∃ below, below ≠ [] ∧ (∀ segment ∈ below, IsName segment) ∧
    stack path = below ++ stack directory

section

variable {path other : List Char} (relative : isAbsolute path = false)
  (stays : leaves 0 (splitOn '/' path) = false)

include relative stays

theorem names_stack : ∀ segment ∈ stack path, IsName segment := by
  rw [stack, relative]
  have start : ∀ segment ∈ ([] : List (List Char)), IsName segment := by simp
  exact names_of_stays start stays

/-- A walk that begins at `place []` ends at what the path comes to. -/
theorem foldl_walks {β : Type} {move : β → List Char → β} {place : List (List Char) → β}
    (walks : Walks move place) : (splitOn '/' path).foldl move (place []) = place (stack path) := by
  rw [stack, relative]
  have start : ∀ segment ∈ ([] : List (List Char)), IsName segment := by simp
  exact walks.foldl_of_stays start stays

theorem stack_join_of_stays (directory : List Char) :
    stack (Files.joinChars directory path) = stack path ++ stack directory := by
  rw [stack_join directory relative]
  exact foldl_walks relative stays (walks_push _ (stack directory))

theorem below_join (named : IsName (lastSegment path)) (directory : List Char) :
    Below directory (Files.joinChars directory path) := by
  exact ⟨isAbsolute_join directory relative, stack path, stack_ne_nil named,
    names_stack relative stays, stack_join_of_stays relative stays directory⟩

theorem normalizeChars_join_iff (otherRelative : isAbsolute other = false)
    (otherStays : leaves 0 (splitOn '/' other) = false) (directory : List Char) :
    normalizeChars (Files.joinChars directory path) =
        normalizeChars (Files.joinChars directory other) ↔
      normalizeChars path = normalizeChars other := by
  have root := (isAbsolute_join directory relative).trans
    (isAbsolute_join directory otherRelative).symm
  have left := stack_join_of_stays relative stays directory
  have right := stack_join_of_stays otherRelative otherStays directory
  rw [normalizeChars_eq_iff, normalizeChars_eq_iff, left, right]
  simp [root, relative, otherRelative]

end

/-- Joined to the directory that a point stands for, a path that leads out is not below it. -/
theorem stays_of_below {path : List Char} (relative : isAbsolute path = false)
    (below : Below ['.'] (Files.joinChars ['.'] path)) : leaves 0 (splitOn '/' path) = false := by
  rw [← Bool.not_eq_true]
  intro leads
  obtain ⟨inside, _, names, same⟩ := below.inside
  have joined := stack_join ['.'] relative
  have here : stack ['.'] = [] := rfl
  have member : up ∈ stack (Files.joinChars ['.'] path) := by
    rw [joined, here]
    exact up_mem_of_leaves (by simp) leads
  rw [same, here, List.append_nil] at member
  exact (names up member).ne_up rfl

/-- Relative paths to files stay below every directory that they are joined to, each at a place of
its own, exactly if none of them leads out and no two read the same when resolved. -/
theorem kept_apart_iff {paths : List String} (relative : ∀ p ∈ paths, isAbsolute p.toList = false)
    (named : ∀ p ∈ paths, NamesFile p) :
    ((∀ output, ∀ p ∈ paths, Below output.toList (Files.join output p).toList) ∧
        ∀ output, paths.Pairwise fun p q =>
          normalize (Files.join output p) ≠ normalize (Files.join output q)) ↔
      (∀ p ∈ paths, leaves 0 (splitOn '/' p.toList) = false) ∧
        paths.Pairwise fun p q => normalize p ≠ normalize q := by
  have text : ∀ output p, (Files.join output p).toList = Files.joinChars output.toList p.toList :=
    fun _ _ => String.toList_ofList
  have same : (∀ p ∈ paths, leaves 0 (splitOn '/' p.toList) = false) →
      ∀ output, ∀ p ∈ paths, ∀ q ∈ paths,
        (normalize (Files.join output p) ≠ normalize (Files.join output q) ↔
          normalize p ≠ normalize q) := by
    intro stays output p inside q inside'
    rw [ne_eq, ne_eq, not_iff_not, normalize, normalize, normalize, normalize, String.ofList_inj,
      String.ofList_inj, text, text]
    exact normalizeChars_join_iff (relative p inside) (stays p inside) (relative q inside')
      (stays q inside') output.toList
  constructor
  · rintro ⟨below, apart⟩
    have stays : ∀ p ∈ paths, leaves 0 (splitOn '/' p.toList) = false := by
      intro p inside
      have here := below "." p inside
      rw [text] at here
      exact stays_of_below (relative p inside) here
    refine ⟨stays, (apart ".").imp_of_mem ?_⟩
    intro p q inside inside'
    exact (same stays "." p inside q inside').mp
  · rintro ⟨stays, apart⟩
    refine ⟨fun output p inside => ?_, fun output => apart.imp_of_mem ?_⟩
    · rw [text]
      exact below_join (relative p inside) (stays p inside) (named p inside) output.toList
    · intro p q inside inside'
      exact (same stays output p inside q inside').mpr

end Path

namespace Files

/-- The place that a segment leads to, if all on the way are directories. -/
def enter (here : Place) (segment : String) : Place :=
  if segment = "" ∨ segment = "." then here
  else if segment = ".." then here.dropLast
  else here ++ [segment]

namespace Tree

variable {t t' : Tree} {path content : String}

/-- The place that a path leads to, if all on the way are directories. -/
def placeOf (t : Tree) (path : String) : Place :=
  (Text.segments '/' path).foldl enter
    (if Path.isAbsolute path.toList then [] else t.workingDirectory)

theorem eq_of_child {here place : Place} {name : String} (success : t.child here name = .ok place) :
    place = here ++ [name] := by
  unfold child at success
  split at success
  · cases success
  · split at success
    · cases success
    · exact (Except.ok.inj success).symm

theorem eq_enter_of_step {here next : Place} {segment : String}
    (success : t.step here segment = .ok next) : next = enter here segment := by
  unfold step at success
  unfold enter
  split at success
  · cases success
  · split at success
    · rename_i void
      rw [if_pos void]
      exact (Except.ok.inj success).symm
    · rename_i notVoid
      rw [if_neg notVoid]
      split at success
      · rename_i above
        rw [if_pos above]
        exact (Except.ok.inj success).symm
      · rename_i name
        rw [if_neg name]
        split at success
        · cases success
        · rename_i place found
          split at success
          · rw [← Except.ok.inj success]
            exact eq_of_child found
          · cases success

theorem eq_foldl_of_walk {here last : Place} {segments : List String}
    (success : t.walk here segments = .ok last) : last = segments.foldl enter here := by
  induction segments generalizing here with
  | nil => exact (Except.ok.inj success).symm
  | cons segment rest ih =>
      unfold walk at success
      split at success
      · cases success
      · rename_i next stepped
        rw [List.foldl_cons, ← eq_enter_of_step stepped]
        exact ih success

/-- An absolute path is told by an empty first segment. -/
theorem isAbsolute_iff_segments (nonempty : path ≠ "") :
    Path.isAbsolute path.toList ↔ ∃ rest, Text.segments '/' path = "" :: rest := by
  have cut : Text.segments '/' path = (Text.splitOn '/' path.toList).map String.ofList := rfl
  constructor
  · intro absolute
    obtain ⟨pieces, _, same⟩ := Path.isAbsolute_iff.mp absolute
    exact ⟨pieces.map String.ofList, by rw [cut, same]; rfl⟩
  · rintro ⟨rest, split⟩
    obtain ⟨first, pieces, same, void, _⟩ := List.map_eq_cons_iff.mp (cut.symm.trans split)
    have void : first = [] := String.ofList_eq_empty_iff.mp void
    subst void
    refine Path.isAbsolute_iff.mpr ⟨pieces, ?_, same⟩
    rintro rfl
    have text := Text.intercalate_splitOn '/' path.toList
    rw [same] at text
    exact nonempty (String.toList_eq_nil_iff.mp text.symm)

/-- A walk along a path starts at the root or in the working directory. -/
theorem placeOf_of_start {here : Place} {segments : List String}
    (success : t.start path = .ok (here, segments)) :
    t.placeOf path = segments.foldl enter here := by
  unfold start at success
  split at success
  · cases success
  · split at success
    · cases success
    · split at success
      · rename_i rest split
        split at success
        · cases success
        · rename_i nonempty
          obtain ⟨rfl, rfl⟩ := Prod.mk.inj (Except.ok.inj success)
          rw [placeOf, if_pos ((isAbsolute_iff_segments nonempty).mpr ⟨_, split⟩), split]
          rfl
      · rename_i other
        obtain ⟨rfl, rfl⟩ := Prod.mk.inj (Except.ok.inj success)
        have relative : ¬ Path.isAbsolute path.toList := by
          intro absolute
          by_cases empty : path = ""
          · subst empty
            cases absolute
          · obtain ⟨rest, split⟩ := (isAbsolute_iff_segments empty).mp absolute
            exact other rest split
        rw [placeOf, if_neg relative]

/-- A file that is written is put at the place that its path leads to. -/
theorem put_of_write (success : t.write path content = .ok t') :
    t.placeOf path ≠ [] ∧ t' = t.put (t.placeOf path) (.file content) := by
  unfold write at success
  split at success
  · cases success
  · rename_i start segments started
    split at success
    · cases success
    · rename_i here walked
      simp only at success
      split at success
      · cases success
      · rename_i named
        rw [not_or, not_or] at named
        split at success
        · cases success
        · rename_i place found
          split at success
          · cases success
          · have nonempty : segments ≠ [] := by
              rintro rfl
              exact named.1 rfl
            have last : segments = segments.dropLast ++ [segments.getLastD ""] := by
              rw [List.getLastD_eq_getLast?, List.getLast?_eq_some_getLast nonempty]
              exact (List.dropLast_concat_getLast nonempty).symm
            have entered : enter here (segments.getLastD "") = place := by
              rw [eq_of_child found, enter, if_neg (by tauto), if_neg named.2.2]
            have there : t.placeOf path = place := by
              rw [placeOf_of_start started, last, List.foldl_append, ← eq_foldl_of_walk walked,
                List.foldl_cons, List.foldl_nil, entered]
            refine ⟨?_, ?_⟩
            · rw [there, eq_of_child found]
              simp
            · rw [there]
              exact (Except.ok.inj success).symm

/-- Whatever place a way begins at, a tree takes it as it is meant below that. -/
theorem walks_enter (start : Place) :
    Path.Walks (fun here segment => enter here (String.ofList segment))
      (fun inner => start ++ inner.reverse.map String.ofList) where
  void inner segment void := by
    have void : String.ofList segment = "" ∨ String.ofList segment = "." := by
      rcases void with rfl | rfl
      · exact Or.inl rfl
      · exact Or.inr rfl
    rw [enter, if_pos void]
  up top inner name := by
    have above : enter (start ++ (top :: inner).reverse.map String.ofList) (String.ofList Path.up) =
        (start ++ (top :: inner).reverse.map String.ofList).dropLast := rfl
    rw [above, List.reverse_cons, List.map_append, ← List.append_assoc]
    exact List.dropLast_concat
  name inner segment name := by
    have notVoid : ¬ (String.ofList segment = "" ∨ String.ofList segment = ".") := by
      rintro (void | void)
      · exact name.notVoid (Or.inl (String.ofList_inj.mp void))
      · exact name.notVoid (Or.inr (String.ofList_inj.mp void))
    have notUp : String.ofList segment ≠ ".." := fun above =>
      name.ne_up (String.ofList_inj.mp above)
    rw [enter, if_neg notVoid, if_neg notUp]
    simp

/-- Below the place of a directory, a path that does not lead out leads to the place that it comes
to when resolved. -/
theorem placeOf_join (t : Tree) (directory : String)
    (relative : Path.isAbsolute path.toList = false)
    (stays : Path.leaves 0 (Text.splitOn '/' path.toList) = false) :
    t.placeOf (Files.join directory path) =
      t.placeOf directory ++ (Path.stack path.toList).reverse.map String.ofList := by
  have text : (Files.join directory path).toList = joinChars directory.toList path.toList :=
    String.toList_ofList
  unfold placeOf Text.segments
  rw [text, List.foldl_map, List.foldl_map,
    Path.isAbsolute_join directory.toList relative,
    Path.foldl_join (fun _ => rfl) _ directory.toList relative]
  generalize (Text.splitOn '/' directory.toList).foldl _ _ = here
  have walked := Path.foldl_walks relative stays (walks_enter here)
  rw [List.reverse_nil, List.map_nil, List.append_nil] at walked
  exact walked

end Tree

end Files

end ApiCodec

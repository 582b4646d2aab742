import ApiCodec.Files.Bundle
import ApiCodec.Proofs.Files.Placement
import ApiCodec.Proofs.Flatten.Identity
import ApiCodec.Proofs.Reference.Climbing

set_option autoImplicit false

namespace ApiCodec

open Text (splitOn)

namespace Path

theorem joinChars_of_absolute (directory : List Char) {path : List Char}
    (absolute : isAbsolute path) : Files.joinChars directory path = path := by
  have rooted : (path.head? == some '/') = true := absolute
  unfold Files.joinChars
  rw [rooted, Bool.true_or, if_pos rfl]

/-- A joined path has the segments of the directory, but for an empty one at their end, and then
those of the path. -/
theorem exists_splitOn_join (directory : List Char) {path : List Char}
    (relative : isAbsolute path = false) :
    ∃ before, splitOn '/' (Files.joinChars directory path) = before ++ splitOn '/' path ∧
      (splitOn '/' directory = before ∨ splitOn '/' directory = before ++ [[]]) := by
  have notRooted : (path.head? == some '/') = false := relative
  unfold Files.joinChars
  rw [notRooted, Bool.false_or]
  split
  · rename_i empty
    have none : directory = [] := by simpa using empty
    subst none
    exact ⟨[], rfl, Or.inr rfl⟩
  · split
    · rename_i slash
      obtain ⟨front, rfl⟩ := List.getLast?_eq_some_iff.mp (by simpa using slash)
      refine ⟨splitOn '/' front, ?_, Or.inr (Text.splitOn_append_sep _ _ _)⟩
      rw [List.append_assoc, List.singleton_append, Text.splitOn_append_sep]
    · exact ⟨splitOn '/' directory, Text.splitOn_append_sep _ _ _, Or.inl rfl⟩

theorem lastSegment_join (directory path : List Char) :
    lastSegment (Files.joinChars directory path) = lastSegment path := by
  by_cases absolute : isAbsolute path
  · rw [joinChars_of_absolute directory absolute]
  · obtain ⟨before, joined, _⟩ := exists_splitOn_join directory (eq_false_of_ne_true absolute)
    rw [lastSegment, lastSegment, joined, splitOn_eq_concat path, ← List.append_assoc,
      List.getLastD_concat, List.getLastD_concat]

/-- A character other than the slash stands in some segment. -/
theorem mem_iff_mem_splitOn {path : List Char} {c : Char} (plain : c ≠ '/') :
    c ∈ path ↔ ∃ segment ∈ splitOn '/' path, c ∈ segment := by
  constructor
  · intro member
    rw [← Text.intercalate_splitOn '/' path] at member
    exact (mem_of_mem_intercalate member).resolve_left plain
  · rintro ⟨segment, inside, member⟩
    exact mem_of_mem_splitOn inside member

theorem mem_join_iff {directory path : List Char} {c : Char} (plain : c ≠ '/')
    (relative : isAbsolute path = false) :
    c ∈ Files.joinChars directory path ↔ c ∈ directory ∨ c ∈ path := by
  have notRooted : (path.head? == some '/') = false := relative
  unfold Files.joinChars
  rw [notRooted, Bool.false_or]
  split
  · rename_i empty
    have none : directory = [] := by simpa using empty
    simp [none]
  · split <;> simp [plain]

theorem mem_climbed_iff {file : String} (resolved : IsResolved file)
    (relative : isAbsolute file.toList = false) (named : NamesFile file) {c : Char}
    (plain : c ≠ '/') (letter : c ∉ up) (n : Nat) :
    c ∈ (climbed n file).toList ↔ c ∈ file.toList := by
  have here : stack file.toList ≠ [] := stack_ne_nil named
  have above : stack (climbed n file).toList ≠ [] := stack_climbed_ne_nil relative here n
  have cut := (isResolved_climbed n file).splitOn_eq (isAbsolute_climbed relative n) above
  rw [mem_iff_mem_splitOn plain, mem_iff_mem_splitOn plain, cut, resolved.splitOn_eq relative here,
    stack_climbed relative]
  constructor
  · rintro ⟨segment, inside, member⟩
    rcases List.mem_append.mp (List.mem_reverse.mp inside) with old | new
    · exact ⟨segment, List.mem_reverse.mpr old, member⟩
    · rw [List.eq_of_mem_replicate new] at member
      exact absurd member letter
  · rintro ⟨segment, inside, member⟩
    have old := List.mem_append_left (List.replicate n up) (List.mem_reverse.mp inside)
    exact ⟨segment, List.mem_reverse.mpr old, member⟩

end Path

namespace Files

theorem trimEnd_concat (before : List (List Char)) {last : List Char} (named : Path.IsName last) :
    trimEnd (before ++ [last]) = before ++ [last] := by
  have solid : ¬ isVoid last := by
    intro void
    exact named.notVoid (by simpa [isVoid, Path.IsVoid] using void)
  rw [trimEnd, List.reverse_append, List.reverse_singleton, List.singleton_append,
    List.dropWhile_cons_of_neg solid, List.reverse_cons, List.reverse_reverse]

theorem fileName?_eq {path : List Char} (named : Path.IsName (Path.lastSegment path)) :
    fileName? path = some (Path.lastSegment path) := by
  have cut := Path.splitOn_eq_concat path
  obtain ⟨first, rest, outlined, last⟩ : ∃ first rest, outline path = (first, rest) ∧
      rest.getLastD first = Path.lastSegment path := by
    unfold outline
    rw [cut]
    cases (splitOn '/' path).dropLast with
    | nil => exact ⟨_, _, rfl, rfl⟩
    | cons first rest =>
        refine ⟨first, rest ++ [Path.lastSegment path], ?_, List.getLastD_concat ..⟩
        exact congrArg (Prod.mk first) (trimEnd_concat rest named)
  have name : ¬ ((Path.lastSegment path).isEmpty ∨ Path.lastSegment path = ['.'] ∨
      Path.lastSegment path = ['.', '.']) := by
    rintro (empty | point | above)
    · exact named.notVoid (Or.inl (List.isEmpty_iff.mp empty))
    · exact named.notVoid (Or.inr point)
    · exact named.ne_up above
  unfold fileName?
  rw [outlined]
  show (if _ then none else some (rest.getLastD first)) = _
  rw [last]
  exact if_neg (by simpa [or_assoc] using name)

/-- Whether a path names a JSON file is told by its last segment. -/
theorem isJson_congr {path other : String} (named : Path.NamesFile path)
    (same : Path.lastSegment other.toList = Path.lastSegment path.toList) :
    isJson other = isJson path := by
  have otherNamed : Path.IsName (Path.lastSegment other.toList) := same ▸ named
  unfold isJson extension?
  rw [fileName?_eq otherNamed, fileName?_eq named, same]

end Files

namespace Files.Tree

variable {t : Tree}

theorem walk_append (here : Place) (segments more : List String) :
    t.walk here (segments ++ more) = t.walk here segments >>= fun next => t.walk next more := by
  induction segments generalizing here with
  | nil => rfl
  | cons segment rest ih =>
      simp only [List.cons_append, walk]
      cases t.step here segment with
      | error fault => rfl
      | ok next => exact ih next

theorem walk_singleton (here : Place) (segment : String) :
    t.walk here [segment] = t.step here segment := by
  rw [walk]
  cases t.step here segment <;> rfl

/-- A way that goes on may begin with an empty segment. -/
theorem walk_void (here : Place) {segments : List String} (further : segments ≠ []) :
    t.walk here ("" :: segments) = t.walk here segments := by
  cases segments with
  | nil => exact absurd rfl further
  | cons segment rest =>
      by_cases directory : t.isDirectory here
      · have stays : t.step here "" = .ok here := by simp [step, directory]
        rw [walk, stays]
      · have refused : ∀ segment, t.step here segment = .error .notDirectory := by
          intro segment
          simp [step, directory]
        rw [walk, walk, refused, refused]

theorem foldl_enter_ups (here : Place) (n : Nat) :
    (List.replicate n "..").foldl enter here = here.take (here.length - n) := by
  induction n generalizing here with
  | zero => simp
  | succ n ih =>
      have above : enter here ".." = here.dropLast := rfl
      rw [List.replicate_succ, List.foldl_cons, above, ih, List.length_dropLast,
        List.dropLast_eq_take, List.take_take]
      congr 1
      omega

theorem walk_ups_root (n : Nat) (segments : List String) :
    t.walk [] (List.replicate n ".." ++ segments) = t.walk [] segments := by
  induction n with
  | zero => rfl
  | succ n ih =>
      have stays : t.step [] ".." = .ok [] := rfl
      rw [List.replicate_succ, List.cons_append, walk, stays]
      exact ih

/-- Once the root is reached, further ways up change nothing. -/
theorem walk_ups {here : Place} {n : Nat} (enough : here.length ≤ n) (more : Nat)
    (segments : List String) :
    t.walk here (List.replicate (n + more) ".." ++ segments) =
      t.walk here (List.replicate n ".." ++ segments) := by
  rw [← List.replicate_append_replicate, List.append_assoc, walk_append, walk_append]
  cases reached : t.walk here (List.replicate n "..") with
  | error fault => rfl
  | ok next =>
      have root : next = [] := by
        rw [eq_foldl_of_walk reached, foldl_enter_ups, Nat.sub_eq_zero_of_le enough, List.take_zero]
      rw [root]
      exact walk_ups_root more segments

/-- The place that a path leads to, however long the path is. -/
def seek (t : Tree) (path : String) : Except Fault Place :=
  t.walk (if Path.isAbsolute path.toList then [] else t.workingDirectory) (Text.segments '/' path)

/-- The text of the file that a path leads to, however long the path is. -/
def fetch (t : Tree) (path : String) : Except Fault String :=
  if path.toList.contains '\x00' then .error .nulInPath
  else if path = "" then .error .notFound
  else
    match t.seek path with
    | .error fault => .error fault
    | .ok place =>
        match t.entry? place with
        | some (.file content) => .ok content
        | some .directory => .error .isDirectory
        | none => .error .notFound

def Rooted (t : Tree) : Prop := ∀ place, (t.entry? place).isSome → t.isDirectory place.dropLast

theorem rooted_of_entries (each : ∀ entry ∈ t.entries, t.isDirectory entry.1.dropLast) :
    t.Rooted := by
  intro place there
  by_cases root : place.isEmpty
  · rw [List.isEmpty_iff.mp root]
    rfl
  · rw [ entry?, if_neg root] at there
    obtain ⟨entry, found⟩ := Option.isSome_iff_exists.mp there
    obtain ⟨before, after, same, _⟩ := List.lookup_eq_some_iff.mp found
    exact each (place, entry) (same ▸ List.mem_append_right _ List.mem_cons_self)

theorem locate_eq_seek {path : String} (plain : ¬ path.toList.contains '\x00')
    (short : path.utf8ByteSize ≤ longestPath) (nonempty : path ≠ "") :
    t.locate path = t.seek path := by
  by_cases absolute : Path.isAbsolute path.toList
  · obtain ⟨rest, cut⟩ := (isAbsolute_iff_segments nonempty).mp absolute
    have started : t.start path = .ok ([], rest) := by
      rw [start, if_neg plain, if_neg (Nat.not_lt.mpr short), cut]
      exact if_neg nonempty
    have root : t.step [] "" = .ok [] := rfl
    rw [locate, started, seek, if_pos absolute, cut, walk, root]
  · have started : t.start path = .ok (t.workingDirectory, Text.segments '/' path) := by
      rw [start, if_neg plain, if_neg (Nat.not_lt.mpr short)]
      split
      · rename_i rest cut
        exact absurd ((isAbsolute_iff_segments nonempty).mpr ⟨rest, cut⟩) absolute
      · rfl
    rw [locate, started, seek, if_neg absolute]

/-- Paths that are short enough are looked up alike. -/
theorem fetch_eq_read {path : String} (short : path.utf8ByteSize ≤ longestPath) :
    t.fetch path = t.read path := by
  unfold fetch read
  by_cases nul : path.toList.contains '\x00'
  · have refused : t.locate path = .error .nulInPath := by rw [locate, start, if_pos nul]
    rw [if_pos nul, refused]
  · rw [if_neg nul]
    by_cases empty : path = ""
    · subst empty
      rfl
    · have same : t.locate path = t.seek path := locate_eq_seek nul short empty
      rw [if_neg empty]
      generalize t.locate path = found at same ⊢
      subst same
      rfl

theorem placeOf_of_seek {path : String} {place : Place} (found : t.seek path = .ok place) :
    t.placeOf path = place :=
  (eq_foldl_of_walk found).symm

theorem seek_join (directory : String) {file : String}
    (relative : Path.isAbsolute file.toList = false) :
    t.seek (Files.join directory file) =
      t.seek directory >>= fun here => t.walk here (Text.segments '/' file) := by
  have further : Text.segments '/' file ≠ [] := by
    have pieces := Text.splitOn_ne_nil '/' file.toList
    simpa [Text.segments] using pieces
  obtain ⟨before, joined, cut⟩ := Path.exists_splitOn_join directory.toList relative
  have root : Path.isAbsolute (Files.join directory file).toList =
      Path.isAbsolute directory.toList := by
    rw [Files.join, String.toList_ofList, Path.isAbsolute_join _ relative]
  have segments : Text.segments '/' (Files.join directory file) =
      before.map String.ofList ++ Text.segments '/' file := by
    rw [Text.segments, Files.join, String.toList_ofList, joined, List.map_append]
    rfl
  unfold seek
  rw [root, segments, ← walk_append]
  generalize (if Path.isAbsolute directory.toList then ([] : Place) else t.workingDirectory) = here
  rcases cut with same | void
  · have around : Text.segments '/' directory = before.map String.ofList := by
      rw [Text.segments, same]
    rw [around]
  · have around : Text.segments '/' directory = before.map String.ofList ++ [""] := by
      rw [Text.segments, void, List.map_append]
      rfl
    rw [around, List.append_assoc, walk_append, walk_append]
    congr 1
    funext next
    exact (walk_void next further).symm

/-- The segments of a resolved path: its ways up, then its names. -/
theorem segments_of_stack {file : String} (resolved : Path.IsResolved file)
    (relative : Path.isAbsolute file.toList = false) {names : List (List Char)} {n : Nat}
    (stacked : Path.stack file.toList = names ++ List.replicate n Path.up)
    (nonempty : Path.stack file.toList ≠ []) :
    Text.segments '/' file = List.replicate n ".." ++ names.reverse.map String.ofList := by
  have above : String.ofList Path.up = ".." := rfl
  rw [Text.segments, resolved.splitOn_eq relative nonempty, stacked, List.reverse_append,
    List.reverse_replicate, List.map_append, List.map_replicate, above]

section

variable {directory file : String} (resolved : Path.IsResolved file)
  (relative : Path.isAbsolute file.toList = false) (named : Path.NamesFile file)

include resolved relative named

/-- From as far up as the root is, further ways up do not matter. -/
theorem seek_climbed (high : (t.placeOf directory).length ≤ Path.ups file) (n : Nat) :
    t.seek (Files.join directory (Path.climbed n file)) = t.seek (Files.join directory file) := by
  obtain ⟨names, stacked, _⟩ := Path.exists_names_stack relative
  have nonempty : Path.stack file.toList ≠ [] := Path.stack_ne_nil named
  have climbed := Path.stack_climbed_names relative stacked n
  have climbedNonempty := Path.stack_climbed_ne_nil relative nonempty n
  have above := Path.isAbsolute_climbed relative n
  rw [seek_join directory above, seek_join directory relative,
    segments_of_stack (Path.isResolved_climbed n file) above climbed climbedNonempty,
    segments_of_stack resolved relative stacked nonempty]
  cases reached : t.seek directory with
  | error fault => rfl
  | ok here =>
      rw [placeOf_of_seek reached] at high
      exact walk_ups high n _

end

theorem foldl_enter_names (here : Place) {names : List (List Char)}
    (named : ∀ name ∈ names, Path.IsName name) :
    (names.map String.ofList).foldl enter here = here ++ names.map String.ofList := by
  induction names generalizing here with
  | nil => simp
  | cons name rest ih =>
      obtain ⟨first, later⟩ := List.forall_mem_cons.mp named
      have entered : enter here (String.ofList name) = here ++ [String.ofList name] := by
        have moved := (walks_enter here).name [] name first
        simpa using moved
      rw [List.map_cons, List.foldl_cons, entered, ih _ later, List.append_assoc,
        List.singleton_append]

/-- The place of a resolved path, counted from a directory. -/
theorem placeOf_join_resolved (directory : String) {file : String}
    (resolved : Path.IsResolved file) (relative : Path.isAbsolute file.toList = false)
    (nonempty : Path.stack file.toList ≠ []) {names : List (List Char)} {n : Nat}
    (stacked : Path.stack file.toList = names ++ List.replicate n Path.up)
    (named : ∀ name ∈ names, Path.IsName name) :
    t.placeOf (Files.join directory file) =
      (t.placeOf directory).take ((t.placeOf directory).length - n) ++
        names.reverse.map String.ofList := by
  have text : (Files.join directory file).toList = joinChars directory.toList file.toList :=
    String.toList_ofList
  have reversed : ∀ name ∈ names.reverse, Path.IsName name := fun name member =>
    named name (List.mem_reverse.mp member)
  have further : t.placeOf (Files.join directory file) =
      (Text.segments '/' file).foldl enter (t.placeOf directory) := by
    unfold placeOf Text.segments
    rw [text, List.foldl_map, List.foldl_map, List.foldl_map,
      Path.isAbsolute_join directory.toList relative,
      Path.foldl_join (fun _ => rfl) _ directory.toList relative]
  rw [further, segments_of_stack resolved relative stacked nonempty, List.foldl_append,
    foldl_enter_ups, foldl_enter_names _ reversed]

/-- Of two relative paths to one place, equally far below the root, the one with more ways up is the
other with further ways up. -/
theorem eq_climbed_of_placeOf {directory file other : String} (resolved : Path.IsResolved file)
    (otherResolved : Path.IsResolved other) (relative : Path.isAbsolute file.toList = false)
    (otherRelative : Path.isAbsolute other.toList = false) (named : Path.NamesFile file)
    (otherNamed : Path.NamesFile other)
    (same : t.placeOf (Files.join directory other) = t.placeOf (Files.join directory file))
    (level : min (Path.ups other) (t.placeOf directory).length =
      min (Path.ups file) (t.placeOf directory).length)
    (le : Path.ups file ≤ Path.ups other) :
    other = Path.climbed (Path.ups other - Path.ups file) file := by
  obtain ⟨names, stacked, isNames⟩ := Path.exists_names_stack relative
  obtain ⟨names', stacked', isNames'⟩ := Path.exists_names_stack otherRelative
  rw [placeOf_join_resolved directory resolved relative (Path.stack_ne_nil named) stacked isNames,
    placeOf_join_resolved directory otherResolved otherRelative (Path.stack_ne_nil otherNamed)
      stacked' isNames'] at same
  have depth : (t.placeOf directory).length - Path.ups other =
      (t.placeOf directory).length - Path.ups file := by omega
  rw [depth] at same
  have written : names'.reverse.map String.ofList = names.reverse.map String.ofList :=
    List.append_cancel_left same
  have injective : Function.Injective String.ofList := fun _ _ => String.ofList_inj.mp
  have equal : names' = names := List.reverse_inj.mp (List.map_injective_iff.mpr injective written)
  apply Path.eq_climbed relative otherResolved otherRelative
  rw [stacked', stacked, equal, List.append_assoc, List.replicate_append_replicate,
    Nat.add_sub_cancel' le]

/-- A path and the same path with further ways up lead to one place only from as far up as the
root is. -/
theorem high_of_placeOf {directory file : String} (resolved : Path.IsResolved file)
    (relative : Path.isAbsolute file.toList = false) (named : Path.NamesFile file) {n : Nat}
    (positive : 0 < n) (same : t.placeOf (Files.join directory (Path.climbed n file)) =
      t.placeOf (Files.join directory file)) :
    (t.placeOf directory).length ≤ Path.ups file := by
  obtain ⟨names, stacked, isNames⟩ := Path.exists_names_stack relative
  have nonempty : Path.stack file.toList ≠ [] := Path.stack_ne_nil named
  have climbed := Path.stack_climbed_names relative stacked n
  have climbedNonempty := Path.stack_climbed_ne_nil relative nonempty n
  rw [placeOf_join_resolved directory resolved relative nonempty stacked isNames,
    placeOf_join_resolved directory (Path.isResolved_climbed n file)
      (Path.isAbsolute_climbed relative n) climbedNonempty climbed isNames] at same
  have lengths := congrArg List.length (List.append_cancel_right same)
  rw [List.length_take, List.length_take] at lengths
  omega

/-- Two absolute paths to one place are the same when resolved. -/
theorem eq_of_placeOf_absolute {file other : String} (resolved : Path.IsResolved file)
    (otherResolved : Path.IsResolved other) (absolute : Path.isAbsolute file.toList)
    (otherAbsolute : Path.isAbsolute other.toList) (same : t.placeOf other = t.placeOf file) :
    other = file := by
  have place : ∀ {path : String}, Path.IsResolved path → Path.isAbsolute path.toList →
      t.placeOf path = (Path.stack path.toList).reverse.map String.ofList := by
    intro path resolved absolute
    have text := resolved.toList_eq
    rw [absolute] at text
    have cut : splitOn '/' (Path.written true (Path.stack path.toList)) = _ :=
      Path.splitOn_written fun _ => Path.isWritable_of_mem_stack
    rw [← text, if_pos rfl] at cut
    unfold placeOf Text.segments
    rw [if_pos absolute, cut]
    by_cases empty : Path.stack path.toList = []
    · rw [if_pos empty, empty]
      rfl
    · have names : ∀ name ∈ (Path.stack path.toList).reverse, Path.IsName name := by
        intro name member
        rw [Path.stack, absolute] at member
        exact Path.isName_of_mem_stackOf (List.mem_reverse.mp member)
      have root : enter [] (String.ofList []) = [] := rfl
      rw [if_neg empty, List.singleton_append, List.map_cons, List.foldl_cons, root,
        foldl_enter_names [] names, List.nil_append]
  rw [place resolved absolute, place otherResolved otherAbsolute] at same
  have injective : Function.Injective String.ofList := fun _ _ => String.ofList_inj.mp
  have equal : Path.stack other.toList = Path.stack file.toList :=
    List.reverse_inj.mp (List.map_injective_iff.mpr injective same)
  apply String.toList_inj.mp
  rw [resolved.toList_eq, otherResolved.toList_eq, equal, absolute, otherAbsolute]

theorem fetch_eq_ok_iff {path text : String} :
    t.fetch path = .ok text ↔
      '\x00' ∉ path.toList ∧ path ≠ "" ∧
        ∃ place, t.seek path = .ok place ∧ t.entry? place = some (.file text) := by
  unfold fetch
  by_cases nul : '\x00' ∈ path.toList
  · simp [nul]
  · by_cases empty : path = ""
    · simp [empty]
    · cases t.seek path with
      | error fault => simp [nul, empty]
      | ok place =>
          cases found : t.entry? place with
          | none => simp [nul, empty, found]
          | some entry => cases entry <;> simp [nul, empty, found]

/-- A file that is read is one of the tree's. -/
theorem placeOf_mem_of_fetch {path text : String} (read : t.fetch path = .ok text) :
    t.placeOf path ∈ t.entries.map Prod.fst := by
  obtain ⟨_, _, place, found, entry⟩ := fetch_eq_ok_iff.mp read
  rw [placeOf_of_seek found]
  unfold entry? at entry
  by_cases root : place.isEmpty
  · rw [if_pos root] at entry
    cases entry
  · rw [if_neg root] at entry
    obtain ⟨before, after, same, _⟩ := List.lookup_eq_some_iff.mp entry
    rw [same]
    simp

/-- The path of a file that is read ends with a name. -/
theorem namesFile_of_fetch (rooted : t.Rooted) {path text : String}
    (read : t.fetch path = .ok text) : Path.NamesFile path := by
  obtain ⟨_, _, place, found, entry⟩ := fetch_eq_ok_iff.mp read
  have notDirectory : ¬ t.isDirectory place := by simp [isDirectory, entry]
  have last : Text.segments '/' path = (Path.front path.toList).map String.ofList ++
      [String.ofList (Path.lastSegment path.toList)] := by
    rw [Text.segments, Path.splitOn_eq_concat, List.map_append]
    rfl
  rw [seek, last, walk_append] at found
  cases reached : t.walk _ ((Path.front path.toList).map String.ofList) with
  | error fault =>
      rw [reached] at found
      cases found
  | ok here =>
      rw [reached] at found
      have stepped : t.step here (String.ofList (Path.lastSegment path.toList)) = .ok place :=
        (walk_singleton here _).symm.trans found
      have inside : t.isDirectory here := by
        by_contra outside
        rw [step, if_pos (by simpa using outside)] at stepped
        cases stepped
      have entered := eq_enter_of_step stepped
      rcases Path.segment_cases (Path.lastSegment path.toList) with void | above | name
      · have void : String.ofList (Path.lastSegment path.toList) = "" ∨
            String.ofList (Path.lastSegment path.toList) = "." := by
          rcases void with empty | point
          · exact Or.inl (by rw [empty])
          · exact Or.inr (by rw [point])
        rw [enter, if_pos void] at entered
        exact absurd (entered ▸ inside) notDirectory
      · rw [above] at entered
        have parent : t.isDirectory here.dropLast := by
          apply rooted
          have there : t.entry? here = some .directory := of_decide_eq_true inside
          rw [there]
          rfl
        have entered : place = here.dropLast := entered
        exact absurd (entered ▸ parent) notDirectory
      · exact name

/-- From as far up as the root is, a file is read alike by paths with further ways up. -/
theorem fetch_climbed {directory file : String} (resolved : Path.IsResolved file)
    (relative : Path.isAbsolute file.toList = false) (named : Path.NamesFile file)
    (high : (t.placeOf directory).length ≤ Path.ups file) (n : Nat) :
    t.fetch (Files.join directory (Path.climbed n file)) =
      t.fetch (Files.join directory file) := by
  have above := Path.isAbsolute_climbed relative n
  have nul : '\x00' ∈ (Files.join directory (Path.climbed n file)).toList ↔
      '\x00' ∈ (Files.join directory file).toList := by
    rw [Files.join, Files.join, String.toList_ofList, String.toList_ofList,
      Path.mem_join_iff (by decide) above, Path.mem_join_iff (by decide) relative,
      Path.mem_climbed_iff resolved relative named (by decide) (by decide)]
  have nonempty : ∀ path : String, Path.NamesFile path → path ≠ "" := by
    rintro path name rfl
    exact name.notVoid (Or.inl rfl)
  have here : Files.join directory file ≠ "" := by
    apply nonempty
    show Path.IsName _
    rw [Files.join, String.toList_ofList, Path.lastSegment_join]
    exact named
  have there : Files.join directory (Path.climbed n file) ≠ "" := by
    apply nonempty
    show Path.IsName _
    rw [Files.join, String.toList_ofList, Path.lastSegment_join,
      Path.lastSegment_climbed relative resolved named]
    exact named
  unfold fetch
  rw [if_neg here, if_neg there, seek_climbed resolved relative named high]
  simp only [List.contains_iff_mem, nul]

end Files.Tree

end ApiCodec

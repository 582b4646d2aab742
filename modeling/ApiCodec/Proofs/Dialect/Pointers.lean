import ApiCodec.Proofs.Dialect.Translation

set_option autoImplicit false

namespace ApiCodec

open Document

/-- A pointer and one that addresses the same from a document where collections are moved. -/
structure Pointer.Moved (p p' : Pointer) : Prop where
  file : p'.file = p.file
  kind : p'.kind = p.kind
  name : p'.name = p.name
  away : p.isExternal → p' = p

theorem Pointer.Moved.refl (p : Pointer) : p.Moved p := ⟨rfl, rfl, rfl, fun _ => rfl⟩

theorem Pointer.Moved.isExternal {p p' : Pointer} (moved : p.Moved p') :
    p'.isExternal = p.isExternal := by
  unfold Pointer.isExternal
  rw [moved.file]

/-- In the root document, what is addressed stays the same. -/
theorem Pointer.Moved.relativeTo {p p' : Pointer} (moved : p.Moved p') :
    (p.relativeTo none).Moved (p'.relativeTo none) := by
  cases external : p.isExternal with
  | true =>
      rw [moved.away external]
      exact .refl _
  | false =>
      have file : p.file = none := by simpa [Pointer.isExternal] using external
      have file' : p'.file = none := moved.file.trans file
      refine ⟨?_, ?_, moved.name, ?_⟩
      · simp [Pointer.relativeTo, Pointer.anchor, file, file']
      · simp [Pointer.relativeTo, Pointer.anchor, file, file', moved.kind]
      · intro away
        simp [Pointer.relativeTo, Pointer.anchor, Pointer.isExternal, file] at away

inductive Pointer.ParsesMoved :
    Except ReferenceError Pointer → Except ReferenceError Pointer → Prop
  | error (e e' : ReferenceError) : ParsesMoved (.error e) (.error e')
  | ok {p p' : Pointer} (moved : p.Moved p') : ParsesMoved (.ok p) (.ok p')

/-- The pointer with these decoded segments, or none if one of them is empty. -/
def Pointer.ofSegments (raw : String) (path : List Char) (names : List (List Char)) :
    Except ReferenceError Pointer :=
  if names.any List.isEmpty then .error (.invalidPointer raw)
  else
    .ok
      { file := none
        kind := kindOf false (names.map String.ofList)
        collection := "/".intercalate (names.map String.ofList).dropLast
        name := (names.map String.ofList).getLastD ""
        fragment := String.ofList ('/' :: path) }

theorem any_isEmpty_iff {names : List (List Char)} : names.any List.isEmpty ↔ [] ∈ names := by
  simp

theorem Pointer.parse_local (path : List Char) :
    Pointer.parse (String.ofList ('#' :: '/' :: path)) =
      Pointer.ofSegments (String.ofList ('#' :: '/' :: path)) path
        ((Text.splitOn '/' path).map Json.unescape) := by
  have cut : Pointer.split (String.ofList ('#' :: '/' :: path)) =
      ("", String.ofList ('/' :: path)) := by
    simp [Pointer.split, Text.cut?, Text.cutChars?]
  have given : (String.ofList ('/' :: path)).isEmpty = false := by
    simp [String.isEmpty_eq_false_iff]
  have segments : Pointer.segments? (String.ofList ('/' :: path)) =
      if [] ∈ (Text.splitOn '/' path).map Json.unescape then none
      else some (((Text.splitOn '/' path).map Json.unescape).map String.ofList) := by
    unfold Pointer.segments?
    simp only [String.toList_ofList, true_and, ite_not]
  have none : (if ("" : String).isEmpty then none else some "") = (none : Option String) := rfl
  unfold Pointer.parse Pointer.ofSegments
  rw [cut]
  simp only [given, segments, none]
  by_cases empty : [] ∈ (Text.splitOn '/' path).map Json.unescape
  · rw [if_pos empty, if_pos (any_isEmpty_iff.mpr empty)]
    rfl
  · rw [if_neg empty, if_neg (mt any_isEmpty_iff.mp empty)]
    rfl

/-- Segments under a collection of one segment or under two, where neither addresses anything but
single names of one kind. -/
theorem Pointer.ofSegments_moved {raw raw' : String} {path path' : List Char}
    (front front' : List (List Char)) {names : List (List Char)}
    (full : [] ∉ front) (full' : [] ∉ front') (some : names ≠ [])
    (kinds : Pointer.kindOf false ((front ++ names).map String.ofList) =
      Pointer.kindOf false ((front' ++ names).map String.ofList)) :
    Pointer.ParsesMoved (Pointer.ofSegments raw path (front ++ names))
      (Pointer.ofSegments raw' path' (front' ++ names)) := by
  have last : ∀ front : List (List Char), ((front ++ names).map String.ofList).getLastD "" =
      (names.map String.ofList).getLastD "" := by
    intro front
    rw [List.map_append, List.getLastD_eq_getLast?, List.getLastD_eq_getLast?,
      List.getLast?_append_of_ne_nil _ (by simpa using some)]
  unfold Pointer.ofSegments
  by_cases empty : [] ∈ names
  · rw [if_pos (any_isEmpty_iff.mpr (List.mem_append_right _ empty)),
      if_pos (any_isEmpty_iff.mpr (List.mem_append_right _ empty))]
    exact .error _ _
  · rw [if_neg (mt any_isEmpty_iff.mp (by simp [full, empty])),
      if_neg (mt any_isEmpty_iff.mp (by simp [full', empty]))]
    refine .ok ⟨rfl, kinds.symm, ?_, fun away => by cases away⟩
    simp only [last]

/-- Moving a collection leaves the kind of what stands in it. -/
theorem Pointer.kindOf_moved {tail : List String} (some : tail ≠ []) :
    kindOf false ("definitions" :: tail) = kindOf false ("components" :: "schemas" :: tail) ∧
      kindOf false ("parameters" :: tail) = kindOf false ("components" :: "parameters" :: tail) ∧
      kindOf false ("responses" :: tail) = kindOf false ("components" :: "responses" :: tail) := by
  rcases tail with _ | ⟨first, _ | ⟨second, rest⟩⟩
  · exact absurd rfl some
  · exact ⟨rfl, rfl, rfl⟩
  · refine ⟨?_, ?_, ?_⟩ <;> cases rest <;> simp [kindOf]

theorem Pointer.parse_moved (old new rest : List Char)
    (plain : '/' ∉ old ∧ '/' ∉ new) (full : old ≠ [] ∧ new ≠ [])
    (unescaped : Json.unescape old = old ∧ Json.unescape new = new)
    (kinds : ∀ tail ≠ [], kindOf false (String.ofList old :: tail) =
      kindOf false ("components" :: String.ofList new :: tail)) :
    ParsesMoved (parse (String.ofList ('#' :: '/' :: (old ++ '/' :: rest))))
      (parse (String.ofList ('#' :: '/' :: ("components".toList ++ '/' :: (new ++ '/' :: rest))))) := by
  have components : '/' ∉ "components".toList := by decide
  have escaped : Json.unescape "components".toList = "components".toList := by decide
  have some : (Text.splitOn '/' rest).map Json.unescape ≠ [] := by
    simpa using Text.splitOn_ne_nil '/' rest
  rw [parse_local, parse_local, Text.splitOn_append _ plain.1, Text.splitOn_append _ components,
    Text.splitOn_append _ plain.2]
  simp only [List.map_cons, unescaped.1, unescaped.2, escaped]
  refine ofSegments_moved [old] ["components".toList, new] ?_ ?_ some ?_
  · simpa using full.1.symm
  · simpa using full.2.symm
  · simpa using kinds _ (by simpa using some)

theorem Document.toComponents_cases (path : String) :
    toComponents path = path ∨
      ∃ moved ∈ collections, ∃ rest, path = String.ofList (moved.1.toList ++ rest) ∧
        toComponents path = String.ofList (moved.2.toList ++ rest) := by
  unfold toComponents
  split
  · rename_i old new found
    refine Or.inr ⟨(old, new), List.mem_of_find?_eq_some found, path.toList.drop old.length, ?_, ?_⟩
    · have front : old.toList <+: path.toList := by
        simpa using List.find?_some found
      obtain ⟨rest, split⟩ := front
      have after : path.toList.drop old.length = rest := by
        rw [← split, ← String.length_toList, List.drop_left]
      rw [after, split, String.ofList_toList]
    · rfl
  · exact Or.inl rfl

/-- A reference that is moved parses as before. -/
theorem Pointer.parse_toComponents (path : String) :
    ParsesMoved (parse path) (parse (toComponents path)) := by
  rcases toComponents_cases path with same | ⟨moved, member, rest, before, after⟩
  · rw [same]
    cases parse path with
    | error e => exact .error e e
    | ok p => exact .ok (.refl p)
  · rw [after, before]
    have member : moved = ("#/definitions/", "#/components/schemas/") ∨
        moved = ("#/parameters/", "#/components/parameters/") ∨
        moved = ("#/responses/", "#/components/responses/") := by
      simpa [collections] using member
    rcases member with rfl | rfl | rfl
    · exact parse_moved "definitions".toList "schemas".toList rest (by decide) (by decide)
        (by decide) fun _ some => (kindOf_moved some).1
    · exact parse_moved "parameters".toList "parameters".toList rest (by decide) (by decide)
        (by decide) fun _ some => (kindOf_moved some).2.1
    · exact parse_moved "responses".toList "responses".toList rest (by decide) (by decide)
        (by decide) fun _ some => (kindOf_moved some).2.2

end ApiCodec

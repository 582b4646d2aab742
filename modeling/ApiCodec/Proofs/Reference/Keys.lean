import ApiCodec.Proofs.Flatten.Identity

set_option autoImplicit false

namespace ApiCodec

/-- Replacing by a text that is not empty leaves nothing but of nothing. -/
theorem Text.replaceChars_eq_nil_iff {pattern replacement text : List Char}
    (some : replacement ≠ []) : Text.replaceChars pattern replacement text = [] ↔ text = [] := by
  cases text with
  | nil => simp [Text.replaceChars, Text.replaceFrom]
  | cons c rest =>
      unfold Text.replaceChars Text.replaceFrom
      split <;> simp [some]

theorem Json.unescape_eq_nil_iff {segment : List Char} :
    Json.unescape segment = [] ↔ segment = [] := by
  unfold Json.unescape
  rw [Text.replaceChars_eq_nil_iff (by simp), Text.replaceChars_eq_nil_iff (by simp)]

namespace Pointer

/-- A text is cut at its first hash sign into a file and a fragment; without one it is a file as a
whole. -/
inductive CutsInto : String → String → String → Prop
  | whole {raw : String} (plain : '#' ∉ raw.toList) : CutsInto raw raw ""
  | atHash {file : String} (fragment : String) (plain : '#' ∉ file.toList) :
      CutsInto (file ++ "#" ++ fragment) file fragment

/-- Which files and fragments make up a reference: a file as a whole, or a fragment in which each
segment is led by a slash and none is empty. -/
def IsReference (file fragment : String) : Prop :=
  fragment = "" ∧ file ≠ "" ∨ ∃ path, fragment = "/" ++ path ∧ "" ∉ Text.segments '/' path

theorem split_eq_of_cutsInto {raw file fragment : String} (cut : CutsInto raw file fragment) :
    split raw = (file, fragment) := by
  cases cut with
  | whole plain => simp [split, Text.cut?, Text.cutChars?_eq_none_iff.mpr plain]
  | atHash fragment plain =>
      have text : (file ++ "#" ++ fragment).toList = file.toList ++ '#' :: fragment.toList := by
        simp
      simp [split, Text.cut?, text, Text.cutChars?_append fragment.toList plain]

theorem exists_cutsInto (raw : String) : ∃ file fragment, CutsInto raw file fragment := by
  cases cut : Text.cutChars? '#' raw.toList with
  | none => exact ⟨raw, "", .whole (Text.cutChars?_eq_none_iff.mp cut)⟩
  | some pieces =>
      obtain ⟨before, after⟩ := pieces
      obtain ⟨text, plain⟩ := Text.eq_of_cutChars? cut
      have written : raw = String.ofList before ++ "#" ++ String.ofList after := by
        apply String.toList_inj.mp
        simp [text]
      refine ⟨String.ofList before, String.ofList after, ?_⟩
      rw [written]
      exact .atHash _ (by simpa using plain)

/-- What is cut off holds no hash sign. -/
theorem CutsInto.plain {raw file fragment : String} (cut : CutsInto raw file fragment) :
    '#' ∉ file.toList := by
  cases cut with
  | whole plain => exact plain
  | atHash fragment plain => exact plain

/-- File and fragment tell the text, but not whether an empty fragment has a hash sign before it. -/
theorem CutsInto.eq_or {raw file fragment : String} (cut : CutsInto raw file fragment) :
    file ++ "#" ++ fragment = raw ∨ fragment = "" ∧ file ++ "#" ++ fragment = raw ++ "#" := by
  cases cut with
  | whole plain => exact Or.inr ⟨rfl, String.append_empty⟩
  | atHash fragment plain => exact Or.inl rfl

def decoded (path : String) : List String :=
  (Text.segments '/' path).map fun segment => String.ofList (Json.unescape segment.toList)

theorem decoded_ne_nil (path : String) : decoded path ≠ [] := by
  simp [decoded, Text.segments, Text.splitOn_ne_nil]

/-- Decoding neither empties a segment nor fills an empty one. -/
theorem nil_mem_decoded_iff {path : String} :
    [] ∈ (Text.splitOn '/' path.toList).map (fun segment => Json.unescape segment) ↔
      "" ∈ Text.segments '/' path := by
  simp [Text.segments, Json.unescape_eq_nil_iff, String.ofList_eq_empty_iff]

theorem empty_mem_decoded_iff {path : String} :
    "" ∈ decoded path ↔ "" ∈ Text.segments '/' path := by
  have empty : ∀ segment : String,
      String.ofList (Json.unescape segment.toList) = "" ↔ segment = "" := by
    intro segment
    rw [String.ofList_eq_empty_iff, Json.unescape_eq_nil_iff, String.toList_eq_nil_iff]
  simp [decoded, empty]

theorem segments?_slash (path : String) :
    segments? ("/" ++ path) =
      if "" ∈ Text.segments '/' path then none else some (decoded path) := by
  have text : ("/" ++ path).toList = '/' :: path.toList := by simp
  have names : ((Text.splitOn '/' path.toList).map fun segment => Json.unescape segment).map
      String.ofList = decoded path := by
    simp [decoded, Text.segments]
  unfold segments?
  simp only [text, true_and, nil_mem_decoded_iff, names, ite_not]

theorem segments?_eq_some_iff {fragment : String} {segments : List String} :
    segments? fragment = some segments ↔
      ∃ path, fragment = "/" ++ path ∧ "" ∉ Text.segments '/' path ∧ segments = decoded path := by
  constructor
  · intro found
    obtain ⟨path, rfl⟩ : ∃ path, fragment = "/" ++ path := by
      unfold segments? at found
      split at found
      · rename_i c path text
        have slash : c = '/' := (Option.ite_none_right_eq_some.mp found).1.1
        refine ⟨String.ofList path, String.toList_inj.mp ?_⟩
        simp [text, slash]
      · cases found
    rw [segments?_slash] at found
    obtain ⟨full, same⟩ := Option.ite_none_left_eq_some.mp found
    exact ⟨path, rfl, full, (Option.some.inj same).symm⟩
  · rintro ⟨path, rfl, full, rfl⟩
    rw [segments?_slash, if_neg full]

def toFile (path : String) : Pointer :=
  { file := some path, kind := .other, collection := "", name := Path.stem path, fragment := "" }

def toPlace (file : Option String) (fragment : String) (segments : List String) : Pointer :=
  { file
    kind := kindOf file.isSome segments
    collection := "/".intercalate segments.dropLast
    name := segments.getLastD ""
    fragment }

/-- The file of a reference, unless it is left out. -/
def fileOf (path : String) : Option String := if path.isEmpty then none else some path

theorem getD_fileOf (path : String) : (fileOf path).getD "" = path := by
  unfold fileOf
  split
  · rename_i empty
    rw [String.isEmpty_iff.mp empty]
    rfl
  · rfl

theorem fileOf_getD_iff {file : Option String} : fileOf (file.getD "") = file ↔ file ≠ some "" := by
  cases file with
  | none => simp [fileOf]
  | some path => simp [fileOf, String.isEmpty_iff]

theorem parse_of_cutsInto {raw file fragment : String} (cut : CutsInto raw file fragment) :
    parse raw =
      if fragment = "" then
        if file = "" then .error (.invalidPointer raw) else .ok (toFile file)
      else
        match segments? fragment with
        | some segments => .ok (toPlace (fileOf file) fragment segments)
        | none => .error (.invalidPointer raw) := by
  unfold parse
  rw [split_eq_of_cutsInto cut]
  by_cases whole : fragment = ""
  · by_cases empty : file = ""
    · simp [whole, empty]
    · have given : file.isEmpty = false := String.isEmpty_eq_false_iff.mpr empty
      simp [whole, empty, given, toFile]
  · have given : fragment.isEmpty = false := String.isEmpty_eq_false_iff.mpr whole
    simp only [given, whole, if_false, Bool.false_eq_true]
    rfl

/-- What a reference is parsed as: the pointer to its file, or that to a place if its fragment has
segments. -/
theorem parse_eq_ok_iff {raw file fragment : String} {p : Pointer}
    (cut : CutsInto raw file fragment) :
    parse raw = .ok p ↔
      fragment = "" ∧ file ≠ "" ∧ p = toFile file ∨
        ∃ segments, segments? fragment = some segments ∧
          p = toPlace (fileOf file) fragment segments := by
  have parsed (q : Pointer) : (.ok q : Except ReferenceError Pointer) = .ok p ↔ p = q :=
    ⟨fun same => (Except.ok.inj same).symm, fun same => congrArg _ same.symm⟩
  rw [parse_of_cutsInto cut]
  by_cases whole : fragment = ""
  · have noSegments : segments? "" = none := rfl
    by_cases empty : file = ""
    · simp [whole, empty, noSegments]
    · simp [whole, empty, parsed, noSegments]
  · cases found : segments? fragment with
    | none => simp [whole]
    | some segments => simp [whole, parsed]

/-- A text is parsed exactly if it is a reference. -/
theorem exists_parse_iff {raw file fragment : String} (cut : CutsInto raw file fragment) :
    (∃ p, parse raw = .ok p) ↔ IsReference file fragment := by
  simp only [parse_eq_ok_iff cut, segments?_eq_some_iff]
  constructor
  · rintro ⟨p, ⟨whole, given, -⟩ | ⟨segments, ⟨path, led, full, -⟩, -⟩⟩
    · exact Or.inl ⟨whole, given⟩
    · exact Or.inr ⟨path, led, full⟩
  · rintro (⟨whole, given⟩ | ⟨path, led, full⟩)
    · exact ⟨_, Or.inl ⟨whole, given, rfl⟩⟩
    · exact ⟨_, Or.inr ⟨_, ⟨path, led, full, rfl⟩, rfl⟩⟩

/-- The key of a pointer to a place is parsed as that pointer, unless its file is the empty one,
which a key cannot tell from none. -/
theorem parse_key_toPlace_iff {file : Option String} {fragment : String} {segments : List String}
    (named : FileName file) (found : segments? fragment = some segments) :
    parse (toPlace file fragment segments).key = .ok (toPlace file fragment segments) ↔
      file ≠ some "" := by
  have cut : CutsInto (toPlace file fragment segments).key (file.getD "") fragment :=
    .atHash fragment named
  have ledBySlash : fragment ≠ "" := by
    rintro rfl
    cases found
  rw [parse_eq_ok_iff cut, ← fileOf_getD_iff]
  constructor
  · rintro (⟨empty, -⟩ | ⟨others, also, same⟩)
    · exact absurd empty ledBySlash
    · exact (congrArg Pointer.file same).symm
  · intro same
    exact Or.inr ⟨segments, found, by rw [same]⟩

theorem parse_key_of_parse {raw : String} {p : Pointer} (success : parse raw = .ok p) :
    parse p.key = .ok p := by
  obtain ⟨file, fragment, cut⟩ := exists_cutsInto raw
  rcases (parse_eq_ok_iff cut).mp success with ⟨-, given, rfl⟩ | ⟨segments, found, rfl⟩
  · have written : CutsInto (toFile file).key file "" := .atHash "" cut.plain
    exact (parse_eq_ok_iff written).mpr (Or.inl ⟨rfl, given, rfl⟩)
  · have named : FileName (fileOf file) := by
      unfold FileName
      rw [getD_fileOf]
      exact cut.plain
    refine (parse_key_toPlace_iff named found).mpr (fileOf_getD_iff.mp ?_)
    rw [getD_fileOf]

/-- The key of a pointer is the text that it was parsed from, up to a final hash sign. -/
theorem key_of_parse {raw : String} {p : Pointer} (success : parse raw = .ok p) :
    p.key = raw ∨ p.fragment = "" ∧ p.key = raw ++ "#" := by
  obtain ⟨file, fragment, cut⟩ := exists_cutsInto raw
  rcases (parse_eq_ok_iff cut).mp success with ⟨rfl, given, rfl⟩ | ⟨segments, found, rfl⟩
  · exact cut.eq_or
  · have written : (toPlace (fileOf file) fragment segments).key = file ++ "#" ++ fragment := by
      simp [key, toPlace, getD_fileOf]
    rw [written]
    exact cut.eq_or

theorem intercalate_cons_ne_empty {first : String} (given : first ≠ "") (rest : List String) :
    "/".intercalate (first :: rest) ≠ "" := by
  intro empty
  have chars := congrArg String.toList empty
  cases rest with
  | nil => simp_all
  | cons second rest => simp_all

theorem kindOf_single (external : Bool) (name : String) :
    kindOf external [name] = if external then .definition else .other := by
  simp [kindOf]

/-- Only the kind of a single segment depends on whether it stands in another file. -/
theorem kindOf_several (external external' : Bool) (first second : String) (rest : List String) :
    kindOf external (first :: second :: rest) = kindOf external' (first :: second :: rest) := by
  unfold kindOf
  split <;> simp_all

theorem isSome_anchor_of_isSome {file : Option String} (base : Option String) (given : file.isSome) :
    (anchor file base).isSome := by
  obtain ⟨path, rfl⟩ := Option.isSome_iff_exists.mp given
  cases base <;> rfl

/-- Moving a pointer to a place is moving its file: the rule by which a moved pointer becomes a
definition is that by which a parsed one is. -/
theorem relativeTo_toPlace (file base : Option String) {fragment : String} {segments : List String}
    (some : segments ≠ []) (full : "" ∉ segments) (given : fragment ≠ "") :
    (toPlace file fragment segments).relativeTo base =
      toPlace (anchor file base) fragment segments := by
  have kind : ((toPlace file fragment segments).relativeTo base).kind =
      kindOf (anchor file base).isSome segments := by
    rcases segments with _ | ⟨first, _ | ⟨second, rest⟩⟩
    · exact absurd rfl some
    · -- A single segment.
      have external : file.isSome → (anchor file base).isSome := isSome_anchor_of_isSome base
      cases known : file.isSome <;> cases moved : (anchor file base).isSome <;>
        simp_all [relativeTo, toPlace, kindOf_single]
    · have led : "/".intercalate (first :: second :: rest).dropLast ≠ "" := by
        rw [List.dropLast_cons_of_ne_nil (List.cons_ne_nil second rest)]
        exact intercalate_cons_ne_empty (fun empty => full (empty ▸ List.mem_cons_self)) _
      have several := kindOf_several file.isSome (anchor file base).isSome first second rest
      have stays : ¬ ((toPlace file fragment (first :: second :: rest)).kind = .other ∧
          (toPlace file fragment (first :: second :: rest)).collection = "" ∧
          (toPlace file fragment (first :: second :: rest)).fragment ≠ "" ∧
          (anchor file base).isSome) := fun single => led single.2.1
      exact (if_neg stays).trans several
  unfold relativeTo at kind ⊢
  unfold toPlace at kind ⊢
  rw [Pointer.mk.injEq]
  exact ⟨rfl, kind, rfl, rfl, rfl⟩

/-- A pointer that was moved is parsed from its key again, unless it was moved to the empty file. -/
theorem parse_key_relativeTo_iff {raw : String} {p : Pointer} (success : parse raw = .ok p)
    (given : p.fragment ≠ "") {base : Option String} (named : FileName base) :
    parse (p.relativeTo base).key = .ok (p.relativeTo base) ↔ (p.relativeTo base).file ≠ some "" := by
  obtain ⟨file, fragment, cut⟩ := exists_cutsInto raw
  rcases (parse_eq_ok_iff cut).mp success with ⟨-, -, rfl⟩ | ⟨segments, found, rfl⟩
  · exact absurd rfl given
  · obtain ⟨path, -, full, rfl⟩ := segments?_eq_some_iff.mp found
    have written : fragment ≠ "" := given
    have moved := relativeTo_toPlace (fileOf file) base (decoded_ne_nil path)
      (mt empty_mem_decoded_iff.mp full) written
    have own : FileName (fileOf file) := by
      unfold FileName
      rw [getD_fileOf]
      exact cut.plain
    rw [moved]
    exact parse_key_toPlace_iff (fileName_anchor own named) found

end Pointer

open Pointer in
/-- Every text is cut at its first hash sign, if it has one, into a file and a fragment, and it is
parsed exactly if either the fragment is empty and the file is not, or the fragment is made of
segments that are each led by a slash and not empty. The key of what it is parsed as is the text
itself, up to a final hash sign, and is parsed as the same pointer in every field. So is the key of
a pointer with a fragment that was moved from a file without hash sign, exactly if it was not moved
to the empty file. -/
theorem parse_key_inverse (raw : String) :
    (∃ file fragment, CutsInto raw file fragment) ∧
    (∀ file fragment, CutsInto raw file fragment →
      ((∃ p, parse raw = .ok p) ↔ IsReference file fragment)) ∧
    ∀ p, parse raw = .ok p →
      (p.key = raw ∨ p.fragment = "" ∧ p.key = raw ++ "#") ∧
      parse p.key = .ok p ∧
      ∀ base, p.fragment ≠ "" → FileName base →
        (parse (p.relativeTo base).key = .ok (p.relativeTo base) ↔
          (p.relativeTo base).file ≠ some "") := by
  refine ⟨exists_cutsInto raw, fun file fragment cut => exists_parse_iff cut, ?_⟩
  intro p success
  refine ⟨key_of_parse success, parse_key_of_parse success, ?_⟩
  intro base given named
  exact parse_key_relativeTo_iff success given named

/-- A pointer whose name has a slash and a hash sign. -/
def Sample.escaped : Pointer :=
  { file := some "../common.yaml", kind := .definition, collection := "", name := "a/b#c"
    fragment := "/a~1b#c" }

/-- A pointer to a single segment of the document itself. -/
def Sample.single : Pointer :=
  { file := none, kind := .other, collection := "", name := "Zip", fragment := "/Zip" }

open Pointer in
/-- A fragment with an escaped slash and a further hash sign is read again where it is moved to. A
single segment becomes a definition when it is moved, and is parsed as one. -/
theorem parse_key_inverse_moved :
    (parse "../common.yaml#/a~1b#c" = .ok Sample.escaped ∧
      parse "api/common.yaml#/a~1b#c" =
        .ok (Sample.escaped.relativeTo (some "api/v1/root.yaml"))) ∧
    parse "#/Zip" = .ok Sample.single ∧
      parse "defs.yaml#/Zip" = .ok (Sample.single.relativeTo (some "defs.yaml")) ∧
      (Sample.single.relativeTo (some "defs.yaml")).kind = .definition := by
  have parsed : parse "../common.yaml#/a~1b#c" = .ok Sample.escaped := rfl
  have parsed' : parse "#/Zip" = .ok Sample.single := rfl
  have key : (Sample.escaped.relativeTo (some "api/v1/root.yaml")).key =
      "api/common.yaml#/a~1b#c" := by decide
  have key' : (Sample.single.relativeTo (some "defs.yaml")).key = "defs.yaml#/Zip" := by
    decide
  have named : FileName (some "api/v1/root.yaml") ∧ FileName (some "defs.yaml") := by
    unfold FileName
    decide
  have moved := ((parse_key_inverse "../common.yaml#/a~1b#c").2.2 _ parsed).2.2
    (some "api/v1/root.yaml") (by decide) named.1
  have moved' := ((parse_key_inverse "#/Zip").2.2 _ parsed').2.2
    (some "defs.yaml") (by decide) named.2
  rw [key] at moved
  rw [key'] at moved'
  exact ⟨⟨parsed, moved.mpr (by decide)⟩, parsed', moved'.mpr (by decide),
    by decide⟩

end ApiCodec

import ApiCodec.Proofs.Reference.Resolving
import ApiCodec.Reference.Pointer
import Mathlib.Data.List.Basic

set_option autoImplicit false

namespace ApiCodec

namespace Path

theorem mem_of_mem_intercalate {sep c : Char} {pieces : List (List Char)}
    (member : c ∈ [sep].intercalate pieces) : c = sep ∨ ∃ piece ∈ pieces, c ∈ piece := by
  induction pieces with
  | nil => simp [List.intercalate] at member
  | cons first rest ih =>
    cases rest with
    | nil =>
      simp only [List.intercalate_singleton] at member
      exact Or.inr ⟨first, by simp, member⟩
    | cons second rest =>
      rw [List.intercalate_cons_cons, List.mem_append, List.mem_append, List.mem_singleton] at member
      rcases member with (member | rfl) | member
      · exact Or.inr ⟨first, by simp, member⟩
      · exact Or.inl rfl
      · rcases ih member with rfl | ⟨piece, hpiece, hc⟩
        · exact Or.inl rfl
        · exact Or.inr ⟨piece, List.mem_cons_of_mem _ hpiece, hc⟩

theorem mem_intercalate_of_mem {sep c : Char} {pieces : List (List Char)} {piece : List Char}
    (hpiece : piece ∈ pieces) (hc : c ∈ piece) : c ∈ [sep].intercalate pieces := by
  induction pieces with
  | nil => cases hpiece
  | cons first rest ih =>
    cases rest with
    | nil =>
      rw [List.mem_singleton] at hpiece
      simpa only [List.intercalate_singleton, ← hpiece] using hc
    | cons second rest =>
      rw [List.intercalate_cons_cons, List.mem_append, List.mem_append]
      rcases List.mem_cons.mp hpiece with rfl | hpiece
      · exact Or.inl (Or.inl hc)
      · exact Or.inr (ih hpiece)

theorem mem_of_mem_splitOn {sep c : Char} {text piece : List Char}
    (hpiece : piece ∈ Text.splitOn sep text) (hc : c ∈ piece) : c ∈ text := by
  rw [← Text.intercalate_splitOn sep text]
  exact mem_intercalate_of_mem hpiece hc

/-- Resolving a path brings in no characters but slashes. -/
theorem mem_normalizeChars {path : List Char} {c : Char} (member : c ∈ normalizeChars path) :
    c = '/' ∨ c ∈ path := by
  have joined : ∀ {pieces : List (List Char)}, pieces = (Text.splitOn '/' path).foldl
      (push (isAbsolute path)) [] → c ∈ ['/'].intercalate pieces.reverse → c = '/' ∨ c ∈ path := by
    intro pieces pushed member
    rcases mem_of_mem_intercalate member with rfl | ⟨piece, hpiece, hc⟩
    · exact Or.inl rfl
    · rw [List.mem_reverse, pushed] at hpiece
      exact Or.inr (mem_of_mem_splitOn (mem_stackOf hpiece).1 hc)
  unfold normalizeChars at member
  simp only at member
  split at member
  · rcases List.mem_cons.mp member with rfl | member
    · exact Or.inl rfl
    · exact joined rfl member
  · exact joined rfl member

theorem mem_directory? {path dir : List Char} {c : Char} (found : directory? path = some dir)
    (member : c ∈ dir) : c = '/' ∨ c ∈ path := by
  unfold directory? at found
  split at found
  · cases found
  · cases Option.some.inj found
    rcases mem_of_mem_intercalate member with rfl | ⟨piece, hpiece, hc⟩
    · exact Or.inl rfl
    · exact Or.inr (mem_of_mem_splitOn (List.dropLast_subset _ hpiece) hc)

theorem mem_joinChars {base target : List Char} {c : Char} (member : c ∈ joinChars base target) :
    c = '/' ∨ c ∈ base ∨ c ∈ target := by
  unfold joinChars at member
  split at member
  · rcases mem_normalizeChars member with rfl | member
    · exact Or.inl rfl
    · exact Or.inr (Or.inr member)
  · split at member
    · rename_i dir found
      rcases mem_normalizeChars member with rfl | member
      · exact Or.inl rfl
      · rcases List.mem_append.mp member with member | member
        · rcases mem_directory? found member with rfl | member
          · exact Or.inl rfl
          · exact Or.inr (Or.inl member)
        · rcases List.mem_cons.mp member with rfl | member
          · exact Or.inl rfl
          · exact Or.inr (Or.inr member)
    · rcases mem_normalizeChars member with rfl | member
      · exact Or.inl rfl
      · exact Or.inr (Or.inr member)

end Path

/-- A file name without hash sign. A document that is read from no file has none. -/
def FileName (file : Option String) : Prop := '#' ∉ (file.getD "").toList

theorem fileName_none : FileName none := by
  unfold FileName
  simp

namespace Pointer

/-- What parsing and moving keep true of a pointer: its file holds no hash sign, and its name is
the last segment of its fragment. -/
structure Anchored (p : Pointer) : Prop where
  file : FileName p.file
  name : p.fragment ≠ "" → ∃ segments, segments? p.fragment = some segments ∧
    p.name = segments.getLastD ""

theorem fileName_split (raw : String) :
    FileName (if (split raw).1.isEmpty then none else some (split raw).1) := by
  have plain : '#' ∉ (split raw).1.toList := by
    unfold split Text.cut?
    cases cut : Text.cutChars? '#' raw.toList with
    | none => simpa using Text.cutChars?_eq_none_iff.mp cut
    | some pieces =>
      obtain ⟨before, after⟩ := pieces
      simpa using (Text.eq_of_cutChars? cut).2
  unfold FileName
  split
  · simp
  · exact plain

theorem anchored_of_parse {raw : String} {p : Pointer} (success : parse raw = .ok p) :
    p.Anchored := by
  have plain := fileName_split raw
  unfold parse at success
  generalize split raw = parts at success plain
  obtain ⟨path, fragment⟩ := parts
  simp only at success plain
  split at success
  · rename_i whole
    split at success
    · rename_i file known
      cases Except.ok.inj success
      refine ⟨plain, ?_⟩
      intro nonempty
      exact absurd rfl nonempty
    · cases success
  · split at success
    · rename_i segments found
      cases Except.ok.inj success
      exact ⟨plain, fun _ => ⟨segments, found, rfl⟩⟩
    · cases success

theorem fileName_anchor {file base : Option String} (own : FileName file) (around : FileName base) :
    FileName (anchor file base) := by
  unfold FileName at *
  cases file with
  | none => exact around
  | some file =>
    cases base with
    | none =>
      intro member
      rcases Path.mem_normalizeChars (by simpa [anchor, Path.normalize] using member) with
        slash | member
      · exact absurd slash (by decide)
      · exact own member
    | some base =>
      intro member
      rcases Path.mem_joinChars (by simpa [anchor, Path.joinRelative] using member) with
        slash | member | member
      · exact absurd slash (by decide)
      · exact around member
      · exact own member

theorem Anchored.relativeTo {p : Pointer} (anchored : p.Anchored) {base : Option String}
    (around : FileName base) : (p.relativeTo base).Anchored :=
  ⟨fileName_anchor anchored.file around, anchored.name⟩

/-- Whatever stands in another file points into a file. -/
theorem isExternal_relativeTo_some (p : Pointer) (file : String) :
    (p.relativeTo (some file)).isExternal := by
  unfold relativeTo isExternal anchor
  cases p.file <;> rfl

theorem exists_file {p : Pointer} (external : p.isExternal) : ∃ file, p.file = some file :=
  Option.isSome_iff_exists.mp external

/-- The key of an external pointer gives back its file and its fragment. -/
theorem Anchored.eq_of_key {p q : Pointer} (hp : p.Anchored) (hq : q.Anchored)
    (pExternal : p.isExternal) (qExternal : q.isExternal) (same : p.key = q.key) :
    p.file = q.file ∧ p.fragment = q.fragment := by
  obtain ⟨pFile, hpFile⟩ := exists_file pExternal
  obtain ⟨qFile, hqFile⟩ := exists_file qExternal
  have pPlain : '#' ∉ pFile.toList := by simpa [FileName, hpFile] using hp.file
  have qPlain : '#' ∉ qFile.toList := by simpa [FileName, hqFile] using hq.file
  have chars : pFile.toList ++ '#' :: p.fragment.toList =
      qFile.toList ++ '#' :: q.fragment.toList := by
    simpa [key, hpFile, hqFile] using congrArg String.toList same
  have cut := Text.cutChars?_append p.fragment.toList pPlain
  rw [chars, Text.cutChars?_append q.fragment.toList qPlain] at cut
  obtain ⟨file, fragment⟩ := Prod.mk.inj (Option.some.inj cut)
  rw [hpFile, hqFile, String.toList_inj.mp file, String.toList_inj.mp fragment]
  exact ⟨rfl, rfl⟩

/-- A pointer into a file has the name that its key tells. -/
theorem Anchored.name_eq {p q : Pointer} (hp : p.Anchored) (hq : q.Anchored)
    (fragment : p.fragment = q.fragment) (nonempty : p.fragment ≠ "") : p.name = q.name := by
  obtain ⟨segments, hsegments, pName⟩ := hp.name nonempty
  obtain ⟨segments', hsegments', qName⟩ := hq.name (fragment ▸ nonempty)
  rw [fragment, hsegments'] at hsegments
  cases Option.some.inj hsegments
  rw [pName, qName]

end Pointer

end ApiCodec

import ApiCodec.Proofs.Emit.Sources
import ApiCodec.Proofs.Reference.Resolving

set_option autoImplicit false

namespace ApiCodec

namespace Path

section

variable {dir file : List Char} (dirPlain : '/' ∉ dir) (filePlain : '/' ∉ file)
  (dirNamed : IsName dir) (fileNamed : IsName file)

include dirPlain filePlain dirNamed fileNamed

/-- From a file in a directory, a point and a name lead to the file of that name beside it. -/
theorem joinChars_beside {base : List Char} (basePlain : '/' ∉ base) :
    joinChars (dir ++ '/' :: base) ('.' :: '/' :: file) = dir ++ '/' :: file := by
  have directory : directory? (dir ++ '/' :: base) = some dir := by
    unfold directory?
    rw [Text.splitOn_append _ dirPlain, Text.splitOn_plain basePlain]
    simp [List.intercalate]
  have relative : isAbsolute (dir ++ '/' :: '.' :: '/' :: file) = false := by
    cases dir with
    | nil => exact absurd (Or.inl rfl) dirNamed.notVoid
    | cons c rest =>
        have different : c ≠ '/' := fun same => dirPlain (same ▸ List.mem_cons_self)
        simp [isAbsolute, different]
  have split : Text.splitOn '/' (dir ++ '/' :: '.' :: '/' :: file) = [dir, ['.'], file] := by
    have inner := Text.splitOn_append file (show '/' ∉ ['.'] by decide)
    rw [Text.splitOn_plain filePlain] at inner
    rw [Text.splitOn_append _ dirPlain]
    exact congrArg (dir :: ·) inner
  have absolute : isAbsolute ('.' :: '/' :: file) = false := rfl
  have point : IsVoid ['.'] := Or.inr rfl
  simp only [joinChars, absolute, directory]
  simp [normalizeChars, split, push_name dirNamed, push_name fileNamed, push_void point, relative,
    List.intercalate]

/-- From a file at the top, a point, a directory and a name lead to the file of that name in it. -/
theorem joinChars_below {base : List Char} (basePlain : '/' ∉ base) :
    joinChars base ('.' :: '/' :: (dir ++ '/' :: file)) = dir ++ '/' :: file := by
  have directory : directory? base = none := by
    unfold directory?
    rw [Text.splitOn_plain basePlain]
    rfl
  have split : Text.splitOn '/' ('.' :: '/' :: (dir ++ '/' :: file)) = [['.'], dir, file] := by
    have inner := Text.splitOn_append (dir ++ '/' :: file) (show '/' ∉ ['.'] by decide)
    rw [Text.splitOn_append _ dirPlain, Text.splitOn_plain filePlain] at inner
    exact inner
  have absolute : isAbsolute ('.' :: '/' :: (dir ++ '/' :: file)) = false := rfl
  have point : IsVoid ['.'] := Or.inr rfl
  simp only [joinChars, absolute, directory]
  simp [normalizeChars, split, push_name dirNamed, push_name fileNamed, push_void point, absolute,
    List.intercalate]

end

end Path

namespace Emit

/-- The path of the file that an import leads to from another. -/
def Import.target (path : String) (i : Import) : String :=
  Path.joinRelative path (i.source ++ ".ts")

def definitionPath (name : String) : String := definitionsDir ++ "/" ++ name ++ ".ts"

theorem toList_definitionPath (name : String) :
    (definitionPath name).toList =
      "definitions".toList ++ '/' :: (name.toList ++ ".ts".toList) := by
  simp [definitionPath, definitionsDir, String.toList_append]

theorem definitionPath_injective {name other : String}
    (same : definitionPath name = definitionPath other) : name = other := by
  have same := congrArg String.toList same
  rw [toList_definitionPath, toList_definitionPath] at same
  have same := List.append_cancel_left same
  have same := List.append_cancel_right (List.cons.inj same).2
  exact String.toList_injective same

section

variable {name : String} (plain : '/' ∉ name.toList)

include plain

theorem notMem_fileName : '/' ∉ name.toList ++ ".ts".toList := by
  rw [List.mem_append, not_or]
  exact ⟨plain, by decide⟩

/-- From the file of a definition, a name leads to the file of that definition. -/
theorem target_from_definition {other : String} (otherPlain : '/' ∉ other.toList) :
    (Import.line name ("./" ++ name)).target (definitionPath other) = definitionPath name := by
  have source : ((Import.line name ("./" ++ name)).source ++ ".ts").toList =
      '.' :: '/' :: (name.toList ++ ".ts".toList) := by
    simp [Import.source, String.toList_append]
  apply String.toList_injective
  rw [Import.target, Path.joinRelative, String.toList_ofList, source, toList_definitionPath,
    toList_definitionPath]
  exact Path.joinChars_beside (by decide) (notMem_fileName plain) (by decide)
    (Path.isName_of_length (by simp)) (notMem_fileName otherPlain)

/-- From the file of request types, the way leads through the directory of definitions. -/
theorem target_from_requestTypes :
    (Import.line name ("./" ++ definitionsDir ++ "/" ++ name)).target requestTypesFile =
      definitionPath name := by
  have source : ((Import.line name ("./" ++ definitionsDir ++ "/" ++ name)).source ++
      ".ts").toList =
        '.' :: '/' :: ("definitions".toList ++ '/' :: (name.toList ++ ".ts".toList)) := by
    simp [Import.source, String.toList_append, definitionsDir]
  apply String.toList_injective
  rw [Import.target, Path.joinRelative, String.toList_ofList, source, toList_definitionPath]
  exact Path.joinChars_below (by decide) (notMem_fileName plain) (by decide)
    (Path.isName_of_length (by simp)) (by decide)

end

/-- From the client, the block of imports leads to the file of request types. -/
theorem target_from_client (names : List String) :
    (Import.block names "./requestTypes").target clientFile = requestTypesFile := by
  show Path.joinRelative clientFile ("./requestTypes" ++ ".ts") = requestTypesFile
  decide

end Emit

end ApiCodec

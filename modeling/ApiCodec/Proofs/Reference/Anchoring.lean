import ApiCodec.Proofs.Reference.Resolving
import ApiCodec.Reference.Pointer

set_option autoImplicit false

namespace ApiCodec

namespace Path

open Text (splitOn)

section

variable {absolute : Bool} {stack : List (List Char)} {name : List Char}

/-- A path that was written before is taken by its stack. -/
theorem joinChars_to_written (base : List Char) (writable : ∀ segment ∈ stack, IsWritable segment) :
    joinChars base (written absolute stack) =
      if absolute then written true (stackOf true stack.reverse)
      else
        written (isAbsolute base) (stackOf (isAbsolute base) (front base ++ stack.reverse)) := by
  rw [joinChars_eq, isAbsolute_written writable, stackOf_append, foldl_push_written writable,
    ← stackOf_append, stackOf, foldl_push_written writable, ← stackOf]

/-- So is a file that was written before, without its name. -/
theorem joinChars_from_written {target : List Char} (relative : isAbsolute target = false)
    (writable : ∀ segment ∈ name :: stack, IsWritable segment) :
    joinChars (written absolute (name :: stack)) target =
      written absolute (stackOf absolute (stack.reverse ++ splitOn '/' target)) := by
  have nonempty : name :: stack ≠ [] := List.cons_ne_nil name stack
  have directory : stackOf absolute (front (written absolute (name :: stack))) =
      stackOf absolute stack.reverse := by
    rw [front, splitOn_written writable, if_neg nonempty, List.reverse_cons, ← List.append_assoc,
      List.dropLast_concat, stackOf_append]
    cases absolute <;> rfl
  rw [joinChars_eq, relative, isAbsolute_written writable, stackOf_append, directory,
    ← stackOf_append]
  rfl

end

/-- A path named in a file that is named in another one reads as from where the two lead. -/
theorem joinChars_assoc {file : List Char} (name : IsName (lastSegment file))
    (base target : List Char) :
    joinChars base (joinChars file target) = joinChars (joinChars base file) target := by
  have pieces : ∀ path, ∀ piece ∈ splitOn '/' path, '/' ∉ piece := fun _ _ =>
    Text.not_mem_of_mem_splitOn
  have named : IsWritable (lastSegment file) :=
    ⟨fun empty => name.notVoid (Or.inl empty), plain_lastSegment file⟩
  cases rooted : isAbsolute target with
  | true =>
      have writable : ∀ segment ∈ stackOf true (splitOn '/' target), IsWritable segment :=
        fun _ => isWritable_of_mem_stackOf (pieces target)
      rw [joinChars_eq file, joinChars_eq _ target, rooted, if_pos rfl,
        joinChars_to_written base writable, if_pos rfl, stackOf_reverse_stackOf]
      rfl
  | false =>
      have inner : joinChars file target =
          written (isAbsolute file) (stackOf (isAbsolute file) (front file ++ splitOn '/' target)) := by
        rw [joinChars_eq, rooted]
        rfl
      have plain : ∀ piece ∈ front file ++ splitOn '/' target, '/' ∉ piece := by
        intro piece member
        rcases List.mem_append.mp member with member | member
        · exact plain_front member
        · exact pieces target piece member
      rw [inner, joinChars_to_written base fun _ => isWritable_of_mem_stackOf plain]
      cases absolute : isAbsolute file with
      | true =>
          have outer : joinChars base file =
              written true (lastSegment file :: stackOf true (front file)) := by
            rw [joinChars_eq, if_pos absolute]
            exact congrArg (written true) (stackOf_append_splitOn name true [])
          have writable : ∀ segment ∈ lastSegment file :: stackOf true (front file),
              IsWritable segment :=
            List.forall_mem_cons.mpr ⟨named, fun _ => isWritable_of_mem_stackOf fun _ => plain_front⟩
          rw [if_pos rfl, stackOf_reverse_stackOf, outer, joinChars_from_written rooted writable,
            stackOf_append, stackOf_append, stackOf_reverse_stackOf]
      | false =>
          have outer : joinChars base file = written (isAbsolute base)
              (lastSegment file :: stackOf (isAbsolute base) (front base ++ front file)) := by
            rw [joinChars_eq, absolute, stackOf_append_splitOn name]
            rfl
          have fronts : ∀ piece ∈ front base ++ front file, '/' ∉ piece := by
            intro piece member
            rcases List.mem_append.mp member with member | member <;> exact plain_front member
          have writable : ∀ segment ∈
              lastSegment file :: stackOf (isAbsolute base) (front base ++ front file),
              IsWritable segment :=
            List.forall_mem_cons.mpr ⟨named, fun _ => isWritable_of_mem_stackOf fronts⟩
          rw [outer, joinChars_from_written rooted writable, stackOf_append _ (front base),
            foldl_push_stackOf, List.foldl_append, ← stackOf_append, stackOf_append,
            stackOf_append _ (List.reverse _), stackOf_reverse_stackOf]
          rfl

/-- A file that is named in another one keeps its name. -/
theorem lastSegment_joinChars {file : List Char} (name : IsName (lastSegment file))
    (base : List Char) : lastSegment (joinChars base file) = lastSegment file := by
  have named : IsWritable (lastSegment file) :=
    ⟨fun empty => name.notVoid (Or.inl empty), plain_lastSegment file⟩
  have last : ∀ (absolute : Bool) (before : List (List Char)), (∀ piece ∈ before, '/' ∉ piece) →
      lastSegment (written absolute (stackOf absolute (before ++ splitOn '/' file))) =
        lastSegment file := by
    intro absolute before plain
    have writable : ∀ segment ∈ lastSegment file :: stackOf absolute (before ++ front file),
        IsWritable segment := by
      refine List.forall_mem_cons.mpr ⟨named, fun _ => isWritable_of_mem_stackOf ?_⟩
      intro piece member
      rcases List.mem_append.mp member with member | member
      · exact plain piece member
      · exact plain_front member
    have nonempty := List.cons_ne_nil (lastSegment file) (stackOf absolute (before ++ front file))
    rw [stackOf_append_splitOn name]
    conv_lhs => rw [lastSegment, splitOn_written writable, if_neg nonempty, List.reverse_cons,
      ← List.append_assoc, List.getLastD_concat]
  rw [joinChars_eq]
  split
  · exact last true [] (by simp)
  · exact last (isAbsolute base) (front base) fun _ => plain_front

theorem joinRelative_assoc {file : String} (named : NamesFile file) (base target : String) :
    joinRelative base (joinRelative file target) = joinRelative (joinRelative base file) target := by
  unfold joinRelative
  rw [String.toList_ofList, String.toList_ofList, joinChars_assoc named]

theorem namesFile_joinRelative {file : String} (named : NamesFile file) (base : String) :
    NamesFile (joinRelative base file) := by
  unfold NamesFile joinRelative
  rw [String.toList_ofList, lastSegment_joinChars named]
  exact named

end Path

namespace Pointer

theorem anchor_anchor {file : String} (named : Path.NamesFile file) (base : String)
    (target : Option String) :
    anchor (anchor target (some file)) (some base) =
      anchor target (some (Path.joinRelative base file)) := by
  cases target with
  | none => rfl
  | some target => exact congrArg some (Path.joinRelative_assoc named base target)

theorem isSome_anchor (target : Option String) (base : String) :
    (anchor target (some base)).isSome := by
  cases target <;> rfl

theorem relativeTo_relativeTo {file : String} (named : Path.NamesFile file) (base : String)
    (p : Pointer) :
    (p.relativeTo (some file)).relativeTo (some base) =
      p.relativeTo (some (Path.joinRelative base file)) := by
  have kind : ((p.relativeTo (some file)).relativeTo (some base)).kind =
      (p.relativeTo (some (Path.joinRelative base file))).kind := by
    by_cases single : p.kind = .other ∧ p.collection = "" ∧ p.fragment ≠ ""
    · simp [relativeTo, single, isSome_anchor]
    · have here : ∀ moved : Option String,
          ¬ (p.kind = .other ∧ p.collection = "" ∧ p.fragment ≠ "" ∧ moved.isSome) :=
        fun _ both => single ⟨both.1, both.2.1, both.2.2.1⟩
      simp only [relativeTo, if_neg (here _)]
  have file := anchor_anchor named base p.file
  unfold relativeTo at kind ⊢
  simp only [file] at kind ⊢
  rw [kind]

/-- Where a file leads that is named in a file, which is named in another one, and so on. -/
def fileThrough (file : String) (bases : List String) : String :=
  bases.foldl (fun file base => Path.joinRelative base file) file

def movedThrough (p : Pointer) (bases : List String) : Pointer :=
  bases.foldl (fun p base => p.relativeTo (some base)) p

theorem movedThrough_cons {file : String} (named : Path.NamesFile file) (p : Pointer)
    (bases : List String) :
    p.movedThrough (file :: bases) = p.relativeTo (some (fileThrough file bases)) := by
  induction bases generalizing file with
  | nil => rfl
  | cons base bases ih =>
      have joined := Path.namesFile_joinRelative named base
      rw [movedThrough, List.foldl_cons, List.foldl_cons, relativeTo_relativeTo named]
      exact ih joined

end Pointer

/-- Let the last segment of a file's path be a name, neither empty nor a point or two. A pointer
that is moved to the file, and from there on to the one in which the file is named, is moved in
every field to where both lead together; and names of files are joined in any order. So a pointer,
and with it the key of its target, is the same through whatever chain of files it was reached. -/
theorem moving_composes {file : String} (named : Path.NamesFile file) (base : String) :
    (∀ p : Pointer, (p.relativeTo (some file)).relativeTo (some base) =
      p.relativeTo (some (Path.joinRelative base file))) ∧
    (∀ target : String, Path.joinRelative base (Path.joinRelative file target) =
      Path.joinRelative (Path.joinRelative base file) target) ∧
    ∀ (p : Pointer) (bases : List String),
      p.movedThrough (file :: bases) = p.relativeTo (some (Pointer.fileThrough file bases)) :=
  ⟨Pointer.relativeTo_relativeTo named base, Path.joinRelative_assoc named base,
    Pointer.movedThrough_cons named⟩

/-- A pointer to a file above that in which it stands, and one to a definition beside it. -/
theorem moving_composes_shared :
    Path.NamesFile "lib/types.yaml" ∧
      (∃ p, Pointer.parse "../../shared.yaml#/Error" = .ok p ∧
        (p.movedThrough ["lib/types.yaml", "api/v1/root.yaml", "/srv/index.yaml"]).key =
          "/srv/api/shared.yaml#/Error") ∧
      ∃ p, Pointer.parse "#/Error" = .ok p ∧ p.kind = .other ∧
        ((p.relativeTo (some "lib/types.yaml")).relativeTo (some "api/root.yaml")).key =
          "api/lib/types.yaml#/Error" ∧
        ((p.relativeTo (some "lib/types.yaml")).relativeTo (some "api/root.yaml")).kind =
          .definition := by
  have named : Path.NamesFile "lib/types.yaml" := by decide
  have moved := moving_composes named "api/root.yaml"
  refine ⟨named, ⟨_, rfl, ?_⟩, ⟨_, rfl, rfl, ?_, ?_⟩⟩
  · rw [moved.2.2]
    decide +kernel
  · rw [moved.1]
    decide +kernel
  · rw [moved.1]
    decide +kernel

end ApiCodec

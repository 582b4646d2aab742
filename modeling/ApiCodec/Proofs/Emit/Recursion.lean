import ApiCodec.Emit.DefinitionModule
import ApiCodec.Proofs.Flatten.Names
import Mathlib.Logic.Relation

set_option autoImplicit false

namespace ApiCodec

open Relation (ReflTransGen TransGen)

/-- The definition under a name refers to another name. Under a name that is no definition nothing
refers to anything. -/
def Refers (definitions : Definitions) (name other : String) : Prop :=
  ∃ d, Assoc.get? name definitions = some d ∧ other ∈ d.names

/-- References lead from a definition to a name, one of them its own. -/
def Definition.LeadsTo (d : Definition) (definitions : Definitions) (goal : String) : Prop :=
  ∃ first ∈ d.names, ReflTransGen (Refers definitions) first goal

/-- References lead from a name back to it. -/
def Circular (definitions : Definitions) (name : String) : Prop :=
  TransGen (Refers definitions) name name

theorem Definition.mem_addNames {d : Definition} {names : List String} {name : String} :
    name ∈ d.addNames names ↔ name ∈ names ∨ name ∈ d.names := by
  rw [Definition.addNames_eq, mem_foldl_addName, Definition.mem_names]

section

variable {definitions : Definitions} {name other goal : String} {d : Definition}

theorem refers_iff (known : Assoc.get? name definitions = some d) :
    Refers definitions name other ↔ other ∈ d.names := by
  constructor
  · rintro ⟨found, same, member⟩
    cases known.symm.trans same
    exact member
  · exact fun member => ⟨d, known, member⟩

theorem not_refers (missing : Assoc.get? name definitions = none) :
    ¬ Refers definitions name other := by
  rintro ⟨d, known, _⟩
  cases missing.symm.trans known

/-- A path of references from a name begins with one of its definition. -/
theorem leadsTo_iff_transGen (known : Assoc.get? name definitions = some d) :
    d.LeadsTo definitions goal ↔ TransGen (Refers definitions) name goal := by
  rw [Relation.TransGen.head'_iff]
  simp only [refers_iff known]
  rfl

end

namespace Emit

variable {definitions : Definitions} {goal : String}

/-- What a search knows of the names that it has seen: none is the goal, and each refers only to names
that are seen or pending. -/
structure Settled (definitions : Definitions) (goal : String) (seen pending : List String) : Prop where
  apart : goal ∉ seen
  onward : ∀ name ∈ seen, ∀ other, Refers definitions name other → other ∈ seen ∨ other ∈ pending

theorem settled_start (pending : List String) : Settled definitions goal [] pending :=
  ⟨List.not_mem_nil, fun _ member => absurd member List.not_mem_nil⟩

theorem mem_iff_of_getLast? {pending : List String} {next : String}
    (last : pending.getLast? = some next) (name : String) :
    name ∈ pending ↔ name ∈ pending.dropLast ∨ name = next := by
  rw [← List.mem_singleton, ← List.mem_append, List.dropLast_append_getLast? next last]

namespace Settled

variable {seen pending rest : List String} {next : String}

/-- A path to the goal from a name that is seen passes one that is pending. -/
theorem exists_pending (settled : Settled definitions goal seen pending) {name : String}
    (member : name ∈ seen) (path : ReflTransGen (Refers definitions) name goal) :
    ∃ other ∈ pending, ReflTransGen (Refers definitions) other goal := by
  induction path using ReflTransGen.head_induction_on with
  | refl => exact absurd member settled.apart
  | head first later ih =>
      rcases settled.onward _ member _ first with known | waiting
      · exact ih known
      · exact ⟨_, waiting, later⟩

/-- A name that is seen already need not be pending. -/
theorem skip (settled : Settled definitions goal seen pending)
    (each : ∀ name, name ∈ pending ↔ name ∈ rest ∨ name = next) (known : next ∈ seen) :
    Settled definitions goal seen rest := by
  refine ⟨settled.apart, fun name member other refers => ?_⟩
  rcases settled.onward name member other refers with old | waiting
  · exact Or.inl old
  · rcases (each other).mp waiting with left | rfl
    · exact Or.inr left
    · exact Or.inl known

/-- A pending name is seen once all that it refers to is pending. -/
theorem visit (settled : Settled definitions goal seen pending)
    (each : ∀ name, name ∈ pending ↔ name ∈ rest ∨ name = next) (other : next ≠ goal)
    {later : List String}
    (added : ∀ name, name ∈ later ↔ name ∈ rest ∨ Refers definitions next name) :
    Settled definitions goal (next :: seen) later := by
  refine ⟨?_, fun name member target refers => ?_⟩
  · rw [List.mem_cons, not_or]
    exact ⟨other.symm, settled.apart⟩
  · rcases List.mem_cons.mp member with rfl | old
    · exact Or.inr ((added target).mpr (Or.inr refers))
    · rcases settled.onward name old target refers with known | waiting
      · exact Or.inl (List.mem_cons_of_mem _ known)
      · rcases (each target).mp waiting with left | rfl
        · exact Or.inr ((added target).mpr (Or.inl left))
        · exact Or.inl List.mem_cons_self

end Settled

/-- A path to the goal from a pending name other than it starts at another pending one, or goes on to
what the name refers to. -/
theorem exists_path_iff {pending rest later : List String} {next : String} (other : next ≠ goal)
    (each : ∀ name, name ∈ pending ↔ name ∈ rest ∨ name = next)
    (added : ∀ name, name ∈ later ↔ name ∈ rest ∨ Refers definitions next name) :
    (∃ name ∈ later, ReflTransGen (Refers definitions) name goal) ↔
      ∃ name ∈ pending, ReflTransGen (Refers definitions) name goal := by
  constructor
  · rintro ⟨name, member, path⟩
    rcases (added name).mp member with left | refers
    · exact ⟨name, (each name).mpr (Or.inl left), path⟩
    · exact ⟨next, (each next).mpr (Or.inr rfl), path.head refers⟩
  · rintro ⟨name, member, path⟩
    rcases (each name).mp member with left | rfl
    · exact ⟨name, (added name).mpr (Or.inl left), path⟩
    · rcases path.cases_head with same | ⟨target, refers, path⟩
      · exact absurd same other
      · exact ⟨target, (added target).mpr (Or.inr refers), path⟩

/-- The search finds the goal exactly if references lead to it from a pending name. -/
theorem reaches_iff {seen pending : List String} (settled : Settled definitions goal seen pending) :
    reaches definitions goal seen pending ↔
      ∃ name ∈ pending, ReflTransGen (Refers definitions) name goal := by
  fun_induction reaches definitions goal seen pending with
  | case1 seen pending last =>
      rw [List.getLast?_eq_none_iff] at last
      simp [last]
  | case2 seen pending last =>
      have there : goal ∈ pending := List.mem_of_getLast? last
      simp only [true_iff]
      exact ⟨goal, there, ReflTransGen.refl⟩
  | case3 seen pending next last other known ih =>
      have each := mem_iff_of_getLast? last
      have rest := settled.skip each known
      rw [ih rest]
      constructor
      · rintro ⟨name, left, path⟩
        exact ⟨name, (each name).mpr (Or.inl left), path⟩
      · rintro ⟨name, member, path⟩
        rcases (each name).mp member with left | rfl
        · exact ⟨name, left, path⟩
        · exact rest.exists_pending known path
  | case4 seen pending next last other fresh d known ih =>
      have each := mem_iff_of_getLast? last
      have added (name : String) :
          name ∈ d.addNames pending.dropLast ↔
            name ∈ pending.dropLast ∨ Refers definitions next name := by
        rw [Definition.mem_addNames, refers_iff known]
      rw [ih (settled.visit each other added), exists_path_iff other each added]
  | case5 seen pending next last other fresh missing ih =>
      have each := mem_iff_of_getLast? last
      have added (name : String) :
          name ∈ pending.dropLast ↔ name ∈ pending.dropLast ∨ Refers definitions next name := by
        simp only [not_refers missing, or_false]
      rw [ih (settled.visit each other added), exists_path_iff other each added]

theorem isRecursive_iff (definitions : Definitions) (name : String) (d : Definition) :
    isRecursive definitions name d ↔ d.LeadsTo definitions name :=
  reaches_iff (settled_start d.names)

theorem moduleKind_eq_recursive_iff (definitions : Definitions) (name : String) (d : Definition) :
    moduleKind definitions name d = .recursive ↔ isRecursive definitions name d := by
  unfold moduleKind
  split
  · rename_i recursive
    simpa using recursive
  · rename_i straight
    simp only [straight]
    split <;> simp

end Emit

open Emit

/-- Whatever refers to what, and with names that are no definitions: a definition counts as recursive
exactly if references lead from it to its name. So the definitions of a table that are written as
recursive ones are those on a cycle of references; one that only points into a cycle is not. -/
theorem recursion_is_exact (definitions : Definitions) (name : String) (d : Definition) :
    (isRecursive definitions name d ↔ d.LeadsTo definitions name) ∧
      (Assoc.get? name definitions = some d → ∀ o : Options,
        (DefinitionModule.of o definitions name d).kind = .recursive ↔ Circular definitions name) := by
  refine ⟨isRecursive_iff definitions name d, fun known o => ?_⟩
  have kind : (DefinitionModule.of o definitions name d).kind = moduleKind definitions name d := rfl
  rw [kind, moduleKind_eq_recursive_iff, isRecursive_iff, leadsTo_iff_transGen known, Circular]

namespace Sample

def holder (property target : String) : Definition :=
  { Definition.ofType .object with properties := [(property, .ref target)] }

/-- Two definitions that refer to each other, one that refers to them, and one to a name that is
nothing. -/
def grove : Definitions :=
  [("Tree", holder "forest" "Forest"), ("Forest", holder "tree" "Tree"),
   ("Leaf", holder "tree" "Tree"), ("Stump", holder "root" "Root")]

theorem circular_tree : Circular grove "Tree" := by
  have forest : Refers grove "Tree" "Forest" := ⟨holder "forest" "Forest", rfl, by decide⟩
  have tree : Refers grove "Forest" "Tree" := ⟨holder "tree" "Tree", rfl, by decide⟩
  exact (TransGen.single forest).tail tree

theorem not_circular_leaf : ¬ Circular grove "Leaf" := by
  have unused : ∀ entry ∈ grove, "Leaf" ∉ entry.2.names := by decide
  intro circular
  obtain ⟨_, _, d, known, member⟩ := TransGen.tail'_iff.mp circular
  exact unused _ (Assoc.mem_of_get? known) member

end Sample

/-- A definition on a cycle is written as a recursive one, and one that points into the cycle is not. -/
theorem recursion_is_exact_grove :
    Assoc.get? "Tree" Sample.grove = some (Sample.holder "forest" "Forest") ∧
      (DefinitionModule.of {} Sample.grove "Tree" (Sample.holder "forest" "Forest")).kind = .recursive ∧
      Assoc.get? "Leaf" Sample.grove = some (Sample.holder "tree" "Tree") ∧
      (DefinitionModule.of {} Sample.grove "Leaf" (Sample.holder "tree" "Tree")).kind ≠ .recursive := by
  have tree := (recursion_is_exact Sample.grove "Tree" (Sample.holder "forest" "Forest")).2 rfl {}
  have leaf := (recursion_is_exact Sample.grove "Leaf" (Sample.holder "tree" "Tree")).2 rfl {}
  exact ⟨rfl, tree.mpr Sample.circular_tree, rfl, mt leaf.mp Sample.not_circular_leaf⟩

end ApiCodec

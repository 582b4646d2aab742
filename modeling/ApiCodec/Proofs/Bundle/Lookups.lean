import ApiCodec.Proofs.Flatten.Sites
import ApiCodec.Proofs.Walk.Termination
import ApiCodec.Proofs.Bundle.Closed

set_option autoImplicit false

namespace ApiCodec

open Document Walk

namespace Sources

/-- A walk comes to a reference to another file. -/
def Seeks (s : Sources) (start : Moment) (p : Pointer) : Prop :=
  ∃ m path rest, s.Reaches start m ∧ m.failure = none ∧ m.current.ahead = path :: rest ∧
    Pointer.within m.current.file path = .ok p ∧ p.isExternal

end Sources

namespace Workspace

inductive Walks (w : Workspace) : Sources → Moment → Prop
  /-- Through a definition at the top. -/
  | definition {name : String} {node : SchemaNode}
      (declared : (name, node) ∈ w.catalog.definitions) : Walks w w.sources (.atNode none node)
  /-- Through the target of a definition at the top that is a bare reference. -/
  | target {name path : String} {p : Pointer}
      (declared : (name, SchemaNode.ref path) ∈ w.catalog.definitions)
      (points : Pointer.within none path = .ok p) (external : p.isExternal) :
      Walks w w.sources (w.sources.atTarget p)
  /-- Through a schema that an operation uses. -/
  | site {site : Site} (member : site ∈ w.sites) :
      Walks w w.sources (.atNode site.base site.node)
  /-- Through a promoted target. -/
  | promoted {parts : Traced Diagnostic (Definitions × List Operation)} {b : Backlog} {p : Pointer}
      {rest : List Pointer} (success : w.parts = .ok parts)
      (reached : (Backlog.start w.sources parts.promoted).Reaches b) (running : b.failure = none)
      (queued : b.queue = p :: rest) (absent : ¬ b.sources.isPublished p) :
      Walks w (b.sources.publish p) ((b.sources.publish p).atTarget p)

/-- The parameters that the operations of a document declare, as far as these can be read. -/
def parameterNodes (w : Workspace) : List ParameterNode :=
  w.catalog.paths.flatMap fun (_, item) =>
    item.parameters ++
      match item.operations with
      | .error _ => []
      | .ok declared => declared.flatMap fun entry => entry.2.parameters

/-- The pointers that following a parameter reference in the file `base` takes up. -/
inductive Chains (w : Workspace) : Option String → String → Pointer → Prop
  | here {base : Option String} {path : String} {p : Pointer}
      (points : Pointer.within base path = .ok p) (kind : p.kind = .parameter) :
      Chains w base path p
  | next {base : Option String} {path later : String} {p q : Pointer}
      {t : Traced Notice (Option ParameterNode)} (points : Pointer.within base path = .ok p)
      (kind : p.kind = .parameter) (target : w.parameterTarget p = .ok t)
      (given : t.value = some (.ref later)) (rest : Chains w p.file later q) :
      Chains w base path q

/-- The pointers to other files that a transformation looks up. -/
inductive LooksUp (w : Workspace) : Pointer → Prop
  | walk {s : Sources} {start : Moment} {p : Pointer} (begun : w.Walks s start)
      (sought : s.Seeks start p) : LooksUp w p
  | promoted {parts : Traced Diagnostic (Definitions × List Operation)} {b : Backlog} {p : Pointer}
      {rest : List Pointer} (success : w.parts = .ok parts)
      (reached : (Backlog.start w.sources parts.promoted).Reaches b) (running : b.failure = none)
      (queued : b.queue = p :: rest) (absent : ¬ b.sources.isPublished p) : LooksUp w p
  | parameter {path : String} {p : Pointer} (mentioned : .ref path ∈ w.parameterNodes)
      (chained : w.Chains none path p) (external : p.isExternal) : LooksUp w p

end Workspace

/-- A failure because a file is not loaded. -/
def TransformError.Missing (e : TransformError) : Prop :=
  ∃ file, e = .reference (.missingFragment file) ∨ ∃ id, e = .operation id (.missingFragment file)

theorem TransformError.not_missing_parse (cause : ParseError) : ¬ (parse cause).Missing := by
  rintro ⟨file, same | ⟨id, same⟩⟩
  · cases same
  · cases same

theorem TransformError.not_missing_reference {cause : ReferenceError}
    (other : ∀ file, cause ≠ .missingFragment file) : ¬ (reference cause).Missing := by
  rintro ⟨file, same | ⟨id, same⟩⟩
  · exact other file (TransformError.reference.inj same)
  · cases same

theorem Pointer.error_of_parse {raw : String} {cause : ReferenceError}
    (failed : parse raw = .error cause) : cause = .invalidPointer raw := by
  unfold parse at failed
  simp only at failed
  split at failed
  · split at failed
    · cases failed
    · exact (Except.error.inj failed).symm
  · split at failed
    · cases failed
    · exact (Except.error.inj failed).symm

theorem Pointer.error_of_within {base : Option String} {raw : String} {cause : ReferenceError}
    (failed : within base raw = .error cause) : cause = .invalidPointer raw := by
  unfold within at failed
  cases parsed : parse raw with
  | error e =>
      rw [parsed] at failed
      cases Except.error.inj failed
      exact error_of_parse parsed
  | ok p =>
      rw [parsed] at failed
      cases failed

/-- Why a lookup fails: its file is not loaded, or it is and does not hold the target. -/
theorem Fragments.error_of_lookup {fragments : Fragments} {p : Pointer} {cause : ReferenceError}
    (failed : fragments.lookup p = .error cause) :
    ¬ fragments.Has p ∨ cause = .targetNotFound p.key := by
  unfold lookup at failed
  split at failed
  · rename_i none
    refine Or.inl ?_
    rintro ⟨file, known, _⟩
    rw [none] at known
    cases known
  · rename_i file known
    split at failed
    · rename_i absent
      refine Or.inl ?_
      rintro ⟨other, known', member⟩
      cases Option.some.inj (known.symm.trans known')
      exact Assoc.get?_eq_none_iff.mp absent member
    · split at failed
      · exact Or.inr (Except.error.inj failed).symm
      · cases failed

namespace Sources

variable {s : Sources}

theorem error_of_load {α : Type} {read : Json → Shape.Result α} {p : Pointer} {e : TransformError}
    (failed : s.load read p = .error e) :
    (∃ cause, s.fragments.lookup p = .error cause ∧ e = .reference cause) ∨
      ∃ cause, e = .parse cause := by
  unfold load at failed
  split at failed
  · rename_i cause sought
    exact Or.inl ⟨cause, sought, (Except.error.inj failed).symm⟩
  · split at failed
    · exact Or.inr ⟨_, (Except.error.inj failed).symm⟩
    · cases failed

theorem not_has_of_load {α : Type} {read : Json → Shape.Result α} {p : Pointer} {e : TransformError}
    (failed : s.load read p = .error e) (missing : e.Missing) : ¬ s.fragments.Has p := by
  rcases error_of_load failed with ⟨cause, sought, rfl⟩ | ⟨cause, rfl⟩
  · rcases Fragments.error_of_lookup sought with absent | rfl
    · exact absent
    · exact absurd missing (TransformError.not_missing_reference (by simp))
  · exact absurd missing (TransformError.not_missing_parse cause)

/-- Why taking up a reference fails. -/
theorem failure_of_take {path : String} {m : Moment} {e : TransformError}
    (running : m.failure = none) (failed : (s.take path m).failure = some e) :
    (∃ cause, Pointer.within m.current.file path = .error cause ∧ e = .reference cause) ∨
      ∃ p, Pointer.within m.current.file path = .ok p ∧ p.isExternal ∧
        s.load SchemaNode.read p = .error e := by
  unfold take at failed
  split at failed
  · rename_i cause points
    exact Or.inl ⟨cause, points, (Option.some.inj failed).symm⟩
  · rename_i p points
    split at failed
    · rw [running] at failed
      cases failed
    · rename_i away
      rw [Bool.or_eq_true, not_or] at away
      split at failed
      · rw [running] at failed
        cases failed
      · refine Or.inr ⟨p, points, by simpa using away.1, ?_⟩
        unfold enter at failed
        split at failed
        · rename_i e' loaded
          cases Option.some.inj failed
          exact loaded
        · rw [running] at failed
          cases failed

/-- A walk that fails for want of a file came to a reference to a file that is not loaded. -/
theorem exists_seeks_of_reaches {start last : Moment} {e : TransformError}
    (reached : s.Reaches start last) (running : start.failure = none)
    (failed : last.failure = some e) (missing : e.Missing) :
    ∃ p, s.Seeks start p ∧ ¬ s.fragments.Has p := by
  induction reached with
  | refl =>
      rw [running] at failed
      cases failed
  | @tail m last reached stepped ih =>
      unfold step at stepped
      split at stepped
      · rename_i path rest active ahead
        cases Option.some.inj stepped
        rcases failure_of_take (m := m.goOn rest) active failed with
          ⟨cause, points, rfl⟩ | ⟨p, points, external, loaded⟩
        · have invalid := Pointer.error_of_within points
          subst invalid
          exact absurd missing (TransformError.not_missing_reference (by simp))
        · exact ⟨p, ⟨m, path, rest, reached, active, ahead, points, external⟩,
            not_has_of_load loaded missing⟩
      · rename_i active _ _
        cases Option.some.inj stepped
        exact absurd (active.symm.trans failed) (by simp)
      · cases Option.some.inj stepped
        exact ih failed
      · cases stepped
      · cases stepped

theorem exists_seeks_of_normalize {base : Option String} {node : SchemaNode} {e : TransformError}
    (failed : s.normalize base node = .error e) (missing : e.Missing) :
    ∃ p, s.Seeks (.atNode base node) p ∧ ¬ s.fragments.Has p := by
  obtain ⟨last, reached, _, _, outcome⟩ := ends_atNode s base node
  rw [failed] at outcome
  exact exists_seeks_of_reaches reached rfl outcome missing

theorem exists_seeks_of_materialize {p : Pointer} {e : TransformError}
    (failed : s.materialize p = .error e) (missing : e.Missing) :
    ¬ s.fragments.Has p ∨ ∃ q, s.Seeks (s.atTarget p) q ∧ ¬ s.fragments.Has q := by
  cases loaded : s.load SchemaNode.read p with
  | error cause =>
      have same : cause = e := by
        simp only [materialize, loaded] at failed
        exact Except.error.inj failed
      exact Or.inl (not_has_of_load loaded (same ▸ missing))
  | ok node =>
      obtain ⟨last, reached, _, _, outcome⟩ := ends_atTarget s p
      rw [failed] at outcome
      have running : (s.atTarget p).failure = none := by
        rw [atTarget, enter_of_load loaded]
        rfl
      exact Or.inr (exists_seeks_of_reaches reached running outcome missing)

end Sources

end ApiCodec

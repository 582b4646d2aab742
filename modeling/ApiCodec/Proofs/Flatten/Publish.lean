import ApiCodec.Build.Model
import ApiCodec.Proofs.Flatten.Meets
import Mathlib.Data.List.TakeWhile

set_option autoImplicit false

namespace ApiCodec

open Document

namespace Sources

def after (s : Sources) (published : List Publication) : Sources :=
  { s with aliases := s.aliases ++ published.map fun p => (p.target.key, p.name) }

@[simp] theorem after_nil (s : Sources) : s.after [] = s := by
  simp [after]

theorem after_append (s : Sources) (before later : List Publication) :
    (s.after before).after later = s.after (before ++ later) := by
  simp [after]

/-- Names of published targets depend on the document alone. -/
@[simp] theorem publishedName_after (s : Sources) (published : List Publication) (p : Pointer) :
    (s.after published).publishedName p = s.publishedName p := rfl

theorem publish_eq_after (s : Sources) (p : Pointer) (definition : Definition) :
    s.publish p = s.after [⟨p, s.publishedName p, definition⟩] := rfl

theorem isPublished_iff {s : Sources} {p : Pointer} :
    s.isPublished p ↔ p.key ∈ Assoc.keys s.aliases := by
  unfold isPublished
  exact Assoc.has_iff

theorem keys_after (s : Sources) (published : List Publication) :
    Assoc.keys (s.after published).aliases =
      Assoc.keys s.aliases ++ published.map fun p => p.target.key := by
  simp [after, Assoc.keys]

theorem isPublished_after {s : Sources} {p : Pointer} (published : List Publication)
    (known : s.isPublished p) : (s.after published).isPublished p := by
  rw [isPublished_iff, keys_after, List.mem_append]
  exact Or.inl (isPublished_iff.mp known)

/-- Publishing comes to an end, target by target. -/
theorem publishAll_induction
    {motive : Sources → List Pointer → Traced Diagnostic (List Publication) → Prop}
    (done : ∀ {s queue}, (∀ p ∈ queue, s.isPublished p) → motive s queue ⟨[], [], []⟩)
    (more : ∀ {s skipped p rest found t}, (∀ q ∈ skipped, s.isPublished q) → ¬ s.isPublished p →
      (s.publish p).materialize p = .ok found →
      motive (s.publish p) (rest ++ found.promoted) t →
      motive s (skipped ++ p :: rest)
        ⟨⟨p, s.publishedName p, found.value⟩ :: t.value,
          found.notes.map (Diagnostic.mk (s.publishedName p)) ++ t.notes, t.promoted⟩)
    (s : Sources) (queue : List Pointer) (t : Traced Diagnostic (List Publication))
    (success : s.publishAll queue = .ok t) : motive s queue t := by
  rw [publishAll] at success
  split at success
  · rename_i empty
    cases Transform.pure_eq_ok_iff.mp success
    exact done (List.dropWhile_eq_nil_iff.mp empty)
  · rename_i p rest head
    have queued : queue = queue.takeWhile s.isPublished ++ p :: rest := by
      rw [← head, List.takeWhile_append_dropWhile]
    have absent := not_isPublished_head head
    split at success
    · exact absurd success Transform.fail_ne_ok
    · rename_i found materialized
      simp only [Transform.bind_eq_ok_iff, Transform.tell_eq_ok_iff,
        Transform.pure_eq_ok_iff] at success
      obtain ⟨_, _, rfl, ⟨u, _, others, rfl, rfl⟩, rfl⟩ := success
      have smaller : (s.publish p).unpublished < s.unpublished :=
        unpublished_publish_lt (key_mem_of_materialize (s := s.publish p) materialized) absent
      have inner := publishAll_induction done more (s.publish p) (rest ++ found.promoted) u others
      rw [queued]
      simpa using more (fun q member => List.mem_takeWhile_imp member) absent
        materialized inner
termination_by s.unpublished

/-- A target is materialized by reading it and bringing it to its form inside itself. -/
theorem materialize_eq_ok_iff {s : Sources} {p : Pointer} {found : Traced Notice Definition} :
    s.materialize p = .ok found ↔
      ∃ node t, s.load SchemaNode.read p = .ok node ∧
        normalizeNode (s.follow [p.key]) p.file node = .ok t ∧
        found = ⟨definitionOf t.value, t.notes, t.promoted⟩ := by
  unfold materialize
  cases loaded : s.load SchemaNode.read p with
  | error e => simp
  | ok node => simp [Transform.map_eq_ok_iff]

/-- A publication is made from the sources with all earlier publications and its own. -/
def Makes (s : Sources) (published : List Publication) (stage : Sources) (p : Publication) : Prop :=
  ∃ before later, published = before ++ p :: later ∧ stage = s.after (before ++ [p])

theorem exists_makes (s : Sources) {published : List Publication} {p : Publication}
    (member : p ∈ published) : ∃ stage, s.Makes published stage p := by
  obtain ⟨before, later, rfl⟩ := List.append_of_mem member
  exact ⟨_, before, later, rfl, rfl⟩

theorem makes_head (s : Sources) (p : Publication) (published : List Publication) :
    s.Makes (p :: published) (s.after [p]) p := ⟨[], published, rfl, rfl⟩

theorem Makes.cons {s stage : Sources} {published : List Publication} {p q : Publication}
    (makes : (s.after [q]).Makes published stage p) : s.Makes (q :: published) stage p := by
  obtain ⟨before, later, rfl, rfl⟩ := makes
  exact ⟨q :: before, later, rfl, by rw [after_append]; rfl⟩

theorem makes_cons_iff {s stage : Sources} {published : List Publication} {p q : Publication} :
    s.Makes (q :: published) stage p ↔
      (p = q ∧ stage = s.after [q]) ∨ (s.after [q]).Makes published stage p := by
  constructor
  · rintro ⟨before, later, split, rfl⟩
    cases before with
    | nil =>
        obtain ⟨rfl, rfl⟩ := List.cons.inj split
        exact Or.inl ⟨rfl, rfl⟩
    | cons first before =>
        obtain ⟨rfl, rfl⟩ := List.cons.inj split
        exact Or.inr ⟨before, later, rfl, by rw [after_append]; rfl⟩
  · rintro (⟨rfl, rfl⟩ | makes)
    · exact makes_head s p published
    · exact makes.cons

theorem Makes.mem {s stage : Sources} {published : List Publication} {p : Publication}
    (makes : s.Makes published stage p) : p ∈ published := by
  obtain ⟨before, later, rfl, _⟩ := makes
  simp

structure Drained (s : Sources) (queue : List Pointer) (published : List Publication) : Prop where
  named : ∀ p ∈ published, p.name = s.publishedName p.target
  fresh : ∀ p ∈ published, p.target.key ∉ Assoc.keys s.aliases
  distinct : (published.map fun p => p.target.key).Nodup
  queued : ∀ q ∈ queue, (s.after published).isPublished q
  made : ∀ {stage p}, s.Makes published stage p → ∃ found, stage.materialize p.target = .ok found ∧
    p.definition = found.value ∧ ∀ q ∈ found.promoted, (s.after published).isPublished q
  origin : ∀ p ∈ published, p.target ∈ queue ∨ ∃ stage q found, s.Makes published stage q ∧
    stage.materialize q.target = .ok found ∧ p.target ∈ found.promoted
  anchored : (∀ q ∈ queue, q.Anchored ∧ q.isExternal) →
    ∀ p ∈ published, p.target.Anchored ∧ p.target.isExternal

theorem drained_nil {s : Sources} {queue : List Pointer}
    (published : ∀ p ∈ queue, s.isPublished p) : s.Drained queue [] := by
  refine ⟨by simp, by simp, by simp, by simpa using published, ?_, by simp, by simp⟩
  rintro stage p ⟨before, later, split, _⟩
  simp at split

/-- A queue comes to the publication of its first target that is not published yet, and to what the
rest comes to with the targets that were promoted on the way. -/
theorem Drained.cons {s : Sources} {skipped rest : List Pointer} {q : Publication}
    {found : Traced Notice Definition} {published : List Publication}
    (seen : ∀ r ∈ skipped, s.isPublished r) (absent : ¬ s.isPublished q.target)
    (named : q.name = s.publishedName q.target) (defined : q.definition = found.value)
    (materialized : (s.after [q]).materialize q.target = .ok found)
    (drained : (s.after [q]).Drained (rest ++ found.promoted) published) :
    s.Drained (skipped ++ q.target :: rest) (q :: published) := by
  have final : (s.after [q]).after published = s.after (q :: published) :=
    after_append s [q] published
  have own : (s.after [q]).isPublished q.target := by
    rw [isPublished_iff, keys_after, List.mem_append]
    simp
  have old : ∀ key, key ∈ Assoc.keys s.aliases → key ∈ Assoc.keys (s.after [q]).aliases := by
    intro key known
    rw [keys_after, List.mem_append]
    exact Or.inl known
  refine ⟨List.forall_mem_cons.mpr ⟨named, drained.named⟩,
    List.forall_mem_cons.mpr ⟨mt isPublished_iff.mpr absent, ?_⟩, ?_, ?_, ?_,
    List.forall_mem_cons.mpr ⟨Or.inl (by simp), ?_⟩, ?_⟩
  · exact fun r member known => drained.fresh r member (old _ known)
  · rw [List.map_cons, List.nodup_cons]
    refine ⟨fun member => ?_, drained.distinct⟩
    obtain ⟨r, hr, same⟩ := List.mem_map.mp member
    exact drained.fresh r hr (same ▸ isPublished_iff.mp own)
  · intro r member
    rw [← final]
    rcases List.mem_append.mp member with member | member
    · exact isPublished_after _ (isPublished_after _ (seen r member))
    · rcases List.mem_cons.mp member with rfl | member
      · exact isPublished_after _ own
      · exact drained.queued r (List.mem_append_left _ member)
  · intro stage r makes
    rcases makes_cons_iff.mp makes with ⟨rfl, rfl⟩ | makes
    · refine ⟨found, materialized, defined, fun u member => ?_⟩
      rw [← final]
      exact drained.queued u (List.mem_append_right _ member)
    · obtain ⟨found', materialized', definition, promoted⟩ := drained.made makes
      exact ⟨found', materialized', definition, fun u member => final ▸ promoted u member⟩
  · intro r member
    rcases drained.origin r member with queued | ⟨stage, u, found', makes, materialized', from_u⟩
    · rcases List.mem_append.mp queued with queued | promoted
      · exact Or.inl (by simp [queued])
      · exact Or.inr ⟨s.after [q], q, found, makes_head s q published, materialized, promoted⟩
    · exact Or.inr ⟨stage, u, found', makes.cons, materialized', from_u⟩
  · intro anchored
    have own' : q.target.Anchored ∧ q.target.isExternal := anchored q.target (by simp)
    refine List.forall_mem_cons.mpr ⟨own', drained.anchored fun u member => ?_⟩
    rcases List.mem_append.mp member with member | member
    · exact anchored u (by simp [member])
    · obtain ⟨node, v, _, normalized, rfl⟩ := materialize_eq_ok_iff.mp materialized
      exact anchored_of_promoted normalized own'.1.file member

theorem drained_of_publishAll {s : Sources} {queue : List Pointer}
    {t : Traced Diagnostic (List Publication)} (success : s.publishAll queue = .ok t) :
    s.Drained queue t.value := by
  refine publishAll_induction (motive := fun s queue t => s.Drained queue t.value) drained_nil ?_
    s queue t success
  intro s skipped p rest found t seen absent materialized drained
  rw [publish_eq_after s p found.value] at drained materialized
  exact Drained.cons (q := ⟨p, s.publishedName p, found.value⟩) seen absent rfl rfl materialized
    drained

/-- Publishing never reports an unknown definition. -/
theorem unknownDefinition_notMem_publishAll {s : Sources} {queue : List Pointer}
    {t : Traced Diagnostic (List Publication)} (success : s.publishAll queue = .ok t)
    (subject name : String) : ⟨subject, .unknownDefinition name⟩ ∉ t.notes := by
  refine publishAll_induction (motive := fun _ _ t =>
    (⟨subject, .unknownDefinition name⟩ : Diagnostic) ∉ t.notes) ?_ ?_ s queue t success
  · intro s queue _ member
    cases member
  · intro s skipped p rest found t _ _ materialized quiet member
    rcases List.mem_append.mp member with member | member
    · obtain ⟨notice, noted, same⟩ := List.mem_map.mp member
      obtain ⟨node, u, _, normalized, rfl⟩ := materialize_eq_ok_iff.mp materialized
      cases same
      exact unknownDefinition_notMem_notes normalized name noted
    · exact quiet member

end Sources

end ApiCodec

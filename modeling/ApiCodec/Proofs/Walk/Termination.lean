import ApiCodec.Proofs.Flatten.Publish
import ApiCodec.Proofs.Walk.Machine

set_option autoImplicit false

/-!
The transformation of a document ends. The queue of promoted targets is worked off one target after
the other. Putting a target in place may lengthen the queue, but then the target is found in a
fragment and is not taken up again, so that fewer pointers are left to be published.
-/

namespace ApiCodec

open Document Walk

/-- A moment of the work on the queue. -/
structure Backlog where
  sources : Sources
  queue : List Pointer
  /-- The keys of the targets that were taken up to be put in place, in order. -/
  taken : List String
  failure : Option TransformError

namespace Backlog

/-- The moment at which the work on a queue begins. -/
def start (s : Sources) (queue : List Pointer) : Backlog :=
  { sources := s, queue, taken := [], failure := none }

/-- Takes up a target that is not published. -/
def take (b : Backlog) (p : Pointer) (rest : List Pointer) : Backlog :=
  let sources := b.sources.publish p
  match sources.materialize p with
  | .error e => { sources, queue := rest, taken := b.taken ++ [p.key], failure := some e }
  | .ok found =>
      { sources, queue := rest ++ found.promoted, taken := b.taken ++ [p.key], failure := none }

/-- The next moment; there is none when the queue is empty or a target has failed. -/
def step (b : Backlog) : Option Backlog :=
  match b.failure, b.queue with
  | none, p :: rest =>
      some (if b.sources.isPublished p then { b with queue := rest } else b.take p rest)
  | _, _ => none

/-- The moments that the work on the queue comes to. -/
def Reaches : Backlog → Backlog → Prop :=
  Relation.ReflTransGen fun b next => b.step = some next

/-- The work comes to an end: the queue is empty and the targets that were taken up are those that
publishing yields, or one of them has failed. -/
def Ends (b : Backlog) (outcome : Transform Diagnostic (List Publication)) : Prop :=
  ∃ last, b.Reaches last ∧ last.step = none ∧
    match outcome with
    | .ok t => last.queue = [] ∧ last.failure = none ∧
        last.taken = b.taken ++ t.value.map fun p => p.target.key
    | .error e => last.failure = some e

/-- Targets that are published already are passed over. -/
theorem reaches_of_isPublished (b : Backlog) (running : b.failure = none)
    {skipped rest : List Pointer} (queued : b.queue = skipped ++ rest)
    (known : ∀ p ∈ skipped, b.sources.isPublished p) : b.Reaches { b with queue := rest } := by
  induction skipped generalizing b with
  | nil =>
      cases queued
      exact .refl
  | cons p skipped ih =>
      have stepped : b.step = some { b with queue := skipped ++ rest } := by
        have first : b.sources.isPublished p := known p List.mem_cons_self
        simp only [step, running, queued, List.cons_append, first, if_true]
      have later := ih { b with queue := skipped ++ rest } running rfl fun q member =>
        known q (List.mem_cons_of_mem p member)
      exact .head stepped later

theorem step_of_absent {b : Backlog} {p : Pointer} {rest : List Pointer}
    (running : b.failure = none) (queued : b.queue = p :: rest) (absent : ¬ b.sources.isPublished p) :
    b.step = some (b.take p rest) := by
  simp only [step, running, queued, if_neg absent]

/-- The work on a queue ends. The induction is on the pointers that are not published. -/
theorem ends (b : Backlog) (running : b.failure = none) :
    b.Ends (b.sources.publishAll b.queue) := by
  rw [Sources.publishAll]
  split
  · rename_i empty
    have seen := reaches_of_isPublished b running (List.append_nil _).symm
      (List.dropWhile_eq_nil_iff.mp empty)
    exact ⟨_, seen, by simp [step], rfl, running, by simp⟩
  · rename_i p rest head
    have queued : b.queue = b.queue.takeWhile b.sources.isPublished ++ p :: rest := by
      rw [← head, List.takeWhile_append_dropWhile]
    have absent := Sources.not_isPublished_head head
    have seen := reaches_of_isPublished b running queued fun q member =>
      List.mem_takeWhile_imp member
    have stepped := step_of_absent (b := { b with queue := p :: rest }) running rfl absent
    split
    · rename_i e failed
      simp only [take, failed] at stepped
      exact ⟨_, seen.tail stepped, rfl, rfl⟩
    · rename_i found materialized
      simp only [take, materialized] at stepped
      have smaller : (b.sources.publish p).unpublished < b.sources.unpublished :=
        Sources.unpublished_publish_lt
          (Sources.key_mem_of_materialize (s := b.sources.publish p) materialized) absent
      obtain ⟨last, reached, stopped, outcome⟩ := ends
        ⟨b.sources.publish p, rest ++ found.promoted, b.taken ++ [p.key], none⟩ rfl
      refine ⟨last, seen.trans (.head stepped reached), stopped, ?_⟩
      cases others : (b.sources.publish p).publishAll (rest ++ found.promoted) with
      | error e =>
          simp only [others] at outcome
          exact outcome
      | ok t =>
          simp only [others] at outcome
          obtain ⟨empty, active, taken⟩ := outcome
          refine ⟨empty, active, ?_⟩
          rw [taken, List.append_assoc]
          rfl
termination_by b.sources.unpublished

/-- What holds at every moment of the work on a queue: the keys that were taken up are pairwise
different, and they are the ones that have been published besides those published before. -/
structure Apart (s : Sources) (b : Backlog) : Prop where
  fragments : b.sources.fragments = s.fragments
  published : Assoc.keys b.sources.aliases = Assoc.keys s.aliases ++ b.taken
  distinct : b.taken.Nodup
  fresh : ∀ key ∈ b.taken, key ∉ Assoc.keys s.aliases

theorem apart_start (s : Sources) (queue : List Pointer) : Apart s (start s queue) where
  fragments := rfl
  published := by simp [start]
  distinct := List.nodup_nil
  fresh := by simp [start]

theorem sources_take (b : Backlog) (p : Pointer) (rest : List Pointer) :
    (b.take p rest).sources = b.sources.publish p := by
  simp only [take]
  split <;> rfl

theorem taken_take (b : Backlog) (p : Pointer) (rest : List Pointer) :
    (b.take p rest).taken = b.taken ++ [p.key] := by
  simp only [take]
  split <;> rfl

theorem Apart.take {s : Sources} {b : Backlog} (apart : Apart s b) {p : Pointer}
    (absent : ¬ b.sources.isPublished p) (rest : List Pointer) : Apart s (b.take p rest) := by
  rw [Sources.isPublished_iff, apart.published, List.mem_append, not_or] at absent
  obtain ⟨before, now⟩ := absent
  refine ⟨?_, ?_, ?_, ?_⟩
  · rw [sources_take]
    exact apart.fragments
  · rw [sources_take, taken_take, ← List.append_assoc, ← apart.published]
    simp [Sources.publish, Assoc.keys]
  · rw [taken_take, ← List.concat_eq_append]
    exact apart.distinct.concat now
  · intro key member
    rw [taken_take, List.mem_append, List.mem_singleton] at member
    rcases member with member | rfl
    · exact apart.fresh key member
    · exact before

theorem Apart.step {s : Sources} {b next : Backlog} (apart : Apart s b)
    (stepped : b.step = some next) : Apart s next := by
  unfold Backlog.step at stepped
  split at stepped
  · rename_i p rest _ _
    cases Option.some.inj stepped
    split
    · exact ⟨apart.fragments, apart.published, apart.distinct, apart.fresh⟩
    · rename_i absent
      exact apart.take absent rest
  · cases stepped

theorem Apart.reaches {s : Sources} {b last : Backlog} (apart : Apart s b)
    (reached : b.Reaches last) : Apart s last := by
  induction reached with
  | refl => exact apart
  | tail _ stepped ih => exact ih.step stepped

end Backlog

/-- What a walk may begin with: a node of some file, or the target of a pointer. With it stands what
the walk comes to. -/
inductive Sources.Begins (s : Sources) : Moment → Trail → Prop where
  | node (base : Option String) (node : SchemaNode) :
      s.Begins (.atNode base node) (s.normalize base node).trail
  | target (p : Pointer) : s.Begins (s.atTarget p) (s.materialize p).trail

/-- Every walk into some sources ends, is never deeper than there are pointers to nodes, and leaves
the stack behind as it was. -/
structure Sources.Terminates (s : Sources) : Prop where
  ends : ∀ m trail, s.Begins m trail → s.Ends m trail
  nested : ∀ start trail m, s.Begins start trail → s.Reaches start m →
    s.Nested m ∧ m.stack.length ≤ s.fragments.addressable.ncard
  restored : ∀ m base node left, m.failure = none → m.current = ⟨base, node.paths ++ left⟩ →
    s.ComesBack m left (normalizeNode (s.follow m.stack) base node).trail

theorem Sources.terminates (s : Sources) : s.Terminates where
  ends m trail begins := by
    cases begins with
    | node base node => exact ends_atNode s base node
    | target p => exact ends_atTarget s p
  nested start trail m begins reached := by
    have outside : s.Nested start := by
      cases begins with
      | node base node => exact nested_atNode s base node
      | target p => exact nested_atTarget s p
    have nested := outside.reaches reached
    exact ⟨nested, nested.length_le⟩
  restored m base node left running ahead := by
    have walked := comesBack_paths s m node.paths left running (by rw [ahead])
    rw [ahead] at walked
    rwa [trail_normalizeNode]

/-- Every task of a transformation ends, and so does the work on the queue of what the parts of the
document promote. No key is taken up twice, and none that was published at the outset. -/
structure Workspace.Terminates (w : Workspace) : Prop where
  tasks : w.sources.Terminates
  queue : ∀ parts, w.parts = .ok parts → ∃ last,
    (Backlog.start w.sources parts.promoted).Reaches last ∧ last.step = none ∧
      match w.assemble with
      | .ok a => last.queue = [] ∧ last.failure = none ∧
          last.taken = a.published.map fun p => p.target.key
      | .error e => last.failure = some e
  moments : ∀ parts b, w.parts = .ok parts → (Backlog.start w.sources parts.promoted).Reaches b →
    Backlog.Apart w.sources b ∧ b.sources.Terminates

/-- The transformation of every document ends, whatever files are loaded with it. -/
theorem transformation_terminates (document : Document) (fragments : Fragments) :
    (Workspace.ofDocument document fragments).Terminates where
  tasks := Sources.terminates _
  queue parts success := by
    obtain ⟨last, reached, stopped, outcome⟩ := Backlog.ends
      (Backlog.start (Workspace.ofDocument document fragments).sources parts.promoted) rfl
    refine ⟨last, reached, stopped, ?_⟩
    unfold Workspace.assemble
    simp only [success]
    simp only [Backlog.start] at outcome
    split at outcome
    · rename_i t published
      simp only [published]
      simpa using outcome
    · rename_i e failed
      simp only [failed]
      exact outcome
  moments parts b success reached :=
    ⟨(Backlog.apart_start _ _).reaches reached, Sources.terminates _⟩

end ApiCodec

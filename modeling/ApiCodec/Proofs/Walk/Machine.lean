import ApiCodec.Proofs.Flatten.Follow
import ApiCodec.Proofs.Walk.Paths
import Mathlib.Data.Set.Card
import Mathlib.Logic.Relation

set_option autoImplicit false

/-!
Bringing a node to its form, one reference after the other. A moment has the keys of the targets
that are being put in place on a stack, and with them the nodes that are still to be gone on with. A
walk takes up the next reference, goes into its target or returns from a node that is done or has
failed.

`Sources.comesBack_paths` follows a walk through the references of a node to the moment at which it
returns, where the stack is as it was; `Sources.Nested` is what holds of the stack at every moment.
-/

namespace ApiCodec

open Document

namespace Walk

/-- A node that is being walked through: its file and the references ahead. -/
structure Frame where
  file : Option String
  ahead : List String

structure Moment where
  /-- The keys of the targets that are being put in place, the innermost first. -/
  stack : List String
  current : Frame
  /-- The nodes around the current one, the innermost first. -/
  callers : List Frame
  promoted : List Pointer
  failure : Option TransformError

/-- The moment at which a walk through a node begins. -/
def Moment.atNode (base : Option String) (node : SchemaNode) : Moment :=
  { stack := [], current := ⟨base, node.paths⟩, callers := [], promoted := [], failure := none }

/-- The moment before the target of a pointer is put in place on its own. -/
def Moment.outside : Moment :=
  { stack := [], current := ⟨none, []⟩, callers := [], promoted := [], failure := none }

def Moment.goOn (m : Moment) (ahead : List String) : Moment :=
  { m with current := ⟨m.current.file, ahead⟩ }

/-- The moment with other references ahead and more targets promoted. -/
def Moment.gone (m : Moment) (ahead : List String) (promoted : List Pointer) : Moment :=
  { m with current := ⟨m.current.file, ahead⟩, promoted := m.promoted ++ promoted }

/-- The moment after a return to the caller of the current node. -/
def Moment.back (m : Moment) (caller : Frame) (callers : List Frame) : Moment :=
  { m with stack := m.stack.tail, current := caller, callers }

end Walk

open Walk

/-- The keys of pointers into fragments that lead to a node. -/
def Fragments.addressable (fragments : Fragments) : Set String :=
  { key | ∃ p node, p.key = key ∧ fragments.lookup p = .ok node }

theorem Fragments.finite_addressable (fragments : Fragments) : fragments.addressable.Finite := by
  refine fragments.keys.toFinset.finite_toSet.subset ?_
  rintro key ⟨p, node, rfl, found⟩
  simpa using Fragments.key_mem_keys found

namespace Sources

/-- Goes into the target of an external pointer. -/
def enter (s : Sources) (p : Pointer) (m : Moment) : Moment :=
  match s.load SchemaNode.read p with
  | .error e => { m with failure := some e }
  | .ok node =>
      { m with
        stack := p.key :: m.stack
        current := ⟨p.file, node.paths⟩
        callers := m.current :: m.callers }

/-- Takes up a reference of the current node. -/
def take (s : Sources) (path : String) (m : Moment) : Moment :=
  match Pointer.within m.current.file path with
  | .error cause => { m with failure := some (.reference cause) }
  | .ok p =>
      if !p.isExternal || Assoc.has p.key s.aliases then m
      else if p.key ∈ m.stack then { m with promoted := m.promoted ++ [p] }
      else s.enter p m

/-- The next moment; there is none when no node is left to return to. -/
def step (s : Sources) (m : Moment) : Option Moment :=
  match m.failure, m.current.ahead, m.callers with
  | none, path :: rest, _ => some (s.take path (m.goOn rest))
  | none, [], caller :: callers => some (m.back caller callers)
  | some _, _, caller :: callers => some (m.back caller callers)
  | none, [], [] => none
  | some _, _, [] => none

/-- The moments that a walk comes to. -/
def Reaches (s : Sources) : Moment → Moment → Prop :=
  Relation.ReflTransGen fun m next => s.step m = some next

/-- The moment at which putting the target of a pointer in place begins. -/
def atTarget (s : Sources) (p : Pointer) : Moment :=
  s.enter p .outside

/-- A walk comes back to a moment with the stack as it was: it has promoted what the trail says and
goes on with what is left, or it has failed as the trail says. -/
def ComesBackTo (s : Sources) (start m : Moment) (left : List String) : Trail → Prop
  | .ok promoted => s.Reaches start (m.gone left promoted)
  | .error e =>
      ∃ last, s.Reaches start last ∧ last.stack = m.stack ∧ last.callers = m.callers ∧
        last.failure = some e

/-- A walk goes over references ahead and comes back. -/
def ComesBack (s : Sources) (m : Moment) (left : List String) (trail : Trail) : Prop :=
  s.ComesBackTo m m left trail

variable {s : Sources}

theorem ComesBack.nil {m : Moment} : s.ComesBack m m.current.ahead (.ok []) := by
  have same : m.gone m.current.ahead [] = m := by
    simp [Moment.gone]
  change s.Reaches m (m.gone m.current.ahead [])
  rw [same]
  exact .refl

theorem ComesBackTo.of_reaches {start mid m : Moment} {left : List String} {trail : Trail}
    (reached : s.Reaches start mid) (returns : s.ComesBackTo mid m left trail) :
    s.ComesBackTo start m left trail := by
  cases trail with
  | ok promoted => exact Relation.ReflTransGen.trans reached returns
  | error e =>
      obtain ⟨last, through, rest⟩ := returns
      exact ⟨last, Relation.ReflTransGen.trans reached through, rest⟩

theorem ComesBack.append {m : Moment} {mid left : List String} {first second : Trail}
    (front : s.ComesBack m mid first)
    (back : ∀ promoted, s.ComesBack (m.gone mid promoted) left second) :
    s.ComesBack m left (first.append second) := by
  cases first with
  | error e => exact front
  | ok promoted =>
      cases second with
      | error e =>
          obtain ⟨last, reached, stack, callers, failed⟩ := back promoted
          exact ⟨last, Relation.ReflTransGen.trans front reached, stack, callers, failed⟩
      | ok more =>
          have same : (m.gone mid promoted).gone left more = m.gone left (promoted ++ more) := by
            simp [Moment.gone]
          have rest : s.Reaches (m.gone mid promoted) (m.gone left (promoted ++ more)) :=
            same ▸ back promoted
          exact Relation.ReflTransGen.trans front rest

theorem reaches_take {m : Moment} {path : String} {rest : List String} (running : m.failure = none)
    (ahead : m.current.ahead = path :: rest) : s.Reaches m (s.take path (m.goOn rest)) := by
  refine .single ?_
  simp only [step, running, ahead]

theorem comesBack_of_take {m : Moment} {path : String} {rest : List String}
    {promoted : List Pointer} (running : m.failure = none) (ahead : m.current.ahead = path :: rest)
    (taken : s.take path (m.goOn rest) = m.gone rest promoted) :
    s.ComesBack m rest (.ok promoted) := by
  have reached := s.reaches_take running ahead
  rw [taken] at reached
  exact reached

theorem fails_of_take {m : Moment} {path : String} {rest : List String} {e : TransformError}
    (running : m.failure = none) (ahead : m.current.ahead = path :: rest)
    (taken : s.take path (m.goOn rest) = { m.goOn rest with failure := some e }) :
    s.ComesBack m rest (.error e) := by
  have reached := reaches_take (s := s) running ahead
  rw [taken] at reached
  exact ⟨_, reached, rfl, rfl, rfl⟩

theorem enter_of_load {p : Pointer} {node : SchemaNode}
    (loaded : s.load SchemaNode.read p = .ok node) (m : Moment) :
    s.enter p m =
      { m with
        stack := p.key :: m.stack
        current := ⟨p.file, node.paths⟩
        callers := m.current :: m.callers } := by
  simp only [enter, loaded]

/-- Going through the references of a target comes back to where it was entered. -/
theorem comesBackTo_of_enter {m : Moment} {rest : List String} {p : Pointer} {node : SchemaNode}
    {trail : Trail} (running : m.failure = none) (loaded : s.load SchemaNode.read p = .ok node)
    (inner : s.ComesBack (s.enter p (m.goOn rest)) [] trail) :
    s.ComesBackTo (s.enter p (m.goOn rest)) m rest trail := by
  rw [enter_of_load loaded] at inner ⊢
  cases trail with
  | ok promoted =>
      refine Relation.ReflTransGen.tail inner ?_
      simp [step, Moment.gone, Moment.goOn, Moment.back, running]
  | error e =>
      obtain ⟨last, through, stack, callers, failed⟩ := inner
      refine ⟨last.back ⟨m.current.file, rest⟩ m.callers, through.tail ?_, ?_, rfl, failed⟩
      · simp [step, failed, callers, Moment.goOn]
      · simp [Moment.back, stack, Moment.goOn]

theorem take_eq {m : Moment} {path : String} {p : Pointer}
    (points : Pointer.within m.current.file path = .ok p) (rest : List String) :
    s.take path (m.goOn rest) =
      if !p.isExternal || Assoc.has p.key s.aliases then m.gone rest []
      else if p.key ∈ m.stack then m.gone rest [p]
      else s.enter p (m.goOn rest) := by
  have passed : m.gone rest [] = m.goOn rest := by
    simp [Moment.goOn, Moment.gone]
  rw [passed]
  simp only [take, Moment.goOn, points]
  rfl

/-- Walks that are begun inside one more target come back. -/
def Deeper (s : Sources) (stack : List String) : Prop :=
  ∀ p node, p.key ∉ stack → s.load SchemaNode.read p = .ok node →
    ∀ inside : Moment, inside.stack = p.key :: stack → inside.failure = none →
      inside.current = ⟨p.file, node.paths⟩ →
      s.ComesBack inside [] (trailOf (s.follow (p.key :: stack)) p.file node.paths)

/-- Taking up a reference to another file comes back from it as following its pointer does. -/
theorem comesBack_external {m : Moment} {path : String} {rest : List String} {p : Pointer}
    (running : m.failure = none) (ahead : m.current.ahead = path :: rest)
    (points : Pointer.within m.current.file path = .ok p) (external : p.isExternal)
    (deeper : s.Deeper m.stack) : s.ComesBack m rest (s.follow m.stack p).trail := by
  have taken := take_eq (s := s) points rest
  rw [follow_eq]
  cases known : Assoc.get? p.key s.aliases with
  | some name =>
      have published : Assoc.has p.key s.aliases :=
        Assoc.has_iff.mpr (Assoc.mem_keys_iff.mpr ⟨name, known⟩)
      rw [if_pos (by simp [published])] at taken
      exact comesBack_of_take running ahead taken
  | none =>
      have absent : Assoc.has p.key s.aliases = false := by
        rw [← Bool.not_eq_true, Assoc.has_iff]
        exact Assoc.get?_eq_none_iff.mp known
      rw [if_neg (by simp [external, absent])] at taken
      by_cases around : p.key ∈ m.stack
      · rw [if_pos around] at taken
        simp only [if_pos around]
        exact comesBack_of_take running ahead taken
      · rw [if_neg around] at taken
        simp only [if_neg around]
        cases loaded : s.load SchemaNode.read p with
        | error e =>
            refine fails_of_take running ahead ?_
            rw [taken]
            simp only [enter, loaded]
        | ok node =>
            simp only [trail_normalizeNode]
            have entered := reaches_take (s := s) running ahead
            rw [taken] at entered
            refine .of_reaches entered (comesBackTo_of_enter running loaded ?_)
            rw [enter_of_load loaded]
            exact deeper p node around loaded _ rfl running rfl

/-- Taking up a reference comes back from it as following it does. -/
theorem comesBack_reference {m : Moment} {path : String} {rest : List String}
    (running : m.failure = none) (ahead : m.current.ahead = path :: rest)
    (deeper : s.Deeper m.stack) :
    s.ComesBack m rest (resolve (s.follow m.stack) m.current.file path).trail := by
  unfold resolve
  cases parsed : Pointer.parse path with
  | error cause =>
      refine fails_of_take running ahead ?_
      simp only [take, Moment.goOn, Pointer.within, parsed]
      rfl
  | ok raw =>
      have points := Pointer.within_of_parse m.current.file parsed
      simp only
      by_cases external : (raw.relativeTo m.current.file).isExternal
      · rw [if_pos external]
        exact comesBack_external running ahead points external deeper
      · have taken := take_eq (s := s) points rest
        rw [if_pos (by simp [external])] at taken
        rw [if_neg external]
        split
        · exact comesBack_of_take running ahead taken
        · exact comesBack_of_take running ahead taken

/-- A walk through references comes back with the stack as it was. The induction is on the targets
that may still be entered, then on the references. -/
theorem comesBack_paths (s : Sources) (m : Moment) (paths left : List String)
    (running : m.failure = none) (ahead : m.current.ahead = paths ++ left) :
    s.ComesBack m left (trailOf (s.follow m.stack) m.current.file paths) := by
  match paths with
  | [] =>
      subst ahead
      exact ComesBack.nil
  | path :: rest =>
      have deeper : s.Deeper m.stack := by
        intro p node fresh loaded inside stack active current
        have walked := comesBack_paths s inside node.paths [] active (by rw [current]; simp)
        rwa [stack, current] at walked
      have first : s.ComesBack m (rest ++ left)
          (resolve (s.follow m.stack) m.current.file path).trail :=
        comesBack_reference running ahead deeper
      exact first.append fun promoted =>
        comesBack_paths s (m.gone (rest ++ left) promoted) rest left running rfl
termination_by (s.fragments.keys.countP fun key => !m.stack.contains key, paths.length)
decreasing_by
  · rw [stack]
    exact Prod.Lex.left _ _ (NameSet.countP_lt_countP (key_mem_of_load loaded) fresh)
  · exact Prod.Lex.right _ (Nat.lt_succ_self _)

/-- What holds of the stack at every moment of a walk that begins outside of all targets: the keys
on it are pairwise different, each leads to a node, and each has a node around the current one. -/
structure Nested (s : Sources) (m : Moment) : Prop where
  distinct : m.stack.Nodup
  found : ∀ key ∈ m.stack, key ∈ s.fragments.addressable
  depth : m.stack.length = m.callers.length

theorem addressable_of_load {p : Pointer} {node : SchemaNode}
    (loaded : s.load SchemaNode.read p = .ok node) : p.key ∈ s.fragments.addressable := by
  unfold load at loaded
  split at loaded
  · cases loaded
  · rename_i value found
    exact ⟨p, value, rfl, found⟩

theorem Nested.enter {m : Moment} (nested : s.Nested m) {p : Pointer} (fresh : p.key ∉ m.stack) :
    s.Nested (s.enter p m) := by
  cases loaded : s.load SchemaNode.read p with
  | error e =>
      simp only [Sources.enter, loaded]
      exact ⟨nested.distinct, nested.found, nested.depth⟩
  | ok node =>
      rw [enter_of_load loaded]
      refine ⟨List.nodup_cons.mpr ⟨fresh, nested.distinct⟩, ?_, by simp [nested.depth]⟩
      intro key member
      rcases List.mem_cons.mp member with rfl | member
      · exact addressable_of_load loaded
      · exact nested.found key member

theorem Nested.take {m : Moment} (nested : s.Nested m) (path : String) :
    s.Nested (s.take path m) := by
  unfold Sources.take
  split
  · exact ⟨nested.distinct, nested.found, nested.depth⟩
  · split
    · exact nested
    · split
      · exact ⟨nested.distinct, nested.found, nested.depth⟩
      · rename_i fresh
        exact nested.enter fresh

theorem Nested.back {m : Moment} (nested : s.Nested m) {caller : Frame} {callers : List Frame}
    (around : m.callers = caller :: callers) : s.Nested (m.back caller callers) where
  distinct := nested.distinct.tail
  found := fun key member => nested.found key (List.mem_of_mem_tail member)
  depth := by
    have depth := nested.depth
    rw [around] at depth
    simp [Moment.back, depth]

/-- A step keeps the stack as it has to be. -/
theorem Nested.step {m next : Moment} (nested : s.Nested m) (stepped : s.step m = some next) :
    s.Nested next := by
  unfold Sources.step at stepped
  split at stepped
  · rename_i path rest _ _
    cases Option.some.inj stepped
    have same : s.Nested (m.goOn rest) := ⟨nested.distinct, nested.found, nested.depth⟩
    exact same.take path
  · rename_i around
    cases Option.some.inj stepped
    exact nested.back around
  · rename_i around
    cases Option.some.inj stepped
    exact nested.back around
  · cases stepped
  · cases stepped

theorem Nested.reaches {m last : Moment} (nested : s.Nested m) (reached : s.Reaches m last) :
    s.Nested last := by
  induction reached with
  | refl => exact nested
  | tail _ stepped ih => exact ih.step stepped

/-- Targets are put in place inside each other no deeper than there are pointers to nodes. -/
theorem Nested.length_le {m : Moment} (nested : s.Nested m) :
    m.stack.length ≤ s.fragments.addressable.ncard := by
  have inside : (m.stack.toFinset : Set String) ⊆ s.fragments.addressable := by
    intro key member
    exact nested.found key (by simpa using member)
  have bound := Set.ncard_le_ncard inside s.fragments.finite_addressable
  rwa [Set.ncard_coe_finset, List.toFinset_card_of_nodup nested.distinct] at bound

/-- A walk comes to an end with no target left on the stack, as the trail says. -/
def Ends (s : Sources) (m : Moment) (trail : Trail) : Prop :=
  ∃ last, s.Reaches m last ∧ s.step last = none ∧ last.stack = [] ∧
    match trail with
    | .ok promoted => last.failure = none ∧ last.promoted = promoted
    | .error e => last.failure = some e

theorem ends_of_comesBackTo {start m : Moment} {trail : Trail} (stack : m.stack = [])
    (callers : m.callers = []) (running : m.failure = none) (promoted : m.promoted = [])
    (returns : s.ComesBackTo start m [] trail) : s.Ends start trail := by
  cases trail with
  | ok more =>
      refine ⟨m.gone [] more, returns, ?_, stack, running, ?_⟩
      · simp [Sources.step, Moment.gone, running, callers]
      · simp [Moment.gone, promoted]
  | error e =>
      obtain ⟨last, reached, same, outer, failed⟩ := returns
      refine ⟨last, reached, ?_, same.trans stack, failed⟩
      simp [Sources.step, failed, outer, callers]

/-- Bringing a node to its form ends. -/
theorem ends_atNode (s : Sources) (base : Option String) (node : SchemaNode) :
    s.Ends (.atNode base node) (s.normalize base node).trail := by
  have returns := comesBack_paths s (.atNode base node) node.paths [] rfl (List.append_nil _).symm
  rw [normalize, trail_normalizeNode]
  exact ends_of_comesBackTo rfl rfl rfl rfl returns

/-- Putting the target of a pointer in place ends. -/
theorem ends_atTarget (s : Sources) (p : Pointer) :
    s.Ends (s.atTarget p) (s.materialize p).trail := by
  unfold materialize
  cases loaded : s.load SchemaNode.read p with
  | error e =>
      refine ⟨s.atTarget p, .refl, ?_⟩
      simp only [atTarget, enter, loaded]
      exact ⟨rfl, rfl, rfl⟩
  | ok node =>
      simp only [Transform.trail_map, trail_normalizeNode]
      have inner : s.ComesBack (s.enter p (Moment.outside.goOn [])) []
          (trailOf (s.follow [p.key]) p.file node.paths) := by
        rw [enter_of_load loaded]
        exact comesBack_paths s _ node.paths [] rfl (List.append_nil _).symm
      exact ends_of_comesBackTo rfl rfl rfl rfl
        (comesBackTo_of_enter (m := Moment.outside) rfl loaded inner)

/-- The stack holds what it has to at every moment of a walk. -/
theorem nested_atNode (s : Sources) (base : Option String) (node : SchemaNode) :
    s.Nested (.atNode base node) :=
  ⟨List.nodup_nil, fun _ member => (List.not_mem_nil member).elim, rfl⟩

theorem nested_atTarget (s : Sources) (p : Pointer) : s.Nested (s.atTarget p) := by
  have outside : s.Nested Moment.outside :=
    ⟨List.nodup_nil, fun _ member => (List.not_mem_nil member).elim, rfl⟩
  exact outside.enter (by simp [Moment.outside])

end Sources

end ApiCodec

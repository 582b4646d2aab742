import Mathlib.Data.List.Perm.Subperm
import ApiCodec.Proofs.Flatten.Run

set_option autoImplicit false

/-!
Chains of parameter pointers. A pointer leads to a parameter or to a further pointer, in the
document or in another file, and a chain of them is followed for two steps more than the document
has parameters. Within the document this is enough: a chain that takes more names than there are
comes to one again and never ends. In other files it is not, since their parameters do not count;
there a chain that ends may be taken for one that does not.
-/

namespace ApiCodec

open Document

/-- Notices of why a declared parameter is left out. -/
def Notice.dropsParameter : Notice → Bool
  | .parameterDropped _ => true
  | .parameterOfKind _ _ => true
  | .parameterMissing _ => true
  | .parameterCyclic _ => true
  | _ => false

namespace Workspace

variable {w : Workspace}

/-- A pointer addresses a node: by its name in the document, or by its place in another file. -/
inductive Holds (w : Workspace) (p : Pointer) (node : ParameterNode) : Prop
  | declared (inside : p.file = none)
      (found : Assoc.get? p.name w.catalog.parameters = some node) : Holds w p node
  | loaded {value : Json} (external : p.isExternal)
      (found : w.sources.fragments.lookup p = .ok value)
      (read : ParameterNode.read value = .ok node) : Holds w p node

/-- A reference in the file `base` is a parameter pointer and leads to a node. -/
structure Leads (w : Workspace) (base : Option String) (path : String) (p : Pointer)
    (node : ParameterNode) : Prop where
  points : Pointer.within base path = .ok p
  kind : p.kind = .parameter
  holds : w.Holds p node

/-- The pointers on the way from one reference to another. -/
inductive Traverses (w : Workspace) : Option String → String → List Pointer → Option String →
    String → Prop
  | nil {base : Option String} {path : String} : Traverses w base path [] base path
  | cons {base last : Option String} {path next raw : String} {p : Pointer} {ps : List Pointer}
      (leads : w.Leads base path p (.ref next)) (rest : Traverses w p.file next ps last raw) :
      Traverses w base path (p :: ps) last raw

/-- The pointers on the way from a reference to a parameter, which stands in a file. -/
def Finds (w : Workspace) (base : Option String) (path : String) (ps : List Pointer)
    (parameter : Document.Parameter) (file : Option String) : Prop :=
  ∃ before last raw p, ps = before ++ [p] ∧ w.Traverses base path before last raw ∧
    w.Leads last raw p (.inline parameter) ∧ p.file = file

/-- A chain that goes on whatever number of pointers was followed. -/
def Endless (w : Workspace) (base : Option String) (path : String) : Prop :=
  ∀ n, ∃ ps last raw, ps.length = n ∧ w.Traverses base path ps last raw

theorem Holds.unique {p : Pointer} {node other : ParameterNode} (first : w.Holds p node)
    (second : w.Holds p other) : node = other := by
  cases first with
  | declared inside found =>
      cases second with
      | declared _ found' => exact Option.some.inj (found.symm.trans found')
      | loaded external _ _ => simp [Pointer.isExternal, inside] at external
  | loaded external found read =>
      cases second with
      | declared inside _ => simp [Pointer.isExternal, inside] at external
      | loaded _ found' read' =>
          cases Except.ok.inj (found.symm.trans found')
          exact Except.ok.inj (read.symm.trans read')

/-- What the document declares under one name is one node. -/
theorem Holds.unique_of_name {p q : Pointer} {node other : ParameterNode} (first : w.Holds p node)
    (second : w.Holds q other) (here : ¬ p.isExternal) (here' : ¬ q.isExternal)
    (name : p.name = q.name) : node = other := by
  cases first with
  | loaded external _ _ => exact absurd external here
  | declared _ found =>
      cases second with
      | loaded external _ _ => exact absurd external here'
      | declared _ found' =>
          rw [name] at found
          exact Option.some.inj (found.symm.trans found')

theorem Leads.unique {base : Option String} {path : String} {p q : Pointer}
    {node other : ParameterNode} (first : w.Leads base path p node)
    (second : w.Leads base path q other) : p = q ∧ node = other := by
  obtain rfl := Except.ok.inj (first.points.symm.trans second.points)
  exact ⟨rfl, first.holds.unique second.holds⟩

theorem parameterTarget_of_holds {p : Pointer} {node : ParameterNode} (holds : w.Holds p node) :
    w.parameterTarget p = .value (some node) := by
  unfold parameterTarget
  cases holds with
  | declared inside found =>
      have here : ¬ p.isExternal := by simp [Pointer.isExternal, inside]
      rw [if_neg here, found]
  | loaded external found read =>
      have loads : w.sources.load ParameterNode.read p = .ok node := by
        unfold Sources.load
        rw [found]
        simp only
        rw [read]
      rw [if_pos external, loads]

theorem holds_of_parameterTarget {p : Pointer} {node : ParameterNode}
    {t : Traced Notice (Option ParameterNode)} (success : w.parameterTarget p = .ok t)
    (given : t.value = some node) : w.Holds p node := by
  unfold parameterTarget at success
  split at success
  · rename_i external
    split at success
    · rename_i loads
      cases Transform.value_eq_ok_iff.mp success
      cases given
      unfold Sources.load at loads
      split at loads
      · cases loads
      · rename_i value found
        split at loads
        · cases loads
        · rename_i read
          rw [Except.ok.inj loads] at read
          exact .loaded external found read
    · cases Transform.value_eq_ok_iff.mp success
      cases given
    · exact absurd success Transform.fail_ne_ok
  · rename_i inside
    cases Transform.value_eq_ok_iff.mp success
    exact .declared (by simpa [Pointer.isExternal] using inside) given

/-- How following goes on at the node that a pointer leads to. -/
def onward (w : Workspace) (subject : String) (steps : Nat) (p : Pointer) :
    ParameterNode → Transform Notice (Option (Document.Parameter × Option String))
  | .inline parameter => .value (some (parameter, p.file))
  | .ref next => w.followParameter subject steps p.file next

theorem followParameter_of_leads {base : Option String} {path : String} {p : Pointer}
    {node : ParameterNode} (leads : w.Leads base path p node) (subject : String) (steps : Nat) :
    w.followParameter subject (steps + 1) base path = w.onward subject steps p node := by
  obtain ⟨points, kind, holds⟩ := leads
  obtain ⟨parsed, pointed, rfl⟩ := Pointer.within_eq_ok_iff.mp points
  rw [followParameter, pointed]
  simp only [kind, parameterTarget_of_holds holds]
  rw [Transform.bind_eq, Transform.value_andThen]
  cases node <;> rfl

/-- A step along a reference comes to a parameter, goes on at a further reference, or reports a
parameter that is left out, though not for a chain that is too long. -/
theorem followParameter_cases {subject : String} {steps : Nat} {base : Option String}
    {path : String} {t : Traced Notice (Option (Document.Parameter × Option String))}
    (success : w.followParameter subject (steps + 1) base path = .ok t) :
    (∃ p parameter, w.Leads base path p (.inline parameter) ∧
        t = ⟨some (parameter, p.file), [], []⟩) ∨
      (∃ p next, w.Leads base path p (.ref next) ∧
        w.followParameter subject steps p.file next = .ok t) ∨
      ∃ notice, (notice.dropsParameter ∧ ∀ raw, notice ≠ .parameterCyclic raw) ∧
        t = ⟨none, [notice], []⟩ := by
  unfold followParameter at success
  split at success
  · exact Or.inr (Or.inr ⟨_, ⟨rfl, by simp⟩, eq_of_noted success⟩)
  · rename_i parsed pointed
    have points := Pointer.within_of_parse base pointed
    simp only at success
    split at success
    · rename_i kind
      obtain ⟨a, b, target, next, rfl⟩ := Transform.bind_eq_ok_iff.mp success
      have silent := eq_of_parameterTarget target
      split at next
      · rename_i parameter given
        cases Transform.pure_eq_ok_iff.mp next
        rw [silent]
        exact Or.inl ⟨_, parameter, ⟨points, kind, holds_of_parameterTarget target given⟩, rfl⟩
      · rename_i later given
        rw [silent]
        exact Or.inr (Or.inl
          ⟨_, later, ⟨points, kind, holds_of_parameterTarget target given⟩, next⟩)
      · cases eq_of_noted next
        rw [silent]
        exact Or.inr (Or.inr ⟨_, ⟨rfl, by simp⟩, rfl⟩)
    · exact absurd success Transform.fail_ne_ok
    · exact Or.inr (Or.inr ⟨_, ⟨rfl, by simp⟩, eq_of_noted success⟩)

namespace Traverses

variable {base last final : Option String} {path raw finalRaw : String} {ps qs : List Pointer}

theorem append (first : w.Traverses base path ps last raw)
    (second : w.Traverses last raw qs final finalRaw) :
    w.Traverses base path (ps ++ qs) final finalRaw := by
  induction first with
  | nil => exact second
  | cons leads _ ih => exact .cons leads (ih second)

theorem exists_of_append (way : w.Traverses base path (ps ++ qs) final finalRaw) :
    ∃ last raw, w.Traverses base path ps last raw ∧ w.Traverses last raw qs final finalRaw := by
  induction ps generalizing base path with
  | nil => exact ⟨base, path, .nil, way⟩
  | cons p ps ih =>
      cases way with
      | cons leads rest =>
          obtain ⟨last, raw, first, second⟩ := ih rest
          exact ⟨last, raw, .cons leads first, second⟩

/-- There is one way on from a reference. -/
theorem exists_of_length_le (first : w.Traverses base path ps last raw)
    (second : w.Traverses base path qs final finalRaw) (shorter : ps.length ≤ qs.length) :
    ∃ rest, qs = ps ++ rest ∧ w.Traverses last raw rest final finalRaw := by
  induction first generalizing qs with
  | nil => exact ⟨qs, rfl, second⟩
  | cons leads _ ih =>
      cases second with
      | nil => simp at shorter
      | cons leads' rest' =>
          obtain ⟨rfl, same⟩ := leads.unique leads'
          cases same
          obtain ⟨rest, rfl, onward⟩ := ih rest' (by simpa using shorter)
          exact ⟨rest, rfl, onward⟩

theorem exists_leads_of_mem (way : w.Traverses base path ps last raw) {q : Pointer}
    (member : q ∈ ps) :
    ∃ before middle text next after, ps = before ++ q :: after ∧
      w.Traverses base path before middle text ∧ w.Leads middle text q (.ref next) ∧
      w.Traverses q.file next after last raw := by
  obtain ⟨before, after, rfl⟩ := List.append_of_mem member
  obtain ⟨middle, text, first, second⟩ := way.exists_of_append
  cases second with
  | cons leads rest => exact ⟨before, middle, text, _, after, rfl, first, leads, rest⟩

/-- A chain that comes back to where it began. -/
theorem replicate (loop : w.Traverses base path ps base path) (n : Nat) :
    w.Traverses base path (List.replicate n ps).flatten base path := by
  induction n with
  | zero => exact .nil
  | succ n ih => exact loop.append ih

/-- From another file a chain does not come back to the document. -/
theorem external_of_some {file : String} (way : w.Traverses (some file) path ps last raw) :
    (∀ p ∈ ps, p.isExternal) ∧ last.isSome := by
  generalize around : some file = base at way
  induction way generalizing file with
  | nil =>
      subst around
      exact ⟨by simp, rfl⟩
  | cons leads _ ih =>
      subst around
      have external := Pointer.isExternal_of_within leads.points
      obtain ⟨other, there⟩ := Option.isSome_iff_exists.mp external
      obtain ⟨rest, outside⟩ := ih there.symm
      exact ⟨List.forall_mem_cons.mpr ⟨external, rest⟩, outside⟩

end Traverses

/-- The step that fails for want of steps tells where the chain was. -/
theorem followParameter_of_traverses {base last : Option String} {path raw : String}
    {ps : List Pointer} (way : w.Traverses base path ps last raw) (subject : String)
    (steps : Nat) :
    w.followParameter subject (ps.length + steps) base path =
      w.followParameter subject steps last raw := by
  induction way with
  | nil => rw [List.length_nil, Nat.zero_add]
  | cons leads _ ih =>
      rw [List.length_cons, Nat.add_right_comm, followParameter_of_leads leads, onward, ih]

/-- A run of following comes to a parameter, to the end of its steps, or to a place where it reports
something else. -/
theorem exists_traverses_of_followParameter {subject : String} {steps : Nat} {base : Option String}
    {path : String} {t : Traced Notice (Option (Document.Parameter × Option String))}
    (success : w.followParameter subject steps base path = .ok t) :
    (∃ ps parameter file, ps.length ≤ steps ∧ w.Finds base path ps parameter file ∧
        t = ⟨some (parameter, file), [], []⟩) ∨
      (∃ ps last raw, ps.length = steps ∧ w.Traverses base path ps last raw ∧
        t = ⟨none, [.parameterCyclic raw], []⟩) ∨
      ∃ notice, (notice.dropsParameter ∧ ∀ raw, notice ≠ .parameterCyclic raw) ∧
        t = ⟨none, [notice], []⟩ := by
  induction steps generalizing base path with
  | zero =>
      rw [followParameter] at success
      exact Or.inr (Or.inl ⟨[], base, path, rfl, .nil, eq_of_noted success⟩)
  | succ steps ih =>
      rcases followParameter_cases success with ⟨p, parameter, leads, rfl⟩ |
        ⟨p, next, leads, rest⟩ | other
      · exact Or.inl ⟨[p], parameter, p.file, by simp, ⟨[], base, path, p, rfl, .nil, leads, rfl⟩,
          rfl⟩
      · rcases ih rest with ⟨ps, parameter, file, length, finds, rfl⟩ |
          ⟨ps, last, raw, length, way, rfl⟩ | other
        · obtain ⟨before, last, raw, q, rfl, way, leads', rfl⟩ := finds
          exact Or.inl ⟨p :: (before ++ [q]), parameter, q.file, Nat.succ_le_succ length,
            ⟨p :: before, last, raw, q, rfl, .cons leads way, leads', rfl⟩, rfl⟩
        · exact Or.inr (Or.inl ⟨p :: ps, last, raw, congrArg (· + 1) length, .cons leads way, rfl⟩)
        · exact Or.inr (Or.inr other)
      · exact Or.inr (Or.inr other)

namespace Endless

variable {base : Option String} {path : String}

theorem cons {p : Pointer} {next : String} (leads : w.Leads base path p (.ref next))
    (rest : w.Endless p.file next) : w.Endless base path := by
  intro n
  cases n with
  | zero => exact ⟨[], base, path, rfl, .nil⟩
  | succ n =>
      obtain ⟨ps, last, raw, length, way⟩ := rest n
      exact ⟨p :: ps, last, raw, congrArg (· + 1) length, .cons leads way⟩

theorem of_loop {ps : List Pointer} (loop : w.Traverses base path ps base path) (moves : ps ≠ []) :
    w.Endless base path := by
  intro n
  have long : n ≤ (List.replicate n ps).flatten.length := by
    have positive := List.length_pos_iff.mpr moves
    rw [List.length_flatten, List.map_replicate, List.sum_replicate_nat]
    exact Nat.le_mul_of_pos_right n positive
  have way := loop.replicate n
  rw [← List.take_append_drop n (List.replicate n ps).flatten] at way
  obtain ⟨last, raw, first, _⟩ := way.exists_of_append
  exact ⟨_, last, raw, List.length_take_of_le long, first⟩

/-- A chain that does not end comes to no parameter. -/
theorem not_finds (endless : w.Endless base path) {ps : List Pointer}
    {parameter : Document.Parameter} {file : Option String} :
    ¬ w.Finds base path ps parameter file := by
  rintro ⟨before, last, raw, p, _, way, leads, _⟩
  obtain ⟨qs, final, finalRaw, length, longer⟩ := endless (before.length + 1)
  obtain ⟨rest, rfl, onward⟩ := way.exists_of_length_le longer (by omega)
  cases onward with
  | nil => simp at length
  | cons leads' _ => cases (leads.unique leads').2

end Endless

/-- The names that a chain takes in the document. -/
def namesTaken (ps : List Pointer) : List String :=
  (ps.filter fun p => !p.isExternal).map Pointer.name

/-- A chain that ends takes no name of the document twice. -/
theorem Traverses.nodup_namesTaken {base last : Option String} {path raw : String}
    {ps : List Pointer} (way : w.Traverses base path ps last raw)
    (ends : ¬ w.Endless base path) : (namesTaken ps).Nodup := by
  induction way with
  | nil => exact List.nodup_nil
  | @cons base last path next raw p ps leads rest ih =>
      have later := ih fun endless => ends (.cons leads endless)
      unfold namesTaken
      by_cases external : p.isExternal
      · rw [List.filter_cons_of_neg (by simpa using external)]
        exact later
      · rw [List.filter_cons_of_pos (by simpa using external), List.map_cons, List.nodup_cons]
        refine ⟨fun again => ends (.cons leads ?_), later⟩
        obtain ⟨q, member, name⟩ := List.mem_map.mp again
        obtain ⟨member, inside⟩ := List.mem_filter.mp member
        have inside : ¬ q.isExternal := by simpa using inside
        obtain ⟨before, middle, text, next', after, _, first, leads', _⟩ :=
          rest.exists_leads_of_mem member
        -- The same name leads to the same reference, from the same file.
        obtain rfl := OrRef.ref.inj
          (leads.holds.unique_of_name leads'.holds external inside name.symm)
        have files : q.file = p.file := by
          simp only [Pointer.isExternal, Bool.not_eq_true, Option.isSome_eq_false_iff,
            Option.isNone_iff_eq_none] at external inside
          rw [external, inside]
        have back : w.Traverses q.file next [] p.file next := by
          rw [files]
          exact .nil
        exact .of_loop (first.append (.cons leads' back)) (by simp)

/-- A chain that ends takes at most all names of the document. -/
theorem Traverses.length_le {base last : Option String} {path raw : String} {ps : List Pointer}
    (way : w.Traverses base path ps last raw) (ends : ¬ w.Endless base path) :
    ps.length ≤ w.catalog.parameters.length + (ps.filter Pointer.isExternal).length := by
  have known : namesTaken ps ⊆ Assoc.keys w.catalog.parameters := by
    intro name taken
    obtain ⟨p, member, rfl⟩ := List.mem_map.mp taken
    obtain ⟨member, inside⟩ := List.mem_filter.mp member
    obtain ⟨_, _, _, _, _, _, _, leads, _⟩ := way.exists_leads_of_mem member
    cases leads.holds with
    | declared _ found => exact Assoc.mem_keys_iff.mpr ⟨_, found⟩
    | loaded external _ _ => simp [external] at inside
  have few := ((way.nodup_namesTaken ends).subperm known).length_le
  rw [namesTaken, List.length_map, Assoc.keys, List.length_map] at few
  have both := List.length_eq_length_filter_add (l := ps) Pointer.isExternal
  omega

/-- A chain with at most two pointers to other files that comes to a parameter takes at most two
pointers more than the document has parameters. -/
theorem Finds.length_le {base file : Option String} {path : String} {ps : List Pointer}
    {parameter : Document.Parameter} (finds : w.Finds base path ps parameter file)
    (few : (ps.filter Pointer.isExternal).length ≤ 2) :
    ps.length ≤ w.catalog.parameters.length + 2 := by
  have ends : ¬ w.Endless base path := fun endless => endless.not_finds finds
  obtain ⟨before, last, raw, p, rfl, way, leads, rfl⟩ := finds
  have bound := way.length_le ends
  rw [List.filter_append, List.length_append] at few
  rw [List.length_append, List.length_singleton]
  by_cases external : p.isExternal
  · rw [List.filter_cons_of_pos external] at few
    simp only [List.filter_nil, List.length_singleton] at few
    omega
  · -- The last pointer stays in the document, so all before it do.
    have inside : before.filter Pointer.isExternal = [] := by
      rw [List.filter_eq_nil_iff]
      intro q member outside
      obtain ⟨_, _, _, next, _, _, _, _, rest⟩ := way.exists_leads_of_mem member
      obtain ⟨other, there⟩ := Option.isSome_iff_exists.mp outside
      rw [there] at rest
      obtain ⟨_, away⟩ := rest.external_of_some
      obtain ⟨other', there'⟩ := Option.isSome_iff_exists.mp away
      subst there'
      exact external (Pointer.isExternal_of_within leads.points)
    rw [inside, List.length_nil] at bound
    omega

/-- The pointers on the way from a reference to a pointer into a collection of no known kind. -/
def Strays (w : Workspace) (base : Option String) (path : String) (ps : List Pointer) (raw : String)
    (p : Pointer) : Prop :=
  ∃ last, w.Traverses base path ps last raw ∧ Pointer.within last raw = .ok p ∧ p.kind = .other

section

variable {subject path raw : String} {base : Option String} {ps : List Pointer} {p : Pointer}

/-- Following fails where a chain strays, or where another file holds something else than a
parameter. -/
theorem strays_of_followParameter {steps : Nat} {e : TransformError}
    (failed : w.followParameter subject steps base path = .error e) :
    (∃ ps raw p, w.Strays base path ps raw p ∧
        e = .operation subject (.unsupportedCollection raw p.collection)) ∨
      ∃ p, w.parameterTarget p = .error e := by
  induction steps generalizing base path with
  | zero => cases failed
  | succ steps ih =>
      unfold followParameter at failed
      split at failed
      · cases failed
      · rename_i parsed pointed
        have points := Pointer.within_of_parse base pointed
        simp only at failed
        split at failed
        · rename_i kind
          rcases Transform.bind_eq_error_iff.mp failed with target | ⟨a, target, next⟩
          · exact Or.inr ⟨_, target⟩
          · split at next
            · cases next
            · rename_i later given
              rcases ih next with ⟨ps, raw, p, ⟨last, way, strays⟩, rfl⟩ | other
              · have leads : w.Leads base path _ (.ref later) :=
                  ⟨points, kind, holds_of_parameterTarget target given⟩
                exact Or.inl ⟨_ :: ps, raw, p, ⟨last, .cons leads way, strays⟩, rfl⟩
              · exact Or.inr other
            · cases next
        · rename_i other
          exact Or.inl
            ⟨[], path, _, ⟨base, .nil, points, other⟩, (Except.error.inj failed).symm⟩
        · cases failed

/-- A chain that strays ends there. -/
theorem Strays.not_endless (strays : w.Strays base path ps raw p) : ¬ w.Endless base path := by
  obtain ⟨last, way, points, other⟩ := strays
  intro endless
  obtain ⟨qs, final, finalRaw, length, longer⟩ := endless (ps.length + 1)
  obtain ⟨rest, rfl, onward⟩ := way.exists_of_length_le longer (by omega)
  cases onward with
  | nil => simp at length
  | cons leads _ =>
      cases Except.ok.inj (points.symm.trans leads.points)
      rw [leads.kind] at other
      cases other

/-- A chain that strays is followed to where it does, unless it takes two pointers to other files on
the way. -/
theorem resolveParameter_of_strays (strays : w.Strays none path ps raw p)
    (few : (ps.filter Pointer.isExternal).length ≤ 1) :
    w.resolveParameter subject (.ref path) =
      .error (.operation subject (.unsupportedCollection raw p.collection)) := by
  have ends := strays.not_endless
  obtain ⟨last, way, points, other⟩ := strays
  have bound := way.length_le ends
  obtain ⟨left, budget⟩ := Nat.exists_eq_add_of_le
    (show ps.length + 1 ≤ w.catalog.parameters.length + 2 by omega)
  have steps : w.catalog.parameters.length + 2 = ps.length + (left + 1) := by omega
  rw [resolveParameter, steps, followParameter_of_traverses way, followParameter]
  obtain ⟨parsed, pointed, rfl⟩ := Pointer.within_eq_ok_iff.mp points
  simp only [pointed, other]
  rfl

end

/-- A declared parameter is found without a notice, or left out with one. -/
theorem resolveParameter_cases {subject : String} {node : ParameterNode}
    {t : Traced Notice (Option (Document.Parameter × Option String))}
    (success : w.resolveParameter subject node = .ok t) :
    (∃ found, t = ⟨some found, [], []⟩) ∨
      ∃ notice, notice.dropsParameter ∧ t = ⟨none, [notice], []⟩ := by
  cases node with
  | inline parameter => exact Or.inl ⟨_, Transform.value_eq_ok_iff.mp success⟩
  | ref path =>
      rcases exists_traverses_of_followParameter success with ⟨_, _, _, _, _, rfl⟩ |
        ⟨_, _, _, _, _, rfl⟩ | ⟨notice, drops, rfl⟩
      · exact Or.inl ⟨_, rfl⟩
      · exact Or.inr ⟨_, rfl, rfl⟩
      · exact Or.inr ⟨notice, drops.1, rfl⟩

section

variable {subject path raw : String} {ps : List Pointer} {parameter : Document.Parameter}
  {last file : Option String}

theorem resolveParameter_of_finds (finds : w.Finds none path ps parameter file)
    (short : ps.length ≤ w.catalog.parameters.length + 2) :
    w.resolveParameter subject (.ref path) = .ok ⟨some (parameter, file), [], []⟩ := by
  obtain ⟨before, last, raw, p, rfl, way, leads, rfl⟩ := finds
  rw [List.length_append, List.length_singleton] at short
  obtain ⟨left, budget⟩ := Nat.exists_eq_add_of_le short
  have steps : w.catalog.parameters.length + 2 = before.length + (left + 1) := by omega
  rw [resolveParameter, steps, followParameter_of_traverses way, followParameter_of_leads leads]
  rfl

theorem resolveParameter_of_traverses (way : w.Traverses none path ps last raw)
    (length : ps.length = w.catalog.parameters.length + 2) :
    w.resolveParameter subject (.ref path) = .ok ⟨none, [.parameterCyclic raw], []⟩ := by
  rw [resolveParameter, ← length, ← Nat.add_zero ps.length, followParameter_of_traverses way]
  rfl

theorem resolveParameter_found_iff :
    w.resolveParameter subject (.ref path) = .ok ⟨some (parameter, file), [], []⟩ ↔
      ∃ ps, ps.length ≤ w.catalog.parameters.length + 2 ∧
        w.Finds none path ps parameter file := by
  constructor
  · intro success
    rcases exists_traverses_of_followParameter success with ⟨ps, _, _, short, finds, same⟩ |
      ⟨_, _, _, _, _, same⟩ | ⟨_, _, same⟩
    · cases same
      exact ⟨ps, short, finds⟩
    · cases same
    · cases same
  · rintro ⟨ps, short, finds⟩
    exact resolveParameter_of_finds finds short

theorem resolveParameter_cyclic_iff :
    w.resolveParameter subject (.ref path) = .ok ⟨none, [.parameterCyclic raw], []⟩ ↔
      ∃ ps last, ps.length = w.catalog.parameters.length + 2 ∧
        w.Traverses none path ps last raw := by
  constructor
  · intro success
    rcases exists_traverses_of_followParameter success with ⟨_, _, _, _, _, same⟩ |
      ⟨ps, last, _, length, way, same⟩ | ⟨_, other, same⟩
    · cases same
    · cases same
      exact ⟨ps, last, length, way⟩
    · cases same
      exact absurd rfl (other.2 raw)
  · rintro ⟨ps, last, length, way⟩
    exact resolveParameter_of_traverses way length

variable {t : Traced Notice (Option (Document.Parameter × Option String))}
  (success : w.resolveParameter subject (.ref path) = .ok t)

include success

theorem eq_of_found {found : Document.Parameter × Option String} (value : t.value = some found) :
    t = ⟨some found, [], []⟩ := by
  rcases exists_traverses_of_followParameter success with ⟨_, _, _, _, _, rfl⟩ |
    ⟨_, _, _, _, _, rfl⟩ | ⟨_, _, rfl⟩
  · cases value
    rfl
  · cases value
  · cases value

theorem eq_of_cyclic (reported : .parameterCyclic raw ∈ t.notes) :
    t = ⟨none, [.parameterCyclic raw], []⟩ := by
  rcases exists_traverses_of_followParameter success with ⟨_, _, _, _, _, rfl⟩ |
    ⟨_, _, _, _, _, rfl⟩ | ⟨_, other, rfl⟩
  · cases reported
  · cases List.mem_singleton.mp reported
    rfl
  · exact absurd (List.mem_singleton.mp reported).symm (other.2 raw)

end

/-- How far a chain of parameter pointers is followed. A parameter is found, with the file in which
it stands, exactly if a chain leads to it that takes at most two pointers more than the document has
parameters; a pointer is reported as cyclic exactly if that many pointers lead from reference to
reference. So nothing is lost of a chain with at most two pointers to other files, and one that is
reported as cyclic with at most one of them never ends; but a longer chain is reported as well, even
if it ends. -/
theorem chain_found_iff (w : Workspace) (subject path : String) :
    let most := w.catalog.parameters.length + 2
    (∀ t found, w.resolveParameter subject (.ref path) = .ok t → t.value = some found →
        t = ⟨some found, [], []⟩) ∧
      (∀ parameter file,
        w.resolveParameter subject (.ref path) = .ok ⟨some (parameter, file), [], []⟩ ↔
          ∃ ps, ps.length ≤ most ∧ w.Finds none path ps parameter file) ∧
      (∀ t raw, w.resolveParameter subject (.ref path) = .ok t →
        .parameterCyclic raw ∈ t.notes → t = ⟨none, [.parameterCyclic raw], []⟩) ∧
      (∀ raw,
        w.resolveParameter subject (.ref path) = .ok ⟨none, [.parameterCyclic raw], []⟩ ↔
          ∃ ps last, ps.length = most ∧ w.Traverses none path ps last raw) ∧
      (∀ ps parameter file, w.Finds none path ps parameter file →
        (ps.filter Pointer.isExternal).length ≤ 2 →
        w.resolveParameter subject (.ref path) = .ok ⟨some (parameter, file), [], []⟩) ∧
      (∀ ps last raw, w.Traverses none path ps last raw → ps.length = most →
        (ps.filter Pointer.isExternal).length ≤ 1 → w.Endless none path) ∧
      ∀ ps parameter file, w.Finds none path ps parameter file → most < ps.length →
        ∃ raw, w.resolveParameter subject (.ref path) =
          .ok ⟨none, [.parameterCyclic raw], []⟩ := by
  intro most
  refine ⟨fun t found success value => eq_of_found success value,
    fun parameter file => resolveParameter_found_iff,
    fun t raw success reported => eq_of_cyclic success reported,
    fun raw => resolveParameter_cyclic_iff, ?_, ?_, ?_⟩
  · intro ps parameter file finds few
    exact resolveParameter_of_finds finds (finds.length_le few)
  · intro ps last raw way length few
    by_contra ends
    have bound := way.length_le ends
    omega
  · rintro ps parameter file ⟨before, last, raw, p, rfl, way, _, _⟩ long
    -- The references that take up all steps are the first ones of the chain.
    rw [List.length_append, List.length_singleton] at long
    rw [← List.take_append_drop most before] at way
    obtain ⟨middle, text, first, _⟩ := way.exists_of_append
    exact ⟨text, resolveParameter_of_traverses first (List.length_take_of_le (by omega))⟩

end Workspace

/-- A file with a chain of two references to a parameter. -/
def Sample.limitFiles : Fragments :=
  [("a.yaml", .obj [("parameters", .obj
    [("A", Json.reference "#/parameters/B"), ("B", Json.reference "#/parameters/C"),
     ("C", .obj [("name", .str "limit"), ("in", .str "query"), ("type", .str "integer")])])])]

/-- A document without parameters, beside that file. -/
def Sample.limits : Workspace := .ofDocument (.ofDefinitions []) Sample.limitFiles

/-- One reference in the file is followed. -/
theorem chain_found_limit :
    ∃ ps parameter, Sample.limits.Finds none "a.yaml#/parameters/B" ps parameter (some "a.yaml") ∧
      (ps.filter Pointer.isExternal).length ≤ 2 ∧
      Sample.limits.resolveParameter "getA" (.ref "a.yaml#/parameters/B") =
        .ok ⟨some (parameter, some "a.yaml"), [], []⟩ := by
  obtain ⟨t, success, facts⟩ := exists_ok_of_map
    (x := Sample.limits.resolveParameter "getA" (.ref "a.yaml#/parameters/B"))
    (f := fun t => t.value.map Prod.snd) (b := some (some "a.yaml")) (by decide +kernel)
  obtain ⟨⟨parameter, file⟩, value, rfl⟩ := Option.map_eq_some_iff.mp facts
  obtain ⟨quiet, found, _, _, followed, _⟩ :=
    Workspace.chain_found_iff Sample.limits "getA" "a.yaml#/parameters/B"
  obtain rfl := quiet t _ success value
  obtain ⟨ps, short, finds⟩ := (found parameter _).mp success
  have few := (List.length_filter_le Pointer.isExternal ps).trans short
  exact ⟨ps, parameter, finds, few, followed ps parameter _ finds few⟩

/-- Two references in the file are taken for a chain without an end. -/
theorem chain_dropped_limit :
    (∃ ps parameter, Sample.limits.Finds none "a.yaml#/parameters/A" ps parameter (some "a.yaml") ∧
        parameter.name = "limit") ∧
      Sample.limits.resolveParameter "getA" (.ref "a.yaml#/parameters/A") =
        .ok ⟨none, [.parameterCyclic "#/parameters/C"], []⟩ := by
  constructor
  · -- With one step more the parameter is found.
    obtain ⟨t, success, facts⟩ := exists_ok_of_map
      (x := Sample.limits.followParameter "getA" 3 none "a.yaml#/parameters/A")
      (f := fun t => t.value.map fun found => (found.1.name, found.2))
      (b := some ("limit", some "a.yaml")) (by decide +kernel)
    rcases Workspace.exists_traverses_of_followParameter success with
      ⟨ps, parameter, file, _, finds, rfl⟩ | ⟨_, _, _, _, _, rfl⟩ | ⟨_, _, rfl⟩
    · obtain ⟨name, rfl⟩ := Prod.mk.inj (Option.some.inj facts)
      exact ⟨ps, parameter, finds, name⟩
    · cases facts
    · cases facts
  · obtain ⟨⟨value, notes, promoted⟩, success, facts⟩ := exists_ok_of_map
      (x := Sample.limits.resolveParameter "getA" (.ref "a.yaml#/parameters/A"))
      (f := fun t => (t.value.isNone, t.notes, t.promoted))
      (b := (true, [.parameterCyclic "#/parameters/C"], [])) (by decide +kernel)
    obtain ⟨absent, rfl, rfl⟩ : value.isNone = true ∧ notes = _ ∧ promoted = _ := by
      simpa using facts
    rw [Option.isNone_iff_eq_none.mp absent] at success
    exact success

end ApiCodec

import Mathlib.Data.List.Perm.Subperm
import ApiCodec.Proofs.Bundle.Lookups

set_option autoImplicit false

namespace ApiCodec

open Document

namespace Registry

variable {α : Type} {registry : List (String × OrRef α)} {kind : PointerKind}

/-- A reference leads to an entry: it is a local pointer of the registry's kind to a name that has
one. -/
structure Addresses (registry : List (String × OrRef α)) (kind : PointerKind) (path : String)
    (p : Pointer) (entry : OrRef α) : Prop where
  parsed : Pointer.parse path = .ok p
  kind : p.kind = kind
  inside : ¬ p.isExternal
  found : Assoc.get? p.name registry = some entry

/-- Why a reference leads to no entry. -/
inductive Refuses (registry : List (String × OrRef α)) (kind : PointerKind) (path : String) :
    ReferenceError → Prop
  | malformed {cause : ReferenceError} (parsed : Pointer.parse path = .error cause) :
      Refuses registry kind path (.invalidPointer path)
  | elsewhere {p : Pointer} (parsed : Pointer.parse path = .ok p) (other : p.kind ≠ kind) :
      Refuses registry kind path (.unsupportedCollection path p.collection)
  | away {p : Pointer} (parsed : Pointer.parse path = .ok p) (same : p.kind = kind)
      (external : p.isExternal) : Refuses registry kind path (.targetNotFound path)
  | absent {p : Pointer} (parsed : Pointer.parse path = .ok p) (same : p.kind = kind)
      (inside : ¬ p.isExternal) (missing : Assoc.get? p.name registry = none) :
      Refuses registry kind path (.targetNotFound path)

/-- The pointers on the way from a node to another, from entry to entry. -/
inductive Passes (registry : List (String × OrRef α)) (kind : PointerKind) :
    OrRef α → List Pointer → OrRef α → Prop
  | nil {node : OrRef α} : Passes registry kind node [] node
  | cons {path : String} {p : Pointer} {entry last : OrRef α} {ps : List Pointer}
      (addresses : Addresses registry kind path p entry) (rest : Passes registry kind entry ps last) :
      Passes registry kind (.ref path) (p :: ps) last

/-- The chain from a node ends in a value. -/
def Reaches (registry : List (String × OrRef α)) (kind : PointerKind) (node : OrRef α) (a : α) :
    Prop :=
  ∃ ps, Passes registry kind node ps (.inline a)

/-- The chain from a node comes back to where it was, and so it never ends. -/
def Circles (registry : List (String × OrRef α)) (kind : PointerKind) (node : OrRef α) : Prop :=
  ∃ ps middle qs, Passes registry kind node ps middle ∧ Passes registry kind middle qs middle ∧
    qs ≠ []

/-- Why the chain from a node ends in no value. One without an end is reported by the reference at
which all entries have been passed. -/
inductive Fails (registry : List (String × OrRef α)) (kind : PointerKind)
    (endless : String → String) (node : OrRef α) : ReferenceError → Prop
  | breaks {ps : List Pointer} {path : String} {cause : ReferenceError}
      (way : Passes registry kind node ps (.ref path)) (refused : Refuses registry kind path cause) :
      Fails registry kind endless node cause
  | circles {ps : List Pointer} {path : String} (circles : Circles registry kind node)
      (way : Passes registry kind node ps (.ref path)) (length : ps.length = registry.length) :
      Fails registry kind endless node (.targetNotFound (endless path))

theorem addresses_or_refuses (registry : List (String × OrRef α)) (kind : PointerKind)
    (path : String) :
    (∃ p entry, Addresses registry kind path p entry) ∨ ∃ cause, Refuses registry kind path cause := by
  cases parsed : Pointer.parse path with
  | error cause => exact Or.inr ⟨_, .malformed parsed⟩
  | ok p =>
      by_cases same : p.kind = kind
      · by_cases external : p.isExternal
        · exact Or.inr ⟨_, .away parsed same external⟩
        · cases found : Assoc.get? p.name registry with
          | none => exact Or.inr ⟨_, .absent parsed same external found⟩
          | some entry => exact Or.inl ⟨p, entry, parsed, same, external, found⟩
      · exact Or.inr ⟨_, .elsewhere parsed same⟩

theorem Addresses.unique {path : String} {p q : Pointer} {entry other : OrRef α}
    (first : Addresses registry kind path p entry) (second : Addresses registry kind path q other) :
    p = q ∧ entry = other := by
  obtain rfl := Except.ok.inj (first.parsed.symm.trans second.parsed)
  exact ⟨rfl, Option.some.inj (first.found.symm.trans second.found)⟩

theorem Addresses.not_refuses {path : String} {p : Pointer} {entry : OrRef α}
    {cause : ReferenceError} (addresses : Addresses registry kind path p entry) :
    ¬ Refuses registry kind path cause := by
  obtain ⟨parsed, kind, inside, found⟩ := addresses
  intro refused
  cases refused with
  | malformed parsed' => cases parsed.symm.trans parsed'
  | elsewhere parsed' other =>
      cases parsed.symm.trans parsed'
      exact other kind
  | away parsed' _ external =>
      cases parsed.symm.trans parsed'
      exact inside external
  | absent parsed' _ _ missing =>
      cases parsed.symm.trans parsed'
      cases found.symm.trans missing

variable {endless : String → String}

theorem chase_of_addresses {path last : String} {p : Pointer} {entry : OrRef α}
    (addresses : Addresses registry kind path p entry) (steps : Nat) :
    Catalog.chase registry kind endless (steps + 1) last (.ref path) =
      Catalog.chase registry kind endless steps path entry := by
  obtain ⟨parsed, same, inside, found⟩ := addresses
  simp only [Catalog.chase, Pointer.expectKind, parsed, if_pos same, found]
  exact if_neg inside

theorem chase_of_refuses {path last : String} {cause : ReferenceError}
    (refused : Refuses registry kind path cause) (steps : Nat) :
    Catalog.chase registry kind endless (steps + 1) last (.ref path) = .error cause := by
  unfold Catalog.chase Pointer.expectKind
  cases refused with
  | malformed parsed => simp only [parsed, Pointer.error_of_parse parsed]
  | elsewhere parsed other => simp only [parsed, if_neg other]
  | away parsed same external => simp only [parsed, if_pos same, external, if_true]
  | absent parsed same inside missing =>
      simp only [parsed, if_pos same, missing]
      exact if_neg inside

namespace Passes

variable {node middle last : OrRef α} {ps qs : List Pointer}

theorem append (first : Passes registry kind node ps middle)
    (second : Passes registry kind middle qs last) : Passes registry kind node (ps ++ qs) last := by
  induction first with
  | nil => exact second
  | cons addresses _ ih => exact .cons addresses (ih second)

/-- A pointer on the way is that of a reference on the way, and leads to where the way goes on. -/
theorem exists_addresses_of_mem (way : Passes registry kind node ps last) {q : Pointer}
    (member : q ∈ ps) :
    ∃ before path entry, Passes registry kind node before (.ref path) ∧
      Addresses registry kind path q entry := by
  induction way with
  | nil => cases member
  | cons addresses _ ih =>
      rcases List.mem_cons.mp member with rfl | member
      · exact ⟨[], _, _, .nil, addresses⟩
      · obtain ⟨before, path, entry, first, addresses'⟩ := ih member
        exact ⟨_ :: before, path, entry, .cons addresses first, addresses'⟩

end Passes

/-- What a number of steps comes to after the references on the way. -/
theorem chase_of_passes {node last : OrRef α} {ps : List Pointer}
    (way : Passes registry kind node ps last) (steps : Nat) (text : String) :
    Catalog.chase registry kind endless (ps.length + (steps + 1)) text node =
      Catalog.chase registry kind endless (steps + 1) "" last := by
  induction way generalizing text with
  | @nil node =>
      rw [List.length_nil, Nat.zero_add]
      cases node <;> rfl
  | cons addresses _ ih =>
      rw [List.length_cons, Nat.add_right_comm, chase_of_addresses addresses, ih]

/-- A number of steps comes to a value, to a reference that leads nowhere, or to its end. -/
theorem chase_cases (registry : List (String × OrRef α)) (kind : PointerKind)
    (endless : String → String) (steps : Nat) (text : String) (node : OrRef α) :
    (∃ a, Reaches registry kind node a ∧
        Catalog.chase registry kind endless (steps + 1) text node = .ok a) ∨
      (∃ ps path cause, Passes registry kind node ps (.ref path) ∧
        Refuses registry kind path cause ∧
        Catalog.chase registry kind endless (steps + 1) text node = .error cause) ∨
      ∃ ps path p entry, ps.length = steps ∧ Passes registry kind node ps (.ref path) ∧
        Addresses registry kind path p entry ∧
        Catalog.chase registry kind endless (steps + 1) text node =
          .error (.targetNotFound (endless path)) := by
  induction steps generalizing text node with
  | zero =>
      cases node with
      | inline a => exact Or.inl ⟨a, ⟨[], .nil⟩, rfl⟩
      | ref path =>
          rcases addresses_or_refuses registry kind path with ⟨p, entry, addresses⟩ |
            ⟨cause, refused⟩
          · exact Or.inr (Or.inr
              ⟨[], path, p, entry, rfl, .nil, addresses, chase_of_addresses addresses 0⟩)
          · exact Or.inr (Or.inl ⟨[], path, cause, .nil, refused, chase_of_refuses refused 0⟩)
  | succ steps ih =>
      cases node with
      | inline a => exact Or.inl ⟨a, ⟨[], .nil⟩, rfl⟩
      | ref path =>
          rcases addresses_or_refuses registry kind path with ⟨p, entry, addresses⟩ |
            ⟨cause, refused⟩
          · rw [chase_of_addresses addresses]
            rcases ih path entry with ⟨a, ⟨ps, way⟩, same⟩ | ⟨ps, raw, cause, way, refused, same⟩ |
              ⟨ps, raw, q, next, length, way, addresses', same⟩
            · exact Or.inl ⟨a, ⟨p :: ps, .cons addresses way⟩, same⟩
            · exact Or.inr (Or.inl ⟨p :: ps, raw, cause, .cons addresses way, refused, same⟩)
            · exact Or.inr (Or.inr ⟨p :: ps, raw, q, next, congrArg (· + 1) length,
                .cons addresses way, addresses', same⟩)
          · exact Or.inr (Or.inl ⟨[], path, cause, .nil, refused, chase_of_refuses refused _⟩)

namespace Circles

theorem of_passes {node middle : OrRef α} {ps : List Pointer}
    (way : Passes registry kind node ps middle) (circles : Circles registry kind middle) :
    Circles registry kind node := by
  obtain ⟨qs, last, rs, onward, loop, moves⟩ := circles
  exact ⟨ps ++ qs, last, rs, way.append onward, loop, moves⟩

/-- Where a chain comes back, a reference leads to an entry from which it comes back. -/
theorem exists_next {node : OrRef α} (circles : Circles registry kind node) :
    ∃ path p entry, node = .ref path ∧ Addresses registry kind path p entry ∧
      Circles registry kind entry := by
  obtain ⟨ps, middle, qs, way, loop, moves⟩ := circles
  cases way with
  | nil =>
      cases loop with
      | nil => exact absurd rfl moves
      | cons addresses rest =>
          exact ⟨_, _, _, rfl, addresses, _, _, _, rest, .cons addresses rest, moves⟩
  | cons addresses rest => exact ⟨_, _, _, rfl, addresses, _, _, _, rest, loop, moves⟩

/-- A chain that comes back goes on wherever it is. -/
theorem goes_on {node last : OrRef α} {ps : List Pointer} (circles : Circles registry kind node)
    (way : Passes registry kind node ps last) :
    ∃ path p entry, last = .ref path ∧ Addresses registry kind path p entry := by
  induction way with
  | nil =>
      obtain ⟨path, p, entry, same, addresses, _⟩ := circles.exists_next
      exact ⟨path, p, entry, same, addresses⟩
  | cons addresses _ ih =>
      obtain ⟨path, p, entry, same, addresses', later⟩ := circles.exists_next
      cases same
      obtain ⟨_, rfl⟩ := addresses.unique addresses'
      exact ih later

theorem not_reaches {node : OrRef α} (circles : Circles registry kind node) (a : α) :
    ¬ Reaches registry kind node a := by
  rintro ⟨ps, way⟩
  obtain ⟨_, _, _, same, _⟩ := circles.goes_on way
  cases same

theorem not_refuses {node : OrRef α} {ps : List Pointer} {path : String} {cause : ReferenceError}
    (circles : Circles registry kind node) (way : Passes registry kind node ps (.ref path)) :
    ¬ Refuses registry kind path cause := by
  obtain ⟨_, _, _, same, addresses⟩ := circles.goes_on way
  cases same
  exact addresses.not_refuses

end Circles

/-- A chain that does not come back takes no name twice. -/
theorem Passes.nodup_names {node last : OrRef α} {ps : List Pointer}
    (way : Passes registry kind node ps last) (ends : ¬ Circles registry kind node) :
    (ps.map Pointer.name).Nodup := by
  induction way with
  | nil => exact List.nodup_nil
  | @cons path p entry last ps addresses rest ih =>
      have onward : Passes registry kind (.ref path) [p] entry := .cons addresses .nil
      rw [List.map_cons, List.nodup_cons]
      refine ⟨fun again => ends (.of_passes onward ?_), ih fun later => ends (.of_passes onward later)⟩
      -- The same name has the same entry, so the chain is there again.
      obtain ⟨q, member, name⟩ := List.mem_map.mp again
      obtain ⟨before, raw, entry', first, addresses'⟩ := rest.exists_addresses_of_mem member
      have same : entry' = entry := by
        have found := addresses'.found
        rw [name] at found
        exact Option.some.inj (found.symm.trans addresses.found)
      subst same
      exact ⟨[], entry', before ++ [q], .nil, first.append (.cons addresses' .nil), by simp⟩

/-- A chain that does not come back passes at most all entries. -/
theorem Passes.length_le {node last : OrRef α} {ps : List Pointer}
    (way : Passes registry kind node ps last) (ends : ¬ Circles registry kind node) :
    ps.length ≤ registry.length := by
  have known : ps.map Pointer.name ⊆ Assoc.keys registry := by
    intro name taken
    obtain ⟨p, member, rfl⟩ := List.mem_map.mp taken
    obtain ⟨_, _, _, _, addresses⟩ := way.exists_addresses_of_mem member
    exact Assoc.mem_keys_iff.mpr ⟨_, addresses.found⟩
  simpa [Assoc.keys] using ((way.nodup_names ends).subperm known).length_le

section

variable (registry : List (String × OrRef α)) (kind : PointerKind) (endless : String → String)

theorem chase_eq_ok_iff (text : String) (node : OrRef α) (a : α) :
    Catalog.chase registry kind endless (registry.length + 1) text node = .ok a ↔
      Reaches registry kind node a := by
  constructor
  · intro success
    rcases chase_cases registry kind endless registry.length text node with
      ⟨b, reached, same⟩ | ⟨_, _, _, _, _, same⟩ | ⟨_, _, _, _, _, _, _, same⟩
    · cases success.symm.trans same
      exact reached
    · cases success.symm.trans same
    · cases success.symm.trans same
  · rintro ⟨ps, way⟩
    have short := way.length_le fun circles => circles.not_reaches a ⟨ps, way⟩
    obtain ⟨left, budget⟩ := Nat.exists_eq_add_of_le short
    rw [budget, Nat.add_assoc, chase_of_passes way]
    rfl

theorem chase_eq_error_iff (text : String) (node : OrRef α) (cause : ReferenceError) :
    Catalog.chase registry kind endless (registry.length + 1) text node = .error cause ↔
      Fails registry kind endless node cause := by
  constructor
  · intro failed
    rcases chase_cases registry kind endless registry.length text node with
      ⟨_, _, same⟩ | ⟨ps, path, _, way, refused, same⟩ |
        ⟨ps, path, p, entry, length, way, addresses, same⟩
    · cases failed.symm.trans same
    · cases failed.symm.trans same
      exact .breaks way refused
    · cases failed.symm.trans same
      refine .circles ?_ way length
      by_contra ends
      have bound := (way.append (.cons addresses .nil)).length_le ends
      rw [List.length_append, List.length_singleton] at bound
      omega
  · intro fails
    cases fails with
    | breaks way refused =>
        have short := way.length_le fun circles => circles.not_refuses way refused
        obtain ⟨left, budget⟩ := Nat.exists_eq_add_of_le short
        rw [budget, Nat.add_assoc, chase_of_passes way, chase_of_refuses refused]
    | circles circles way length =>
        obtain ⟨_, _, _, same, addresses⟩ := circles.goes_on way
        cases same
        rw [← length, ← Nat.zero_add 1, chase_of_passes way, chase_of_addresses addresses]
        rfl

/-- A chain ends in a value or fails. -/
theorem reaches_or_fails (node : OrRef α) :
    (∃ a, Reaches registry kind node a) ∨ ∃ cause, Fails registry kind endless node cause := by
  cases found : Catalog.chase registry kind endless (registry.length + 1) "" node with
  | ok a => exact Or.inl ⟨a, (chase_eq_ok_iff registry kind endless "" node a).mp found⟩
  | error cause =>
      exact Or.inr ⟨cause, (chase_eq_error_iff registry kind endless "" node cause).mp found⟩

end

end Registry

namespace Catalog

/-- How a request body that an endless chain stands for is reported. -/
def cyclicRequestBody (_ : String) : String := "cyclic request body reference"

theorem requestBody_of_given {c : Catalog} {op : Document.Operation} {node : RequestBodyNode}
    (dialect : c.dialect = .openApi3) (given : op.requestBody = some node) :
    c.requestBody op =
      (chase c.requestBodies .requestBody cyclicRequestBody (c.requestBodies.length + 1) "" node).map
        some := by
  unfold requestBody
  rw [dialect, given]
  rfl

theorem requestBody_eq_ok_iff {c : Catalog} {op : Document.Operation} {body : RequestBody} :
    c.requestBody op = .ok (some body) ↔
      c.dialect = .openApi3 ∧ ∃ node, op.requestBody = some node ∧
        Registry.Reaches c.requestBodies .requestBody node body := by
  constructor
  · intro success
    unfold requestBody at success
    split at success
    · rename_i node dialect given
      obtain ⟨found, chased, same⟩ := Shape.map_eq_ok_iff.mp success
      cases Option.some.inj same
      exact ⟨dialect, node, given, (Registry.chase_eq_ok_iff _ _ _ _ _ _).mp chased⟩
    · cases success
  · rintro ⟨dialect, node, given, reaches⟩
    rw [requestBody_of_given dialect given, (Registry.chase_eq_ok_iff _ _ _ _ _ _).mpr reaches]
    rfl

theorem requestBody_eq_error_iff {c : Catalog} {op : Document.Operation} {cause : ReferenceError} :
    c.requestBody op = .error cause ↔
      c.dialect = .openApi3 ∧ ∃ node, op.requestBody = some node ∧
        Registry.Fails c.requestBodies .requestBody cyclicRequestBody node cause := by
  constructor
  · intro failed
    unfold requestBody at failed
    split at failed
    · rename_i node dialect given
      have chased := Shape.map_eq_error_iff.mp failed
      exact ⟨dialect, node, given, (Registry.chase_eq_error_iff _ _ _ _ _ _).mp chased⟩
    · cases failed
  · rintro ⟨dialect, node, given, fails⟩
    rw [requestBody_of_given dialect given, (Registry.chase_eq_error_iff _ _ _ _ _ _).mpr fails]
    rfl

theorem requestBody_eq_none_iff {c : Catalog} {op : Document.Operation} :
    c.requestBody op = .ok none ↔ c.dialect = .swagger2 ∨ op.requestBody = none := by
  constructor
  · intro absent
    cases dialect : c.dialect with
    | swagger2 => exact Or.inl rfl
    | openApi3 =>
        cases given : op.requestBody with
        | none => exact Or.inr rfl
        | some node =>
            rw [requestBody_of_given dialect given] at absent
            obtain ⟨_, _, same⟩ := Shape.map_eq_ok_iff.mp absent
            cases same
  · unfold requestBody
    rintro (dialect | absent)
    · rw [dialect]
    · rw [absent]
      cases c.dialect <;> rfl

end Catalog

open Registry Catalog

/-- Responses and request bodies are found exactly where chains of references through their
registries end, however long these are. A chain that ends in none is reported by what is wrong with
the reference at which it breaks off, or as without an end if it comes back to an entry. -/
theorem registry_chains_resolved (c : Catalog) :
    (∀ node,
      (∀ r, c.response node = .ok r ↔ Reaches c.responses .response node r) ∧
        (∀ cause, c.response node = .error cause ↔ Fails c.responses .response id node cause) ∧
        ((∃ r, Reaches c.responses .response node r) ∨
          ∃ cause, Fails c.responses .response id node cause)) ∧
      (∀ op,
        (∀ body, c.requestBody op = .ok (some body) ↔
          c.dialect = .openApi3 ∧ ∃ node, op.requestBody = some node ∧
            Reaches c.requestBodies .requestBody node body) ∧
        (∀ cause, c.requestBody op = .error cause ↔
          c.dialect = .openApi3 ∧ ∃ node, op.requestBody = some node ∧
            Fails c.requestBodies .requestBody cyclicRequestBody node cause) ∧
        (c.requestBody op = .ok none ↔ c.dialect = .swagger2 ∨ op.requestBody = none)) ∧
      ∀ node, (∃ body, Reaches c.requestBodies .requestBody node body) ∨
        ∃ cause, Fails c.requestBodies .requestBody cyclicRequestBody node cause := by
  refine ⟨fun node => ⟨?_, ?_, ?_⟩, fun op => ⟨?_, ?_, ?_⟩, ?_⟩
  · exact chase_eq_ok_iff c.responses .response id "" node
  · exact chase_eq_error_iff c.responses .response id "" node
  · exact reaches_or_fails c.responses .response id node
  · exact fun _ => requestBody_eq_ok_iff
  · exact fun _ => requestBody_eq_error_iff
  · exact requestBody_eq_none_iff
  · exact reaches_or_fails c.requestBodies .requestBody cyclicRequestBody

end ApiCodec

import ApiCodec.Proofs.Flatten.Identity
import ApiCodec.Proofs.Flatten.Schema

set_option autoImplicit false

namespace ApiCodec

open Document

def Pointer.within (base : Option String) (path : String) : Except ReferenceError Pointer :=
  (parse path).map (·.relativeTo base)

theorem Pointer.within_eq_ok_iff {base : Option String} {path : String} {p : Pointer} :
    Pointer.within base path = .ok p ↔
      ∃ raw, Pointer.parse path = .ok raw ∧ p = raw.relativeTo base := by
  unfold within
  cases parse path with
  | error cause => simp [Except.map]
  | ok raw => simp [Except.map, eq_comm]

theorem Pointer.within_of_parse (base : Option String) {path : String} {raw : Pointer}
    (parsed : Pointer.parse path = .ok raw) :
    Pointer.within base path = .ok (raw.relativeTo base) :=
  within_eq_ok_iff.mpr ⟨raw, parsed, rfl⟩

theorem Pointer.anchored_of_within {base : Option String} {path : String} {p : Pointer}
    (around : FileName base) (points : Pointer.within base path = .ok p) : p.Anchored := by
  obtain ⟨raw, parsed, rfl⟩ := within_eq_ok_iff.mp points
  exact (anchored_of_parse parsed).relativeTo around

/-- What stands in another file points into a file. -/
theorem Pointer.isExternal_of_within {file path : String} {p : Pointer}
    (points : Pointer.within (some file) path = .ok p) : p.isExternal := by
  obtain ⟨raw, _, rfl⟩ := within_eq_ok_iff.mp points
  exact isExternal_relativeTo_some raw file

/-- What following a reference comes to: an external pointer is followed, a local one becomes a name
if it addresses a definition. -/
theorem resolve_eq_ok {follow : Pointer → Transform Notice Node} {base : Option String}
    {path : String} {t : Traced Notice Node} (success : resolve follow base path = .ok t) :
    ∃ p, Pointer.within base path = .ok p ∧
      ((p.isExternal ∧ follow p = .ok t) ∨
        (¬ p.isExternal ∧ p.kind = .definition ∧ t = ⟨.ref p.name, [], []⟩) ∨
        (¬ p.isExternal ∧ p.kind ≠ .definition ∧
          t = ⟨.inline .untyped, [.untypedPointer path], []⟩)) := by
  unfold resolve at success
  cases parsed : Pointer.parse path with
  | error cause => simp [parsed] at success
  | ok raw =>
      simp only [parsed] at success
      refine ⟨raw.relativeTo base, Pointer.within_of_parse _ parsed, ?_⟩
      split at success
      · rename_i external
        exact Or.inl ⟨external, success⟩
      · rename_i inside
        split at success
        · rename_i definition
          exact Or.inr (Or.inl ⟨inside, definition, Transform.value_eq_ok_iff.mp success⟩)
        · rename_i other
          simp only [Transform.bind_eq_ok_iff, Transform.note_eq_ok_iff,
            Transform.pure_eq_ok_iff] at success
          obtain ⟨_, _, rfl, rfl, rfl⟩ := success
          exact Or.inr (Or.inr ⟨inside, other, rfl⟩)

/-- Why following a reference fails: it is no pointer, or it leads into another file and following it
there fails. -/
theorem resolve_eq_error {follow : Pointer → Transform Notice Node} {base : Option String}
    {path : String} {e : TransformError} (failed : resolve follow base path = .error e) :
    (∃ cause, Pointer.parse path = .error cause ∧ e = .reference cause) ∨
      ∃ p, Pointer.within base path = .ok p ∧ p.isExternal ∧ follow p = .error e := by
  unfold resolve at failed
  split at failed
  · rename_i cause parsed
    exact Or.inl ⟨cause, parsed, (Except.error.inj failed).symm⟩
  · rename_i raw parsed
    simp only at failed
    split at failed
    · rename_i external
      exact Or.inr ⟨_, Pointer.within_of_parse _ parsed, external, failed⟩
    · split at failed <;> cases failed

/-- A local reference becomes a name if it addresses a definition, and says nothing if not. -/
theorem normalizeNode_local (follow : Pointer → Transform Notice Node) {base : Option String}
    {path : String} {p : Pointer} (points : Pointer.within base path = .ok p)
    (inside : ¬ p.isExternal) :
    normalizeNode follow base (.ref path) =
      if p.kind = .definition then .ok ⟨.ref p.name, [], []⟩
      else .ok ⟨.inline .untyped, [.untypedPointer path], []⟩ := by
  obtain ⟨raw, parsed, rfl⟩ := Pointer.within_eq_ok_iff.mp points
  simp only [normalizeNode, resolve, parsed]
  rw [if_neg inside]
  split
  · rename_i definition
    exact (if_pos definition).symm
  · rename_i other
    exact (if_neg other).symm

/-- A part of a schema stands in it, or it only names a type. -/
theorem mem_outline_parts {schema : Schema} {part : Slot × SchemaNode}
    (member : part ∈ schema.outline.parts) :
    sizeOf part.2 < sizeOf schema ∨ ∃ type : DataType, part.2 = .inline (.ofType type.schemaType) := by
  have inside : ∀ {nodes : List SchemaNode}, sizeOf nodes < sizeOf schema → ∀ node ∈ nodes,
      sizeOf node < sizeOf schema := by
    intro nodes smaller node member
    have := List.sizeOf_lt_of_mem member
    omega
  obtain ⟨types, format, title, description, default, nullable, properties, required, additional,
    items, allOf, oneOf, anyOf, discriminator, values, limits, example?, disjoint,
    extensibleValues, importFrom⟩ := schema
  simp only [Schema.outline, List.mem_append, List.mem_map, Option.mem_toList] at member
  rcases member with ((⟨property, hproperty, rfl⟩ | ⟨node, hnode, rfl⟩) | ⟨node, hnode, rfl⟩) |
    ⟨node, hnode, rfl⟩
  · left
    have entry := List.sizeOf_lt_of_mem hproperty
    obtain ⟨name, node⟩ := property
    simp only [Prod.mk.sizeOf_spec, Schema.mk.sizeOf_spec] at entry ⊢
    omega
  · left
    rcases items with _ | (one | (_ | ⟨first, rest⟩))
    · cases hnode
    · cases Option.some.inj hnode
      simp only [Schema.mk.sizeOf_spec, Option.some.sizeOf_spec, ItemsSchema.one.sizeOf_spec]
      omega
    · cases hnode
    · cases Option.some.inj hnode
      simp only [Schema.mk.sizeOf_spec, Option.some.sizeOf_spec, ItemsSchema.list.sizeOf_spec,
        List.cons.sizeOf_spec]
      omega
  · left
    rcases additional with _ | (allowed | values)
    · cases hnode
    · cases hnode
    · cases Option.some.inj hnode
      simp only [Schema.mk.sizeOf_spec, Option.some.sizeOf_spec, AdditionalSchema.node.sizeOf_spec]
      omega
  · unfold Schema.members at hnode
    split at hnode
    · exact Or.inl (inside (by simp only [Schema.mk.sizeOf_spec]; omega) _ hnode)
    · split at hnode
      · exact Or.inl (inside (by simp only [Schema.mk.sizeOf_spec]; omega) _ hnode)
      · split at hnode
        · exact Or.inl (inside (by simp only [Schema.mk.sizeOf_spec]; omega) _ hnode)
        · obtain ⟨type, _, rfl⟩ := List.mem_map.mp hnode
          exact Or.inr ⟨type, rfl⟩

namespace Sources

/-- Following a pointer, without the proofs that it ends. -/
theorem follow_eq (s : Sources) (stack : List String) (p : Pointer) :
    s.follow stack p =
      match Assoc.get? p.key s.aliases with
      | some name => .value (.ref name)
      | none =>
          if p.key ∈ stack then do
            Transform.promote p
            return .ref (s.publishedName p)
          else
            match s.load SchemaNode.read p with
            | .error e => .fail e
            | .ok node => normalizeNode (s.follow (p.key :: stack)) p.file node := by
  rw [follow]
  cases Assoc.get? p.key s.aliases with
  | some name => rfl
  | none =>
      by_cases around : p.key ∈ stack
      · simp only [around, dif_pos, if_pos]
      · simp only [around, dif_neg, if_neg, not_false_iff]
        split
        · rename_i e failed
          simp only [failed]
        · rename_i node loaded
          simp only [loaded]

inductive Followed (s : Sources) (stack : List String) (p : Pointer) (t : Traced Notice Node) : Prop
  | published (name : String) (known : Assoc.get? p.key s.aliases = some name)
      (result : t = ⟨.ref name, [], []⟩)
  | cyclic (absent : Assoc.get? p.key s.aliases = none) (around : p.key ∈ stack)
      (result : t = ⟨.ref (s.publishedName p), [], [p]⟩)
  | placed (absent : Assoc.get? p.key s.aliases = none) (fresh : p.key ∉ stack) (node : SchemaNode)
      (loaded : s.load SchemaNode.read p = .ok node)
      (success : normalizeNode (s.follow (p.key :: stack)) p.file node = .ok t)

theorem followed_of_follow {s : Sources} {stack : List String} {p : Pointer}
    {t : Traced Notice Node} (success : s.follow stack p = .ok t) : s.Followed stack p t := by
  rw [follow_eq] at success
  split at success
  · rename_i name known
    exact .published name known (Transform.value_eq_ok_iff.mp success)
  · rename_i absent
    split at success
    · rename_i around
      simp only [Transform.bind_eq_ok_iff, Transform.promote_eq_ok_iff,
        Transform.pure_eq_ok_iff] at success
      obtain ⟨_, _, rfl, rfl, rfl⟩ := success
      exact .cyclic absent around rfl
    · rename_i fresh
      split at success
      · exact absurd success Transform.fail_ne_ok
      · rename_i node loaded
        exact .placed absent fresh node loaded success

/-- The cases along the way from nodes to their form. -/
structure Cases (s : Sources)
    (motive : List String → Option String → SchemaNode → Traced Notice Node → Prop) : Prop where
  published : ∀ {stack base path p name}, Pointer.within base path = .ok p → p.isExternal →
    Assoc.get? p.key s.aliases = some name → motive stack base (.ref path) ⟨.ref name, [], []⟩
  cyclic : ∀ {stack base path p}, Pointer.within base path = .ok p → p.isExternal →
    Assoc.get? p.key s.aliases = none → p.key ∈ stack →
    motive stack base (.ref path) ⟨.ref (s.publishedName p), [], [p]⟩
  placed : ∀ {stack base path p node t}, Pointer.within base path = .ok p → p.isExternal →
    Assoc.get? p.key s.aliases = none → p.key ∉ stack → s.load SchemaNode.read p = .ok node →
    normalizeNode (s.follow (p.key :: stack)) p.file node = .ok t →
    motive (p.key :: stack) p.file node t → motive stack base (.ref path) t
  named : ∀ {stack base path p}, Pointer.within base path = .ok p → ¬ p.isExternal →
    p.kind = .definition → motive stack base (.ref path) ⟨.ref p.name, [], []⟩
  untyped : ∀ {stack base path p}, Pointer.within base path = .ok p → ¬ p.isExternal →
    p.kind ≠ .definition →
    motive stack base (.ref path) ⟨.inline .untyped, [.untypedPointer path], []⟩
  inline : ∀ {stack base schema t found}, Outlined (s.follow stack) base schema t found →
    (∀ part u, (part, u) ∈ schema.outline.parts.zip found → motive stack base part.2 u.2) →
    motive stack base (.inline schema) ⟨.inline t.value, t.notes, t.promoted⟩

theorem inline_eq_ok {follow : Pointer → Transform Notice Node} {base : Option String}
    {schema : Schema} {t : Traced Notice Node}
    (success : normalizeNode follow base (.inline schema) = .ok t) :
    ∃ u found, Outlined follow base schema u found ∧ t = ⟨.inline u.value, u.notes, u.promoted⟩ := by
  simp only [normalizeNode, Transform.bind_eq_ok_iff, Transform.pure_eq_ok_iff] at success
  obtain ⟨u, _, normalized, rfl, rfl⟩ := success
  obtain ⟨found, outlined⟩ := outlined_of_normalizeSchema normalized
  exact ⟨u, found, outlined, by simp⟩

theorem Cases.ofType {s : Sources}
    {motive : List String → Option String → SchemaNode → Traced Notice Node → Prop}
    (cases : s.Cases motive) {stack : List String} {base : Option String} {type : DataType}
    {t : Traced Notice Node}
    (success : normalizeNode (s.follow stack) base (.inline (.ofType type.schemaType)) = .ok t) :
    motive stack base (.inline (.ofType type.schemaType)) t := by
  obtain ⟨u, found, outlined, rfl⟩ := inline_eq_ok success
  refine cases.inline outlined ?_
  intro part v member
  have none : (Schema.ofType type.schemaType).outline.parts = [] := rfl
  rw [none] at member
  cases member

/-- Induction along the way from a node to its form: over the targets that are still to be put in
place, then over the node. -/
theorem normalizeNode_induction {s : Sources}
    {motive : List String → Option String → SchemaNode → Traced Notice Node → Prop}
    (cases : s.Cases motive) (stack : List String) (base : Option String) (node : SchemaNode)
    (t : Traced Notice Node) (success : normalizeNode (s.follow stack) base node = .ok t) :
    motive stack base node t := by
  match node with
  | .ref path =>
      obtain ⟨p, points, external | ⟨inside, definition, rfl⟩ | ⟨inside, other, rfl⟩⟩ :=
        resolve_eq_ok success
      · obtain ⟨external, followed⟩ := external
        rcases followed_of_follow followed with
          ⟨name, known, rfl⟩ | ⟨absent, around, rfl⟩ | ⟨absent, fresh, node, loaded, success⟩
        · exact cases.published points external known
        · exact cases.cyclic points external absent around
        · exact cases.placed points external absent fresh loaded success
            (normalizeNode_induction cases _ _ node t success)
      · exact cases.named points inside definition
      · exact cases.untyped points inside other
  | .inline schema =>
      obtain ⟨u, found, outlined, rfl⟩ := inline_eq_ok success
      refine cases.inline outlined ?_
      intro part v member
      have success : normalizeNode (s.follow stack) base part.2 = .ok v.2 :=
        (List.forall₂_iff_zip.mp outlined.gathered.each |>.2 member).2
      rcases mem_outline_parts (List.of_mem_zip member).1 with smaller | ⟨type, same⟩
      · exact normalizeNode_induction cases stack base part.2 v.2 success
      · rw [same] at success ⊢
        exact cases.ofType success
termination_by (s.fragments.keys.countP fun key => !stack.contains key, sizeOf node)
decreasing_by
  · exact Prod.Lex.left _ _ (NameSet.countP_lt_countP (key_mem_of_load loaded) fresh)
  · exact Prod.Lex.right _ (by simp only [SchemaNode.inline.sizeOf_spec]; omega)

end Sources

end ApiCodec

import ApiCodec.Proofs.Flatten.Promotion
import ApiCodec.Proofs.Unfold.Unfolding

set_option autoImplicit false

/-!
Flattening preserves what names stand for. A document with its files is a structure to unfold, where
every reference is a link to its target; so are the definitions of a model, where every name is a
link to its definition. Both have the same trees.

Where a target is put in place of a pointer, the document moves on to the target while the model
stays; the targets around it are then one more, and there are only so many of them.
-/

namespace ApiCodec

open Document

/-- Whether a node says nothing but `allOf`. -/
def Face.isBareAllOf (face : Face) : Bool :=
  face.type.isNone && !face.nullable && face.format.isNone && face.required.isEmpty &&
    face.additional.isNone && face.enumeration.isNone && face.composition = some .allOf &&
    face.constraints = {} && face.default.isNone && face.title.isNone &&
    face.description.isNone && face.importFrom.isNone

namespace Outline

variable {α : Type}

/-- The only member of a node that is nothing but an `allOf` of one member. -/
def single? (o : Outline α) : Option α :=
  match o.face.isBareAllOf, o.parts with
  | true, [(.member, part)] => some part
  | _, _ => none

theorem single?_map {β : Type} (f : α → β) (o : Outline α) : (o.map f).single? = o.single?.map f := by
  obtain ⟨face, parts⟩ := o
  unfold single? map
  simp only
  cases face.isBareAllOf with
  | false => rfl
  | true =>
      rcases parts with _ | ⟨⟨slot, part⟩, _ | ⟨other, rest⟩⟩
      · rfl
      · cases slot <;> rfl
      · cases slot <;> rfl

end Outline

namespace View

variable {α β : Type}

/-- A node that is nothing but an `allOf` of one member is looked through. -/
def ofOutline (o : Outline α) : View α :=
  match o.single? with
  | some next => .link next
  | none => .node o

/-- The same, but only where the member is of some kind. -/
def ofOutlineWhere (kind : α → Bool) (o : Outline α) : View α :=
  match o.single?.filter kind with
  | some next => .link next
  | none => .node o

theorem ofOutlineWhere_eq_node {kind : α → Bool} {o : Outline α}
    (closed : (o.single?.filter kind).isNone) : ofOutlineWhere kind o = .node o := by
  unfold ofOutlineWhere
  rw [Option.isNone_iff_eq_none.mp closed]

theorem ofOutline_cases {R : α → β → Prop} {o : Outline α} {o' : Outline β}
    (alike : Outline.Alike R o o') :
    (∃ p q, ofOutline o = .link p ∧ ofOutline o' = .link q ∧ R p q) ∨
      (ofOutline o = .node o ∧ ofOutline o' = .node o') := by
  obtain ⟨face, parts⟩ := o
  obtain ⟨face', parts'⟩ := o'
  obtain ⟨same, each⟩ := alike
  simp only at same each
  subst same
  unfold ofOutline Outline.single?
  simp only
  cases face.isBareAllOf with
  | false => exact Or.inr ⟨rfl, rfl⟩
  | true =>
      cases each with
      | nil => exact Or.inr ⟨rfl, rfl⟩
      | @cons p q ps qs head rest =>
          obtain ⟨slot, part⟩ := p
          obtain ⟨slot', part'⟩ := q
          obtain ⟨rfl, related⟩ := head
          cases rest with
          | nil =>
              cases slot with
              | member => exact Or.inl ⟨part, part', rfl, rfl, related⟩
              | property name => exact Or.inr ⟨rfl, rfl⟩
              | items => exact Or.inr ⟨rfl, rfl⟩
              | values => exact Or.inr ⟨rfl, rfl⟩
          | cons _ _ => cases slot <;> exact Or.inr ⟨rfl, rfl⟩

end View

/-- Definitions as a structure to unfold. A name is a link to its definition; `look` says what is
seen of a node. -/
def nodeView (look : Outline Node → View Node) (definitions : Definitions) : Node → View Node
  | .ref name =>
      match Assoc.get? name definitions with
      | some definition => .link (.inline definition)
      | none => .missing name
  | .inline definition => look definition.outline

theorem nodeView_ref {look : Outline Node → View Node} {definitions : Definitions} {name : String}
    {definition : Definition} (known : Assoc.get? name definitions = some definition) :
    nodeView look definitions (.ref name) = .link (.inline definition) := by
  simp only [nodeView, known]

namespace Workspace

/-- A document with its files as a structure to unfold. A reference is a link to its target: a
definition at the top or a node of a file; a local reference to anything else is a node that says
nothing. -/
def view (w : Workspace) (look : Outline Site → View Site) : Site → View Site
  | ⟨base, .inline schema⟩ => look (schema.outline.map (Site.mk base))
  | ⟨base, .ref path⟩ =>
      match Pointer.within base path with
      | .error _ => .missing path
      | .ok p =>
          if p.isExternal then
            match w.sources.load SchemaNode.read p with
            | .error _ => .missing p.key
            | .ok node => .link ⟨p.file, node⟩
          else if p.kind = .definition then
            match Assoc.get? p.name w.catalog.definitions with
            | none => .missing p.name
            | some node => .link ⟨none, node⟩
          else .node ⟨Definition.untyped.face, []⟩

variable {w : Workspace} {a : Assembly}

theorem view_external {look : Outline Site → View Site} {base : Option String} {path : String}
    {p : Pointer} {node : SchemaNode}
    (points : Pointer.within base path = .ok p) (external : p.isExternal)
    (loaded : w.sources.load SchemaNode.read p = .ok node) :
    w.view look ⟨base, .ref path⟩ = .link ⟨p.file, node⟩ := by
  simp only [view, points, external, if_true, loaded]

theorem view_local {base : Option String} {path : String} {p : Pointer}
    (points : Pointer.within base path = .ok p) (inside : ¬ p.isExternal) :
    w.view .ofOutline ⟨base, .ref path⟩ =
      if p.kind = .definition then
        match Assoc.get? p.name w.catalog.definitions with
        | none => .missing p.name
        | some node => .link ⟨none, node⟩
      else .node ⟨Definition.untyped.face, []⟩ := by
  have inside : p.isExternal = false := by simpa using inside
  simp [view, points, inside]

/-- A node of a model is what the run made of a place of the document. -/
structure Placing (w : Workspace) (a : Assembly) (s : Sources) (stack : List String)
    (t : Traced Notice Node) (x : Node) (y : Site) : Prop where
  fragments : s.fragments = w.sources.fragments
  success : normalizeNode (s.follow stack) y.base y.node = .ok t
  value : t.value = x
  follows : ∀ around p, s.Meets stack y.base y.node around p → w.Follows a s around p
  mentions : y.base = none → ∀ path, y.node.Mentions path →
    ∃ entry ∈ w.catalog.definitions, entry.2.Mentions path

/-- A node of a model is what the run made of a place, with at most `k` targets to be put in place
inside it. -/
def Placed (w : Workspace) (a : Assembly) (k : Nat) (x : Node) (y : Site) : Prop :=
  ∃ s stack t, w.Placing a s stack t x y ∧
    k = w.sources.fragments.keys.countP fun key => !stack.contains key

/-- A node of a model stands for a place, or for that to which the place is a link. -/
def StandsFor (w : Workspace) (a : Assembly) (k : Nat) (x : Node) (y : Site) : Prop :=
  w.Placed a k x y ∨ ∃ k' y', k' < k ∧ w.view .ofOutline y = .link y' ∧ w.Placed a k' x y'

theorem Follows.fragments {s : Sources} {around : List String} {p : Pointer}
    (follows : w.Follows a s around p) : s.fragments = w.sources.fragments := by
  obtain ⟨before, later, _, rfl⟩ := follows.stage
  rfl

theorem load_congr_fragments {s s' : Sources} (fragments : s.fragments = s'.fragments)
    (p : Pointer) : s.load SchemaNode.read p = s'.load SchemaNode.read p := by
  unfold Sources.load
  rw [fragments]

/-- A name is followed to what the run made of its definition, past the definition that only says
that it is another name. -/
theorem steps_of_definition {definitions : Definitions} {name : String} {x : Node}
    (known : Assoc.get? name definitions = some (Sources.definitionOf x)) :
    ∃ n, View.Steps (nodeView .ofOutline definitions) (n + 1) (.ref name) x := by
  have first : nodeView .ofOutline definitions (.ref name) =
      .link (.inline (Sources.definitionOf x)) := nodeView_ref known
  cases x with
  | inline definition => exact ⟨0, .step first (.refl _)⟩
  | ref other => exact ⟨1, .step first (.step rfl (.refl _))⟩

/-- A name that stands for a target is followed to what the run made of it. -/
theorem steps_of_denotes {name : String} {p : Pointer}
    (external : p.isExternal) (denotes : w.Denotes a name p) :
    ∃ n x k node, View.Steps (nodeView .ofOutline a.definitions) (n + 1) (.ref name) x ∧
      w.sources.load SchemaNode.read p = .ok node ∧ w.Placed a k x ⟨p.file, node⟩ := by
  obtain ⟨_, s, node, t, visits, loaded, materialized, known⟩ := denotes
  obtain ⟨node', u, loaded', success, rfl⟩ := Sources.materialize_eq_ok_iff.mp materialized
  cases Except.ok.inj (loaded.symm.trans loaded')
  obtain ⟨before, later, _, rfl⟩ := visits.stage
  obtain ⟨n, steps⟩ := steps_of_definition known
  refine ⟨n, u.value, _, node, steps, loaded, w.sources.after before, [p.key], u,
    ⟨rfl, success, rfl, ?_, ?_⟩, rfl⟩
  · exact fun around q met => ⟨_, _, node, visits, met⟩
  · intro away
    obtain ⟨file, known⟩ := Pointer.exists_file external
    rw [known] at away
    cases away

section

variable (assembled : w.Assembled a) (keys : (Assoc.keys w.catalog.definitions).Nodup)
  (faithful : w.Faithful a) (foreign : ∀ p ∈ a.published, ¬ w.LocalName p.name)

include assembled keys faithful

/-- A name at the top is followed to what the run made of its node. -/
theorem steps_of_declared {name : String} {node : SchemaNode}
    (member : (name, node) ∈ w.catalog.definitions) :
    ∃ n x k, View.Steps (nodeView .ofOutline a.definitions) (n + 1) (.ref name) x ∧
      w.StandsFor a k x ⟨none, node⟩ := by
  obtain ⟨t, declared, top, _⟩ := assembled.declared_eq keys member
  have known : Assoc.get? name a.definitions = some t.value := by
    rw [(faithful.own name (List.mem_map.mpr ⟨_, member, rfl⟩)).2]
    exact declared
  have mentions : ∀ path, node.Mentions path →
      ∃ entry ∈ w.catalog.definitions, entry.2.Mentions path :=
    fun path mentioned => ⟨_, member, mentioned⟩
  cases top with
  | @target path p _ points external materialized =>
      obtain ⟨node', u, loaded, success, rfl⟩ := Sources.materialize_eq_ok_iff.mp materialized
      obtain ⟨n, steps⟩ := steps_of_definition known
      refine ⟨n, u.value, _, steps, Or.inr ⟨_, ⟨p.file, node'⟩, Nat.lt_succ_self _,
        view_external points external loaded, w.sources, [p.key], u, ⟨rfl, success, rfl, ?_, ?_⟩,
        rfl⟩⟩
      · exact fun around q met => ⟨_, _, node', .target member points external loaded, met⟩
      · intro away
        obtain ⟨file, known⟩ := Pointer.exists_file external
        rw [known] at away
        cases away
  | @named path p points inside definition =>
      obtain ⟨n, steps⟩ := steps_of_definition (x := .ref p.name) known
      have success : normalizeNode (w.sources.follow []) none (.ref path) =
          .ok ⟨.ref p.name, [], []⟩ := by
        simpa [definition] using normalizeNode_local (w.sources.follow []) points inside
      refine ⟨n, .ref p.name, _, steps, Or.inl ⟨w.sources, [], _, ⟨rfl, success, rfl, ?_, ?_⟩, rfl⟩⟩
      · exact fun around q met => absurd met (Sources.not_meets_local points inside)
      · exact fun _ => mentions
  | @untyped path p points inside other =>
      obtain ⟨n, steps⟩ := steps_of_definition (x := .inline .untyped) known
      have success : normalizeNode (w.sources.follow []) none (.ref path) =
          .ok ⟨.inline .untyped, [.untypedPointer path], []⟩ := by
        simpa [other] using normalizeNode_local (w.sources.follow []) points inside
      refine ⟨n, .inline .untyped, _, steps,
        Or.inl ⟨w.sources, [], _, ⟨rfl, success, rfl, ?_, ?_⟩, rfl⟩⟩
      · exact fun around q met => absurd met (Sources.not_meets_local points inside)
      · exact fun _ => mentions
  | inline success =>
      obtain ⟨n, steps⟩ := steps_of_definition (x := .inline t.value) known
      refine ⟨n, .inline t.value, _, steps,
        Or.inl ⟨w.sources, [], _, ⟨rfl, success, rfl, ?_, ?_⟩, rfl⟩⟩
      · exact fun around q met => ⟨_, _, _, .declared member, met⟩
      · exact fun _ => mentions

include foreign

omit keys faithful in
/-- A name that the document uses but does not declare is that of no definition in the end. -/
theorem absent_of_localName {name : String} (used : w.LocalName name)
    (known : Assoc.get? name w.catalog.definitions = none) : Assoc.get? name a.definitions = none := by
  have held : a.holder? name = none := by
    rw [Assembly.holder?_eq_none_iff]
    rintro q hq same
    exact foreign q hq (same ▸ used)
  rw [Assembly.get?_definitions, held]
  change Assoc.get? name a.declared = none
  rw [Assoc.get?_eq_none_iff, assembled.keys_declared, ← Assoc.get?_eq_none_iff]
  exact known

omit assembled keys faithful foreign in
/-- A schema in place and the definition that it became have the same face, and their parts stand for
each other. -/
theorem matches_of_inline {s : Sources} {stack : List String} {t : Traced Notice Node} {x : Node}
    {base : Option String} {schema : Schema}
    (placing : w.Placing a s stack t x ⟨base, .inline schema⟩) (k : Nat) :
    View.Matches (w.StandsFor a) (nodeView .ofOutline a.definitions) (w.view .ofOutline) k x
      ⟨base, .inline schema⟩ := by
  obtain ⟨fragments, success, rfl, follows, mentions⟩ := placing
  obtain ⟨u, found, outlined, rfl⟩ := Sources.inline_eq_ok success
  have alike : Outline.Alike (fun p q => ∃ k', w.StandsFor a k' p q) u.value.outline
      (schema.outline.map (Site.mk base)) := by
    refine ⟨outlined.face, ?_⟩
    rw [outlined.parts, Outline.map, List.forall₂_map_left_iff, List.forall₂_map_right_iff]
    refine forall₂_flip_of_zip outlined.gathered.each ?_
    rintro part f paired ⟨slot, success⟩
    have member := (List.of_mem_zip paired).1
    refine ⟨slot.symm, _, Or.inl ⟨s, stack, f.2, ⟨fragments, success, rfl, ?_, ?_⟩, rfl⟩⟩
    · exact fun around q met => follows around q (.part member met)
    · exact fun home path mentioned => mentions home path (.part member mentioned)
  rcases View.ofOutline_cases alike with ⟨p, q, left, right, k', related⟩ | ⟨left, right⟩
  · exact .move (n := 0) (.step left (.refl _)) right related
  · exact .node ⟨0, _, .refl _, left⟩ right alike

theorem matches_of_placed {k : Nat} {x : Node} {y : Site} (placed : w.Placed a k x y) :
    View.Matches (w.StandsFor a) (nodeView .ofOutline a.definitions) (w.view .ofOutline) k x y := by
  obtain ⟨s, stack, t, placing, rfl⟩ := placed
  obtain ⟨base, node⟩ := y
  cases node with
  | ref path =>
      obtain ⟨fragments, success, rfl, follows, mentions⟩ := placing
      obtain ⟨p, points, found⟩ := resolve_eq_ok success
      -- A name given for a pointer into a file is followed to the target; the document moves too.
      have named : ∀ name, p.isExternal → s.Names stack p name →
          View.Matches (w.StandsFor a) (nodeView .ofOutline a.definitions) (w.view .ofOutline)
            (w.sources.fragments.keys.countP fun key => !stack.contains key) (.ref name)
            ⟨base, .ref path⟩ := by
        intro name external names
        have denotes := faithful.faithful s stack p name (follows _ _ (.here points external)) names
        obtain ⟨n, x, k, node, steps, loaded, placed⟩ := steps_of_denotes external denotes
        exact .move steps (view_external points external loaded) (Or.inl placed)
      rcases found with ⟨external, followed⟩ | ⟨inside, definition, rfl⟩ | ⟨inside, other, rfl⟩
      · rcases Sources.followed_of_follow followed with
          ⟨name, known, rfl⟩ | ⟨absent, around, rfl⟩ | ⟨absent, fresh, node, loaded, success⟩
        · exact named name external (Or.inl known)
        · exact named _ external (Or.inr ⟨⟨absent, around⟩, rfl⟩)
        · have loadedHere := load_congr_fragments fragments p ▸ loaded
          refine .stay (view_external points external loadedHere) ?_
            (Or.inl ⟨s, p.key :: stack, t, ⟨fragments, success, rfl, ?_, ?_⟩, rfl⟩)
          · exact NameSet.countP_lt_countP (fragments ▸ Sources.key_mem_of_load loaded) fresh
          · exact fun around q met =>
              follows around q (.target points external absent fresh loaded met)
          · intro away
            obtain ⟨file, known⟩ := Pointer.exists_file external
            simp only [known] at away
            cases away
      · cases base with
        | some file => exact absurd (Pointer.isExternal_of_within points) inside
        | none =>
            have view := view_local (w := w) points inside
            rw [if_pos definition] at view
            cases known : Assoc.get? p.name w.catalog.definitions with
            | some node =>
                rw [known] at view
                obtain ⟨n, x, k, steps, stands⟩ :=
                  steps_of_declared assembled keys faithful (Assoc.mem_of_get? known)
                exact .move steps view stands
            | none =>
                rw [known] at view
                refine .missing ⟨0, _, .refl _, ?_⟩ view
                obtain ⟨entry, member, mentioned⟩ := mentions rfl path .here
                have used : w.LocalName p.name :=
                  Or.inl ⟨entry, member, path, p, mentioned, points, inside, definition, rfl⟩
                simp only [nodeView, absent_of_localName assembled foreign used known]
                rfl
      · have view := view_local (w := w) points inside
        rw [if_neg other] at view
        exact .node ⟨0, _, .refl _, rfl⟩ view ⟨rfl, .nil⟩
  | inline schema => exact matches_of_inline placing _

theorem matches_of_standsFor (k : Nat) (x : Node) (y : Site) (stands : w.StandsFor a k x y) :
    View.Matches (w.StandsFor a) (nodeView .ofOutline a.definitions) (w.view .ofOutline) k x y := by
  rcases stands with placed | ⟨k', y', less, view, placed⟩
  · exact matches_of_placed assembled keys faithful foreign placed
  · exact .stay view less (Or.inl placed)

end

end Workspace

/-- Every name at the top unfolds to the same tree in the model as in the document, to every depth, if
the names at the top are distinct and the names under which targets are published are, too, none of
them a name at the top or that of a local pointer; and if each pointer to a whole file that closes a
cycle gives the name under which its target is published. -/
theorem flattening_preserves_unfolding {document : Document} {fragments : Fragments} {a : Assembly}
    (keys : (Assoc.keys (Catalog.ofDocument document).definitions).Nodup)
    (success : (Workspace.ofDocument document fragments).assemble = .ok a)
    (distinct : (a.published.map (·.name)).Nodup)
    (free : ∀ p ∈ a.published, p.name ∉ Assoc.keys (Catalog.ofDocument document).definitions)
    (foreign : ∀ p ∈ a.published, ¬ (Workspace.ofDocument document fragments).LocalName p.name)
    (steady : ∀ s around p, (Workspace.ofDocument document fragments).Follows a s around p →
      s.Cyclic around p → p.fragment = "" →
      ∀ q ∈ a.published, q.target.key = p.key → q.name = s.publishedName p)
    {name : String} {node : SchemaNode}
    (member : (name, node) ∈ (Catalog.ofDocument document).definitions) (depth : Nat) :
    View.unfolding (nodeView .ofOutline a.definitions) depth (.ref name) =
      View.unfolding ((Workspace.ofDocument document fragments).view .ofOutline) depth ⟨none, node⟩ := by
  have assembled := Workspace.assembled_of_assemble success
  have held : ∀ title ∈ Assoc.keys (Catalog.ofDocument document).definitions,
      a.holder? title = none := by
    intro title declared
    rw [Assembly.holder?_eq_none_iff]
    rintro p hp rfl
    exact free p hp declared
  have faithful := assembled.faithful_of_separate rfl rfl keys
    ⟨(assembled.free_iff rfl).mp held, distinct, steady⟩
  obtain ⟨n, x, k, steps, stands⟩ :=
    Workspace.steps_of_declared assembled keys faithful member
  rw [View.unfolding_of_steps steps]
  exact View.unfolding_eq_of_simulation
    (Workspace.matches_of_standsFor assembled keys faithful foreign) depth k x _ stands

/-- The only local pointer of the small document with a cycle leads to a name that is not declared. -/
theorem Sample.graph_localName :
    ¬ (Workspace.ofDocument Sample.graph Sample.graphFiles).LocalName "GraphNode" := by
  rintro (⟨entry, member, path, p, mentioned, points, inside, _, named⟩ | ⟨site, member, _⟩)
  · rcases List.mem_pair.mp member with rfl | rfl
    · cases mentioned with
      | part there _ => cases there
    · cases mentioned with
      | part there inner =>
          rcases List.mem_pair.mp there with rfl | rfl
          · cases inner
            cases Except.ok.inj points
            exact inside rfl
          · cases inner
            cases Except.ok.inj points
            exact absurd named (by decide +kernel)
  · cases member

/-- In the small document with a cycle, a tree without end stays the same. -/
theorem unfolding_graph :
    ∃ a, (Workspace.ofDocument Sample.graph Sample.graphFiles).assemble = .ok a ∧
      a.published.map (·.name) = ["GraphNode"] ∧
      ∀ depth, View.unfolding (nodeView .ofOutline a.definitions) depth (.ref "Tree") =
        View.unfolding ((Workspace.ofDocument Sample.graph Sample.graphFiles).view .ofOutline) depth
          ⟨none, .object [("root", .ref "graph.yaml#/Node"), ("other", .ref "#/definitions/Gone")]⟩ := by
  obtain ⟨a, success, facts⟩ := exists_ok_of_map
    (x := (Workspace.ofDocument Sample.graph Sample.graphFiles).assemble)
    (f := fun a => a.published.map fun p => (p.target.fragment, p.name))
    (b := [("/Node", "GraphNode")]) (by decide +kernel)
  obtain ⟨p, published, same⟩ := List.map_eq_singleton_iff.mp facts
  obtain ⟨fragment, named⟩ := Prod.mk.inj same
  have inside : ∀ q ∈ a.published, q.target.fragment ≠ "" := by
    intro q hq
    rw [published, List.mem_singleton] at hq
    rw [hq, fragment]
    decide
  have assembled := Workspace.assembled_of_assemble success
  refine ⟨a, success, by simp [published, named], ?_⟩
  refine flattening_preserves_unfolding (by decide) success (by simp [published]) ?_ ?_ ?_
    (List.mem_cons_of_mem _ List.mem_cons_self)
  · intro q hq
    rw [published, List.mem_singleton] at hq
    rw [hq, named]
    decide
  · intro q hq
    rw [published, List.mem_singleton] at hq
    rw [hq, named]
    exact Sample.graph_localName
  · intro s around p follows cyclic whole
    exact absurd whole (assembled.fragment_ne inside follows cyclic)

/-- A definition that is nothing but an `allOf` of a target in another file. -/
def Sample.wrapped : Document :=
  .ofDefinitions [("T", .inline { Schema.empty with allOf := [.ref "g.yaml#/X"] })]

def Sample.wrappedFiles : Fragments :=
  [("g.yaml", .obj [("X", .obj [("type", .str "string")])])]

def Document.SchemaNode.schema? : SchemaNode → Option Schema
  | .ref _ => none
  | .inline schema => some schema

def Node.isName : Node → Bool
  | .ref _ => true
  | .inline _ => false

def Site.isReference (site : Site) : Bool := site.node.path?.isSome

/-- In the document the member is a reference; in the model it is the target, put in its place. So
the trees differ if a node is looked through only where its member is a reference. -/
theorem wrapped_target_differs :
    ∃ a, (Workspace.ofDocument Sample.wrapped Sample.wrappedFiles).assemble = .ok a ∧
      a.published.map (·.name) = [] ∧
      ∃ entry ∈ (Workspace.ofDocument Sample.wrapped Sample.wrappedFiles).catalog.definitions,
        View.unfolding (nodeView (.ofOutlineWhere Node.isName) a.definitions) 1 (.ref entry.1) ≠
          View.unfolding ((Workspace.ofDocument Sample.wrapped Sample.wrappedFiles).view
            (.ofOutlineWhere Site.isReference)) 1 ⟨none, entry.2⟩ := by
  obtain ⟨a, success, facts⟩ := exists_ok_of_map
    (x := (Workspace.ofDocument Sample.wrapped Sample.wrappedFiles).assemble)
    (f := fun a => (a.published.map (·.name), (Assoc.get? "T" a.definitions).map fun d =>
      (d.face.composition, (d.outline.single?.filter Node.isName).isNone)))
    (b := ([], some (some .allOf, true))) (by decide +kernel)
  obtain ⟨published, final⟩ := Prod.mk.inj facts
  obtain ⟨d, known, shape⟩ := Option.map_eq_some_iff.mp final
  obtain ⟨composed, closed⟩ := Prod.mk.inj shape
  refine ⟨a, success, published, _, List.mem_singleton.mpr rfl, ?_⟩
  have left : View.Lands (nodeView (.ofOutlineWhere Node.isName) a.definitions) (.ref "T")
      (.node d.outline) :=
    ⟨1, .inline d, .step (nodeView_ref known) (.refl _), View.ofOutlineWhere_eq_node closed⟩
  -- The document goes on from the definition to the reference in it, and from there to the target.
  obtain ⟨p, points, facts⟩ := exists_ok_of_map (x := Pointer.within none "g.yaml#/X")
    (f := fun p => (p.isExternal, ((Workspace.ofDocument Sample.wrapped
      Sample.wrappedFiles).sources.load SchemaNode.read p).toOption.map fun node =>
        node.schema?.map fun schema =>
          (schema.outline.face.composition, schema.outline.single?.isNone)))
    (b := (true, some (some (none, true)))) (by decide +kernel)
  obtain ⟨external, facts⟩ := Prod.mk.inj facts
  obtain ⟨node, loaded, facts⟩ := exists_ok_of_map facts
  cases node with
  | ref path => cases facts
  | inline schema =>
      obtain ⟨plain, single⟩ := Prod.mk.inj (Option.some.inj facts)
      have right : View.Lands ((Workspace.ofDocument Sample.wrapped Sample.wrappedFiles).view
          (.ofOutlineWhere Site.isReference))
          ⟨none, .inline { Schema.empty with allOf := [.ref "g.yaml#/X"] }⟩
          (.node (schema.outline.map (Site.mk p.file))) := by
        refine ⟨2, ⟨p.file, .inline schema⟩, .step rfl (.step
          (Workspace.view_external points external loaded) (.refl _)), ?_⟩
        refine View.ofOutlineWhere_eq_node ?_
        rw [Outline.single?_map, Option.isNone_iff_eq_none.mp single]
        rfl
      rw [View.unfolding_of_lands left, View.unfolding_of_lands right]
      intro same
      have faces : d.face = schema.outline.face := (Unfolding.node.inj same).1
      rw [faces, plain] at composed
      cases composed

end ApiCodec

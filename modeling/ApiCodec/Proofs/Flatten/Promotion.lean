import ApiCodec.Proofs.Flatten.Closure

set_option autoImplicit false

/-!
Which definition a name stands for. A published target takes the place of whatever has its name, so
names at the top keep their definitions, and published targets theirs, exactly when the names that
are chosen for published targets are free and different.
-/

namespace ApiCodec

open Document

theorem Pointer.key_congr {p q : Pointer} (file : p.file = q.file)
    (fragment : p.fragment = q.fragment) : p.key = q.key := by
  unfold key
  rw [file, fragment]

theorem Sources.load_congr {s : Sources} {p q : Pointer} (file : p.file = q.file)
    (fragment : p.fragment = q.fragment) :
    s.load SchemaNode.read p = s.load SchemaNode.read q := by
  unfold load Fragments.lookup
  rw [file, fragment, Pointer.key_congr file fragment]

theorem Sources.materialize_congr {s : Sources} {p q : Pointer} (file : p.file = q.file)
    (fragment : p.fragment = q.fragment) : s.materialize p = s.materialize q := by
  unfold materialize
  rw [load_congr file fragment, file, Pointer.key_congr file fragment]

theorem keys_subset_addAlias (aliases : List (String × String)) (entry : String × SchemaNode) :
    Assoc.keys aliases ⊆ Assoc.keys (addAlias aliases entry) := by
  intro key member
  unfold addAlias
  split
  · simp only
    split
    · rw [Assoc.keys, List.map_append]
      exact List.mem_append_left _ member
    · exact member
  · exact member

theorem mem_keys_addAlias (aliases : List (String × String)) {name path : String} {p : Pointer}
    (points : Pointer.within none path = .ok p) (external : p.isExternal) :
    p.key ∈ Assoc.keys (addAlias aliases (name, .ref path)) := by
  obtain ⟨raw, parsed, rfl⟩ := Pointer.within_eq_ok_iff.mp points
  have away : raw.isExternal := by
    cases file : raw.file with
    | none => simp [Pointer.relativeTo, Pointer.anchor, Pointer.isExternal, file] at external
    | some name => simp [Pointer.isExternal, file]
  unfold addAlias
  simp only [SchemaNode.path?, Option.map_some, parsed, away, Bool.true_and]
  cases known : Assoc.has (raw.relativeTo none).key aliases with
  | true => simpa using Assoc.has_iff.mp known
  | false => simp [Assoc.keys]

/-- Every bare pointer into a file at the top makes its target an alias. -/
theorem Aliased.mem_keys {definitions : List (String × SchemaNode)} {key name : String}
    (aliased : Aliased definitions key name) : key ∈ Assoc.keys (publishedAliases definitions) := by
  obtain ⟨path, p, member, points, external, rfl⟩ := aliased
  have step : ∀ (rest : List (String × SchemaNode)) (aliases : List (String × String)),
      (name, SchemaNode.ref path) ∈ rest ∨ p.key ∈ Assoc.keys aliases →
      p.key ∈ Assoc.keys (rest.foldl addAlias aliases) := by
    intro rest
    induction rest with
    | nil =>
        rintro aliases (none | known)
        · cases none
        · exact known
    | cons entry rest ih =>
        rintro aliases (member | known)
        · rcases List.mem_cons.mp member with rfl | member
          · exact ih _ (Or.inr (mem_keys_addAlias aliases points external))
          · exact ih _ (Or.inl member)
        · exact ih _ (Or.inr (keys_subset_addAlias aliases entry known))
  exact step definitions [] (Or.inl member)

/-- The name of a target with the stem of its file in front. -/
def Pointer.prefixedName (p : Pointer) : String :=
  Text.pascalCase (sanitize (Path.stem (p.file.getD ""))) ++ p.name

theorem Sources.publishedName_eq (s : Sources) (p : Pointer) :
    s.publishedName p = if p.name ∈ s.declared then p.prefixedName else p.name := by
  unfold publishedName promotedName
  by_cases taken : p.name ∈ s.declared
  · simp [taken, Pointer.prefixedName]
  · simp [taken]

/-- Choosing a name for a target fails to avoid the names at the top if they take both the name of
the target and the one with the stem in front. -/
theorem Sources.publishedName_mem_declared_iff (s : Sources) (p : Pointer) :
    s.publishedName p ∈ s.declared ↔ p.name ∈ s.declared ∧ p.prefixedName ∈ s.declared := by
  rw [publishedName_eq]
  by_cases taken : p.name ∈ s.declared <;> simp [taken]

/-- A pointer inside the targets `around` becomes a name, with nothing put in its place: the name of
an alias, or that of a target around it. -/
def Sources.Names (s : Sources) (around : List String) (p : Pointer) (name : String) : Prop :=
  Assoc.get? p.key s.aliases = some name ∨ (s.Cyclic around p ∧ name = s.publishedName p)

theorem Assembly.holder?_of_mem {a : Assembly} (distinct : (a.published.map (·.name)).Nodup)
    {p : Publication} (member : p ∈ a.published) : a.holder? p.name = some p := by
  cases held : a.holder? p.name with
  | none => exact absurd rfl (Assembly.holder?_eq_none_iff.mp held p member)
  | some q =>
      have hq : q ∈ a.published := by simpa using List.mem_of_find?_eq_some held
      have named : q.name = p.name := by simpa using List.find?_some held
      rw [List.inj_on_of_nodup_map distinct hq member named]

theorem Assembly.holder?_sound {a : Assembly} {name : String} {q : Publication}
    (held : a.holder? name = some q) : q ∈ a.published ∧ q.name = name :=
  ⟨by simpa using List.mem_of_find?_eq_some held, by simpa using List.find?_some held⟩

namespace Workspace

variable {w : Workspace} {a : Assembly}

/-- A name stands for the target of a pointer in the end: the target was published under it, or it
is a bare pointer to the target at the top and no published target took it. What is found under the
name is what the run made of the target. -/
def Denotes (w : Workspace) (a : Assembly) (name : String) (p : Pointer) : Prop :=
  ((∃ q, a.holder? name = some q ∧ q.target.key = p.key) ∨
      (a.holder? name = none ∧ Aliased w.catalog.definitions p.key name)) ∧
    ∃ s node t, w.Visits a s [p.key] p.file node ∧ s.load SchemaNode.read p = .ok node ∧
      s.materialize p = .ok t ∧ Assoc.get? name a.definitions = some t.value

/-- No definition is lost or taken for another. -/
structure Faithful (w : Workspace) (a : Assembly) : Prop where
  /-- Each name at the top keeps its own definition. -/
  own : ∀ name ∈ Assoc.keys w.catalog.definitions, a.holder? name = none ∧
    Assoc.get? name a.definitions = Assoc.get? name a.declared
  /-- Different targets have different names. -/
  apart : ∀ p ∈ a.published, ∀ q ∈ a.published, p.target.key ≠ q.target.key → p.name ≠ q.name
  /-- A pointer that becomes a name becomes that of its target. -/
  faithful : ∀ s around p name, w.Follows a s around p → s.Names around p name → w.Denotes a name p

/-- The names chosen for published targets are free, different, and the same for every pointer to a
target. -/
structure Separate (w : Workspace) (a : Assembly) : Prop where
  free : ∀ p ∈ a.published, p.target.name ∈ Assoc.keys w.catalog.definitions →
    p.target.prefixedName ∉ Assoc.keys w.catalog.definitions
  distinct : (a.published.map (·.name)).Nodup
  /-- Pointers to whole files take their names from their own text. -/
  steady : ∀ s around p, w.Follows a s around p → s.Cyclic around p → p.fragment = "" →
    ∀ q ∈ a.published, q.target.key = p.key → q.name = s.publishedName p

theorem Assembled.named (assembled : w.Assembled a) {p : Publication} (member : p ∈ a.published) :
    p.name = w.sources.publishedName p.target := by
  obtain ⟨_, _, _, _, _, drained⟩ := assembled.top
  exact drained.named p member

theorem Assembled.distinct_keys (assembled : w.Assembled a) :
    (a.published.map fun p => p.target.key).Nodup := by
  obtain ⟨_, _, _, _, _, drained⟩ := assembled.top
  exact drained.distinct

/-- What is published under a name is what its target comes to. -/
theorem Assembled.denotes_of_published (assembled : w.Assembled a) {q : Publication}
    (held : a.holder? q.name = some q) {p : Pointer} (anchored : p.Anchored)
    (external : p.isExternal) (same : q.target.key = p.key) : w.Denotes a q.name p := by
  have member := (Assembly.holder?_sound held).1
  obtain ⟨qAnchored, qExternal⟩ := assembled.anchored member
  obtain ⟨file, fragment⟩ := qAnchored.eq_of_key anchored qExternal external same
  obtain ⟨_, _, _, _, _, drained⟩ := assembled.top
  obtain ⟨stage, makes⟩ := w.sources.exists_makes member
  obtain ⟨t, materialized, definition, _⟩ := drained.made makes
  obtain ⟨node, _, loaded, _⟩ := Sources.materialize_eq_ok_iff.mp materialized
  refine ⟨Or.inl ⟨q, held, same⟩, stage, node, t, ?_, ?_, ?_, ?_⟩
  · rw [← same, ← file]
    exact .published makes loaded
  · rw [← Sources.load_congr file fragment]
    exact loaded
  · rw [← Sources.materialize_congr file fragment]
    exact materialized
  · rw [Assembly.get?_definitions, held, ← definition]

/-- What stands at the top as a bare pointer into a file is what its target comes to. -/
theorem Assembled.denotes_of_aliased (assembled : w.Assembled a)
    (keys : (Assoc.keys w.catalog.definitions).Nodup) {name : String} (held : a.holder? name = none)
    {p : Pointer} (anchored : p.Anchored) (external : p.isExternal)
    (aliased : Aliased w.catalog.definitions p.key name) : w.Denotes a name p := by
  obtain ⟨path, q, member, points, qExternal, same⟩ := aliased
  have qAnchored := Pointer.anchored_of_within fileName_none points
  obtain ⟨file, fragment⟩ := qAnchored.eq_of_key anchored qExternal external same
  obtain ⟨t, known, top, _⟩ := assembled.declared_eq keys member
  have materialized : w.sources.materialize q = .ok t := by
    cases top with
    | target points' _ materialized =>
        cases Except.ok.inj (points.symm.trans points')
        exact materialized
    | named points' inside _ =>
        cases Except.ok.inj (points.symm.trans points')
        exact absurd qExternal inside
    | untyped points' inside _ =>
        cases Except.ok.inj (points.symm.trans points')
        exact absurd qExternal inside
  obtain ⟨node, _, loaded, _⟩ := Sources.materialize_eq_ok_iff.mp materialized
  refine ⟨Or.inr ⟨held, path, q, member, points, qExternal, same⟩, w.sources, node, t, ?_, ?_, ?_, ?_⟩
  · rw [← same, ← file]
    exact .target member points qExternal loaded
  · rw [← Sources.load_congr file fragment]
    exact loaded
  · rw [← Sources.materialize_congr file fragment]
    exact materialized
  · rw [Assembly.get?_definitions, held]
    exact known

theorem Assembled.free_iff (assembled : w.Assembled a)
    (own : w.sources.declared = Assoc.keys w.catalog.definitions) :
    (∀ name ∈ Assoc.keys w.catalog.definitions, a.holder? name = none) ↔
      ∀ p ∈ a.published, p.target.name ∈ Assoc.keys w.catalog.definitions →
        p.target.prefixedName ∉ Assoc.keys w.catalog.definitions := by
  rw [← own]
  constructor
  · intro free p member taken prefixed
    have clash := (w.sources.publishedName_mem_declared_iff p.target).mpr ⟨taken, prefixed⟩
    rw [← assembled.named member] at clash
    exact Assembly.holder?_eq_none_iff.mp (free p.name clash) p member rfl
  · intro free name member
    refine Assembly.holder?_eq_none_iff.mpr ?_
    rintro p hp rfl
    rw [assembled.named hp] at member
    obtain ⟨taken, prefixed⟩ := (w.sources.publishedName_mem_declared_iff p.target).mp member
    exact free p hp taken prefixed

theorem Assembled.apart_iff (assembled : w.Assembled a) :
    (∀ p ∈ a.published, ∀ q ∈ a.published, p.target.key ≠ q.target.key → p.name ≠ q.name) ↔
      (a.published.map (·.name)).Nodup := by
  have keys := assembled.distinct_keys
  constructor
  · intro apart
    refine keys.of_map _ |>.map_on ?_
    intro p hp q hq named
    refine List.inj_on_of_nodup_map keys hp hq ?_
    by_contra different
    exact apart p hp q hq different named
  · intro distinct p hp q hq different named
    rw [List.inj_on_of_nodup_map distinct hp hq named] at different
    exact different rfl

theorem Assembled.faithful_of_separate (assembled : w.Assembled a)
    (aliases : w.sources.aliases = publishedAliases w.catalog.definitions)
    (declared : w.sources.declared = Assoc.keys w.catalog.definitions)
    (keys : (Assoc.keys w.catalog.definitions).Nodup) (separate : w.Separate a) : w.Faithful a := by
  have free := (assembled.free_iff declared).mpr separate.free
  have own : ∀ name ∈ Assoc.keys w.catalog.definitions, a.holder? name = none ∧
      Assoc.get? name a.definitions = Assoc.get? name a.declared := by
    intro name member
    refine ⟨free name member, ?_⟩
    rw [Assembly.get?_definitions, free name member]
  refine ⟨own, assembled.apart_iff.mpr separate.distinct, ?_⟩
  rintro s around p name follows (known | ⟨cyclic, rfl⟩)
  · obtain ⟨anchored, external⟩ := assembled.follows_anchored follows
    obtain ⟨before, later, split, rfl⟩ := follows.stage
    unfold Sources.after at known
    rw [Assoc.get?_append] at known
    rcases Option.or_eq_some_iff.mp known with known | ⟨_, known⟩
    · rw [aliases] at known
      have aliased := aliased_of_publishedAliases known
      have title : name ∈ Assoc.keys w.catalog.definitions := by
        obtain ⟨path, _, member, _⟩ := aliased
        exact List.mem_map.mpr ⟨_, member, rfl⟩
      exact assembled.denotes_of_aliased keys (free name title) anchored external aliased
    · obtain ⟨q, hq, same⟩ := List.mem_map.mp (Assoc.mem_of_get? known)
      obtain ⟨key, rfl⟩ := Prod.mk.inj same
      have member : q ∈ a.published := split ▸ List.mem_append_left _ hq
      exact assembled.denotes_of_published
        (Assembly.holder?_of_mem separate.distinct member) anchored external key
  · obtain ⟨anchored, external⟩ := assembled.follows_anchored follows
    obtain ⟨q, member, key, _, _, _, named⟩ := assembled.exists_published follows cyclic
    have name : q.name = s.publishedName p := by
      by_cases whole : p.fragment = ""
      · exact separate.steady s around p follows cyclic whole q member key
      · obtain ⟨before, later, _, rfl⟩ := follows.stage
        exact named whole
    rw [← name]
    exact assembled.denotes_of_published
      (Assembly.holder?_of_mem separate.distinct member) anchored external key

theorem Assembled.separate_of_faithful (assembled : w.Assembled a)
    (aliases : w.sources.aliases = publishedAliases w.catalog.definitions)
    (declared : w.sources.declared = Assoc.keys w.catalog.definitions) (faithful : w.Faithful a) :
    w.Separate a := by
  refine ⟨?_, assembled.apart_iff.mp faithful.apart, ?_⟩
  · exact (assembled.free_iff declared).mp fun name member => (faithful.own name member).1
  · intro s around p follows cyclic _ q hq same
    obtain ⟨⟨r, held, key⟩ | ⟨_, aliased⟩, _⟩ :=
      faithful.faithful s around p _ follows (Or.inr ⟨cyclic, rfl⟩)
    · obtain ⟨hr, named⟩ := Assembly.holder?_sound held
      rw [List.inj_on_of_nodup_map assembled.distinct_keys hq hr (same.trans key.symm)]
      exact named
    · -- A target with an alias from the start closes no cycle.
      obtain ⟨before, later, _, rfl⟩ := follows.stage
      have absent := Assoc.get?_eq_none_iff.mp cyclic.1
      rw [Sources.keys_after, List.mem_append, not_or, aliases] at absent
      exact absurd aliased.mem_keys absent.1

end Workspace

/-- No name at the top is lost. Names keep their definitions, and pointers into files lead to their
own targets, exactly when the names chosen for published targets are free, different, and the same
for every pointer to a target. -/
theorem faithful_iff_separate {document : Document} {fragments : Fragments} {a : Assembly}
    (keys : (Assoc.keys (Catalog.ofDocument document).definitions).Nodup)
    (success : (Workspace.ofDocument document fragments).assemble = .ok a) :
    Assoc.keys (Catalog.ofDocument document).definitions ⊆ Assoc.keys a.definitions ∧
      ((Workspace.ofDocument document fragments).Faithful a ↔
        (Workspace.ofDocument document fragments).Separate a) := by
  have assembled := Workspace.assembled_of_assemble success
  refine ⟨assembled.declared_subset, ?_, ?_⟩
  · exact assembled.separate_of_faithful rfl rfl
  · exact assembled.faithful_of_separate rfl rfl keys

/-- In the small document with a cycle, every name leads to its own definition. -/
theorem faithful_graph :
    ∃ a, (Workspace.ofDocument Sample.graph Sample.graphFiles).assemble = .ok a ∧
      Assoc.keys (Catalog.ofDocument Sample.graph).definitions ⊆ Assoc.keys a.definitions ∧
      (Workspace.ofDocument Sample.graph Sample.graphFiles).Faithful a := by
  obtain ⟨a, success, facts⟩ := exists_ok_of_map
    (x := (Workspace.ofDocument Sample.graph Sample.graphFiles).assemble)
    (f := fun a => a.published.map fun p =>
      (p.target.fragment, p.target.prefixedName, p.name))
    (b := [("/Node", "GraphNode", "GraphNode")]) (by decide +kernel)
  obtain ⟨p, published, same⟩ := List.map_eq_singleton_iff.mp facts
  obtain ⟨fragment, prefixed, _⟩ := by simpa only [Prod.mk.injEq] using same
  have inside : ∀ q ∈ a.published, q.target.fragment ≠ "" := by
    intro q hq
    rw [published, List.mem_singleton] at hq
    rw [hq, fragment]
    decide
  have assembled := Workspace.assembled_of_assemble success
  obtain ⟨kept, faithful⟩ := faithful_iff_separate (by decide) success
  refine ⟨a, success, kept, faithful.mpr ⟨?_, by simp [published], ?_⟩⟩
  · intro q hq _
    rw [published, List.mem_singleton] at hq
    rw [hq, prefixed]
    decide
  · intro s around p follows cyclic whole
    exact absurd whole (assembled.fragment_ne inside follows cyclic)

/-- A document that takes the name of a target in another file and also the one with the file's stem
in front, and that uses targets of one name in two files. -/
def Sample.clash : Document :=
  .ofDefinitions
    [("Node", .inline (.ofType .string)), ("GraphNode", .inline (.ofType .integer)),
     ("Tree", .object [("root", .ref "graph.yaml#/Node")]),
     ("Pair", .object [("left", .ref "a.yaml#/Leaf"), ("right", .ref "b.yaml#/Leaf")])]

def Sample.clashFiles : Fragments :=
  [("graph.yaml", .obj [("Node", Json.objectSchema [("child", Json.reference "#/Node")])]),
   ("a.yaml", .obj [("Leaf", Json.objectSchema [("next", Json.reference "#/Leaf")])]),
   ("b.yaml", .obj [("Leaf", Json.objectSchema [("back", Json.reference "#/Leaf")])])]

/-- A published target takes the place of a definition at the top, and of one published before. -/
theorem names_clash :
    ∃ a, (Workspace.ofDocument Sample.clash Sample.clashFiles).assemble = .ok a ∧
      (a.published.map fun p => (p.target.key, p.name)) =
        [("graph.yaml#/Node", "GraphNode"), ("a.yaml#/Leaf", "Leaf"), ("b.yaml#/Leaf", "Leaf")] ∧
      (Assoc.get? "GraphNode" a.declared).map (·.type) = some (some .integer) ∧
      (Assoc.get? "GraphNode" a.definitions).map (·.type) = some (some .object) ∧
      ¬ (Workspace.ofDocument Sample.clash Sample.clashFiles).Faithful a := by
  obtain ⟨a, success, facts⟩ := exists_ok_of_map
    (x := (Workspace.ofDocument Sample.clash Sample.clashFiles).assemble)
    (f := fun a => (a.published.map fun p => (p.target.key, p.name),
      (Assoc.get? "GraphNode" a.declared).map (·.type),
      (Assoc.get? "GraphNode" a.definitions).map (·.type)))
    (b := ([("graph.yaml#/Node", "GraphNode"), ("a.yaml#/Leaf", "Leaf"), ("b.yaml#/Leaf", "Leaf")],
      some (some .integer), some (some .object))) (by decide +kernel)
  obtain ⟨published, declared, final⟩ := by simpa only [Prod.mk.injEq] using facts
  refine ⟨a, success, published, declared, final, ?_⟩
  intro faithful
  have same := (faithful.own "GraphNode" (by decide)).2
  rw [same, declared] at final
  cases final

end ApiCodec

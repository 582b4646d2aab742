import ApiCodec.Proofs.Flatten.Table

set_option autoImplicit false

namespace ApiCodec

open Document

theorem definitionOf_occurrences (node : Node) :
    (Sources.definitionOf node).occurrences = node.occurrences := by
  cases node <;> rfl

/-- Whatever stands in another file uses no local pointer. -/
theorem Document.SchemaNode.not_namesLocal {node : SchemaNode} {file name : String} :
    ¬ node.NamesLocal (some file) name := by
  rintro ⟨path, p, _, points, inside, _⟩
  exact inside (Pointer.isExternal_of_within points)

namespace Workspace

variable {w : Workspace} {a : Assembly}

/-- The names that a run gives for external pointers. -/
def Gives (w : Workspace) (a : Assembly) (name : String) : Prop :=
  ∃ s around p, w.Follows a s around p ∧ s.Returns around p name

/-- The names of definitions that local pointers of a document use. -/
def LocalName (w : Workspace) (name : String) : Prop :=
  (∃ entry ∈ w.catalog.definitions, entry.2.NamesLocal none name) ∨
    ∃ site ∈ w.sites, site.node.NamesLocal site.base name

theorem Assembled.declared_subset (assembled : w.Assembled a) :
    Assoc.keys w.catalog.definitions ⊆ Assoc.keys a.definitions := by
  intro name member
  rw [Assembly.mem_keys_definitions, assembled.keys_declared]
  exact Or.inl member

/-- The names of published targets depend on their files and names alone. -/
theorem publishedName_congr {s : Sources} {p q : Pointer} (file : p.file = q.file)
    (name : p.name = q.name) : s.publishedName p = s.publishedName q := by
  unfold Sources.publishedName
  rw [file, name]

/-- Where a pointer closes a cycle, its target is published, under the name that was given for the
pointer unless that means a whole file. -/
theorem Assembled.exists_published (assembled : w.Assembled a) {s : Sources} {around : List String}
    {p : Pointer} (follows : w.Follows a s around p) (cyclic : s.Cyclic around p) :
    ∃ q ∈ a.published, q.target.key = p.key ∧ q.target.file = p.file ∧
      q.target.fragment = p.fragment ∧ q.name = w.sources.publishedName q.target ∧
      (p.fragment ≠ "" → q.name = w.sources.publishedName p) := by
  obtain ⟨anchored, external⟩ := assembled.follows_anchored follows
  have published := assembled.isPublished_of_cyclic follows cyclic
  obtain ⟨before, later, split, rfl⟩ := follows.stage
  have fresh : p.key ∉ Assoc.keys w.sources.aliases := by
    have absent := Assoc.get?_eq_none_iff.mp cyclic.1
    rw [Sources.keys_after, List.mem_append, not_or] at absent
    exact absent.1
  rw [Sources.isPublished_iff, Sources.keys_after, List.mem_append] at published
  obtain ⟨q, hq, same⟩ := List.mem_map.mp (published.resolve_left fresh)
  obtain ⟨qAnchored, qExternal⟩ := assembled.anchored hq
  obtain ⟨file, fragment⟩ := qAnchored.eq_of_key anchored qExternal external same
  obtain ⟨_, _, _, _, _, drained⟩ := assembled.top
  have named := drained.named q hq
  refine ⟨q, hq, same, file, fragment, named, ?_⟩
  intro nonempty
  rw [named]
  exact publishedName_congr file (qAnchored.name_eq anchored fragment (fragment ▸ nonempty))

/-- Where no whole file is published, no pointer to a whole file closes a cycle. -/
theorem Assembled.fragment_ne (assembled : w.Assembled a)
    (inside : ∀ q ∈ a.published, q.target.fragment ≠ "") {s : Sources} {around : List String}
    {p : Pointer} (follows : w.Follows a s around p) (cyclic : s.Cyclic around p) :
    p.fragment ≠ "" := by
  obtain ⟨q, hq, _, _, fragment, _⟩ := assembled.exists_published follows cyclic
  exact fragment ▸ inside q hq

/-- The names of aliases are definitions in the end. -/
theorem Assembled.alias_mem_keys (assembled : w.Assembled a)
    (own : w.sources.aliases = publishedAliases w.catalog.definitions) {before : List Publication}
    (early : before ⊆ a.published) {key name : String}
    (known : Assoc.get? key (w.sources.after before).aliases = some name) :
    name ∈ Assoc.keys a.definitions := by
  unfold Sources.after at known
  rw [Assoc.get?_append] at known
  rcases Option.or_eq_some_iff.mp known with known | ⟨_, known⟩
  · rw [own] at known
    obtain ⟨path, p, member, _⟩ := aliased_of_publishedAliases known
    exact assembled.declared_subset (List.mem_map.mpr ⟨_, member, rfl⟩)
  · obtain ⟨q, hq, same⟩ := List.mem_map.mp (Assoc.mem_of_get? known)
    cases same
    exact Assembly.mem_keys_definitions.mpr (Or.inr ⟨q, early hq, rfl⟩)

/-- A name that is given for an external pointer is that of an alias, or it closes a cycle. -/
theorem Assembled.gives_cases (assembled : w.Assembled a)
    (own : w.sources.aliases = publishedAliases w.catalog.definitions) {name : String}
    (gives : w.Gives a name) :
    name ∈ Assoc.keys a.definitions ∨
      ∃ s around p, w.Follows a s around p ∧ s.Cyclic around p ∧ name = s.publishedName p := by
  obtain ⟨s, around, p, follows, u, followed, named⟩ := gives
  obtain ⟨_, external⟩ := assembled.follows_anchored follows
  obtain ⟨u', followed', promoted⟩ := assembled.follows follows
  cases Except.ok.inj (followed.symm.trans followed')
  rcases Sources.name_of_follow external followed named with ⟨key, known⟩ | ⟨q, hq, rfl⟩
  · obtain ⟨before, later, split, rfl⟩ := follows.stage
    exact Or.inl (assembled.alias_mem_keys own (split ▸ List.subset_append_left before later) known)
  · obtain ⟨inner, followsInner, cyclic⟩ := (promoted q hq).1
    exact Or.inr ⟨s, inner, q, followsInner, cyclic, rfl⟩

/-- Every name in a definition or an operation was given for an external pointer, or a local pointer
uses it. -/
theorem Assembled.name_origin (assembled : w.Assembled a) {name : String}
    (used : (∃ entry ∈ a.definitions, name ∈ entry.2.names) ∨
      ∃ op ∈ a.operations, name ∈ op.importedTypes) :
    w.Gives a name ∨ w.LocalName name := by
  have inside : ∀ {s stack base node t}, w.Visits a s stack base node →
      normalizeNode (s.follow stack) base node = .ok t → name ∈ t.value.occurrences →
      w.Gives a name ∨ node.NamesLocal base name := by
    intro s stack base node t visits success occurs
    rcases Sources.name_of_occurrences success occurs with ⟨around, p, met, returned⟩ | used
    · exact Or.inl ⟨s, around, p, ⟨stack, base, node, visits, met⟩, returned⟩
    · exact Or.inr used
  have away : ∀ {s stack node t} {p : Pointer}, w.Visits a s stack p.file node → p.isExternal →
      normalizeNode (s.follow stack) p.file node = .ok t →
      name ∈ (Sources.definitionOf t.value).occurrences → w.Gives a name ∨ w.LocalName name := by
    intro s stack node t p visits external success occurs
    rw [definitionOf_occurrences] at occurs
    rcases inside visits success occurs with given | used
    · exact Or.inl given
    · obtain ⟨file, known⟩ := Pointer.exists_file external
      rw [known] at used
      exact absurd used SchemaNode.not_namesLocal
  obtain ⟨found, each, values, promoted, uses, drained⟩ := assembled.top
  rcases used with ⟨entry, member, occurs⟩ | ⟨op, member, occurs⟩
  · rw [Definition.mem_names] at occurs
    rcases Assembly.mem_definitions member with declared | ⟨p, hp, rfl⟩
    · rw [values] at declared
      obtain ⟨t, ht, same⟩ := List.mem_map.mp (List.of_mem_zip declared).2
      obtain ⟨⟨title, node⟩, paired⟩ := exists_mem_zip_right each ht
      have top := List.forall₂_iff_zip.mp each |>.2 paired
      have there := (List.of_mem_zip paired).1
      rw [← same] at occurs
      cases top with
      | target points external materialized =>
          obtain ⟨node, u, loaded, success, rfl⟩ := Sources.materialize_eq_ok_iff.mp materialized
          exact away (.target there points external loaded) external success occurs
      | @named path p points inner definition =>
          cases List.mem_singleton.mp occurs
          exact Or.inr (Or.inl ⟨_, there, path, p, .here, points, inner, definition, rfl⟩)
      | untyped _ _ _ => cases occurs
      | inline success =>
          rcases inside (.declared there) success occurs with given | used
          · exact Or.inl given
          · exact Or.inr (Or.inl ⟨_, there, used⟩)
    · obtain ⟨stage, makes⟩ := w.sources.exists_makes hp
      obtain ⟨t, materialized, definition, _⟩ := drained.made makes
      obtain ⟨node, u, loaded, success, rfl⟩ := Sources.materialize_eq_ok_iff.mp materialized
      rw [definition] at occurs
      exact away (.published makes loaded) (assembled.anchored hp).2 success occurs
  · obtain ⟨results, all, _, covered⟩ := uses
    obtain ⟨t, ht, occurs⟩ := covered name (List.mem_flatMap.mpr ⟨op, member, occurs⟩)
    obtain ⟨site, paired⟩ := exists_mem_zip_right all ht
    have there := (List.of_mem_zip paired).1
    rcases inside (.site there) (List.forall₂_iff_zip.mp all |>.2 paired) occurs with given | used
    · exact Or.inl given
    · exact Or.inr (Or.inr ⟨site, there, used⟩)

end Workspace

/-- Every name that is given for an external pointer is a definition in the end exactly when that
holds of the names that close cycles for pointers to whole files. What else dangles is the name of a
local pointer, and whatever dangles is reported once for each definition and each operation that
refers to it. -/
theorem references_closed_iff {document : Document} {fragments : Fragments} {a : Assembly}
    (success : (Workspace.ofDocument document fragments).assemble = .ok a) :
    ((∀ name, (Workspace.ofDocument document fragments).Gives a name →
        name ∈ Assoc.keys a.definitions) ↔
      ∀ s around p, (Workspace.ofDocument document fragments).Follows a s around p →
        s.Cyclic around p → p.fragment = "" → s.publishedName p ∈ Assoc.keys a.definitions) ∧
    (∀ name, ((∃ entry ∈ a.definitions, name ∈ entry.2.names) ∨
        ∃ op ∈ a.operations, name ∈ op.importedTypes) → name ∉ Assoc.keys a.definitions →
      (Workspace.ofDocument document fragments).LocalName name ∨
        (Workspace.ofDocument document fragments).Gives a name) ∧
    ∀ subject name, a.diagnostics.count ⟨subject, .unknownDefinition name⟩ =
      if name ∈ Assoc.keys a.definitions then 0
      else
        (a.definitions.countP fun entry => entry.1 = subject ∧ name ∈ entry.2.names) +
          a.operations.countP fun op => op.id = subject ∧ name ∈ op.importedTypes := by
  have assembled := Workspace.assembled_of_assemble success
  refine ⟨⟨?_, ?_⟩, ?_, ?_⟩
  · intro closed s around p follows cyclic _
    exact closed _ ⟨s, around, p, follows, cyclic.returns⟩
  · intro whole name gives
    rcases assembled.gives_cases rfl gives with known | ⟨s, around, p, follows, cyclic, rfl⟩
    · exact known
    · by_cases empty : p.fragment = ""
      · exact whole s around p follows cyclic empty
      · obtain ⟨q, hq, _, _, _, _, named⟩ := assembled.exists_published follows cyclic
        obtain ⟨before, later, _, rfl⟩ := follows.stage
        rw [Sources.publishedName_after, ← named empty]
        exact Assembly.mem_keys_definitions.mpr (Or.inr ⟨q, hq, rfl⟩)
  · intro name used _
    exact (assembled.name_origin used).symm
  · exact Assembly.count_unknownDefinition assembled.quiet assembled.distinct

theorem references_closed_graph :
    ∃ a, (Workspace.ofDocument Sample.graph Sample.graphFiles).assemble = .ok a ∧
      (∀ name, (Workspace.ofDocument Sample.graph Sample.graphFiles).Gives a name →
        name ∈ Assoc.keys a.definitions) ∧
      a.diagnostics.count ⟨"Tree", .unknownDefinition "Gone"⟩ = 1 := by
  obtain ⟨a, success, facts⟩ := exists_ok_of_map
    (x := (Workspace.ofDocument Sample.graph Sample.graphFiles).assemble)
    (f := fun a => (a.published.map (·.target.fragment), Assoc.keys a.definitions,
      a.definitions.countP fun entry => entry.1 = "Tree" ∧ "Gone" ∈ entry.2.names,
      a.operations.length))
    (b := (["/Node"], ["Node", "Tree", "GraphNode"], 1, 0)) (by decide +kernel)
  obtain ⟨fragments, keys, mentioned, none⟩ := by simpa only [Prod.mk.injEq] using facts
  have inside : ∀ q ∈ a.published, q.target.fragment ≠ "" := by
    intro q hq
    have member : q.target.fragment ∈ ["/Node"] := fragments ▸ List.mem_map_of_mem hq
    rw [List.mem_singleton.mp member]
    decide
  have assembled := Workspace.assembled_of_assemble success
  obtain ⟨closed, _, reported⟩ := references_closed_iff success
  refine ⟨a, success, closed.mpr ?_, ?_⟩
  · intro s around p follows cyclic whole
    exact absurd whole (assembled.fragment_ne inside follows cyclic)
  · rw [reported, keys, mentioned, List.length_eq_zero_iff.mp none]
    decide

/-- A definition that uses a file which refers to itself in two spellings. -/
def Sample.spellings : Document := .ofDefinitions [("T", .object [("x", .ref "x.yaml")])]

def Sample.spellingsFiles : Fragments :=
  [("x.yaml",
    Json.objectSchema [("a", Json.reference "x.yaml"), ("b", Json.reference "x.yaml/")])]

/-- Under the second spelling the file has another name, which is no definition. -/
theorem spelling_dangles :
    ∃ a, (Workspace.ofDocument Sample.spellings Sample.spellingsFiles).assemble = .ok a ∧
      (Workspace.ofDocument Sample.spellings Sample.spellingsFiles).Gives a "" ∧
      "" ∉ Assoc.keys a.definitions ∧ a.diagnostics = [⟨"T", .unknownDefinition ""⟩] := by
  obtain ⟨a, success, facts⟩ := exists_ok_of_map
    (x := (Workspace.ofDocument Sample.spellings Sample.spellingsFiles).assemble)
    (f := fun a => (Assoc.keys a.definitions, a.diagnostics,
      a.definitions.any fun entry => entry.2.names.contains ""))
    (b := (["T", "x"], [⟨"T", .unknownDefinition ""⟩], true)) (by decide +kernel)
  obtain ⟨keys, diagnostics, used⟩ := by simpa only [Prod.mk.injEq] using facts
  refine ⟨a, success, ?_, by rw [keys]; decide, diagnostics⟩
  have assembled := Workspace.assembled_of_assemble success
  have used : ∃ entry ∈ a.definitions, "" ∈ entry.2.names := by simpa using used
  refine (assembled.name_origin (Or.inl used)).resolve_right ?_
  -- The document has no local pointer at all.
  rintro (⟨entry, member, path, p, mentioned, points, inside, _⟩ | ⟨site, member, _⟩)
  · cases List.mem_singleton.mp member
    cases mentioned with
    | part there inner =>
        cases List.mem_singleton.mp there
        cases inner
        cases Except.ok.inj points
        exact inside rfl
  · cases member

end ApiCodec

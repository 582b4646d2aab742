import ApiCodec.Proofs.Flatten.Publish
import ApiCodec.Proofs.Flatten.Sites

set_option autoImplicit false

namespace ApiCodec

open Document

/-- An alias is a name at the top that is a bare pointer to the target. -/
def Aliased (definitions : List (String × SchemaNode)) (key name : String) : Prop :=
  ∃ path p, (name, .ref path) ∈ definitions ∧ Pointer.within none path = .ok p ∧ p.isExternal ∧
    p.key = key

theorem aliased_of_addAlias {definitions : List (String × SchemaNode)}
    {aliases : List (String × String)} {entry : String × SchemaNode} {key name : String}
    (member : entry ∈ definitions)
    (known : Assoc.get? key (addAlias aliases entry) = some name) :
    Assoc.get? key aliases = some name ∨ Aliased definitions key name := by
  obtain ⟨title, node⟩ := entry
  unfold addAlias at known
  simp only at known
  split at known
  · rename_i pointer found
    split at known
    · rename_i fresh
      rw [Assoc.get?_append] at known
      rcases Option.or_eq_some_iff.mp known with known | ⟨_, known⟩
      · exact Or.inl known
      · simp only [Assoc.get?] at known
        split at known
        · rename_i same
          cases Option.some.inj known
          cases node with
          | inline schema => cases found
          | ref path =>
              have parsed : Pointer.parse path = .ok pointer := by
                simpa [SchemaNode.path?] using found
              refine Or.inr ⟨path, pointer.relativeTo none, member,
                Pointer.within_of_parse _ parsed, ?_, same⟩
              rw [Bool.and_eq_true] at fresh
              obtain ⟨file, hfile⟩ := Pointer.exists_file fresh.1
              simp [Pointer.isExternal, Pointer.relativeTo, Pointer.anchor, hfile]
        · cases known
    · exact Or.inl known
  · exact Or.inl known

theorem aliased_of_publishedAliases {definitions : List (String × SchemaNode)} {key name : String}
    (known : Assoc.get? key (publishedAliases definitions) = some name) :
    Aliased definitions key name := by
  have step : ∀ (rest : List (String × SchemaNode)) (aliases : List (String × String)),
      rest ⊆ definitions → Assoc.get? key (rest.foldl addAlias aliases) = some name →
      Assoc.get? key aliases = some name ∨ Aliased definitions key name := by
    intro rest
    induction rest with
    | nil => intro aliases _ known; exact Or.inl known
    | cons entry rest ih =>
        intro aliases inside known
        rcases ih _ (fun e member => inside (List.mem_cons_of_mem _ member)) known with known | found
        · exact aliased_of_addAlias (inside (by simp)) known
        · exact Or.inr found
  rcases step definitions [] (List.Subset.refl _) known with none | found
  · cases none
  · exact found

/-- What a name at the top comes to. -/
inductive Sources.TopLevel (s : Sources) : SchemaNode → Traced Notice Definition → Prop
  | target {path : String} {p : Pointer} {found : Traced Notice Definition}
      (points : Pointer.within none path = .ok p) (external : p.isExternal)
      (materialized : s.materialize p = .ok found) : TopLevel s (.ref path) found
  | named {path : String} {p : Pointer} (points : Pointer.within none path = .ok p)
      (inside : ¬ p.isExternal) (definition : p.kind = .definition) :
      TopLevel s (.ref path) ⟨.named p.name, [], []⟩
  | untyped {path : String} {p : Pointer} (points : Pointer.within none path = .ok p)
      (inside : ¬ p.isExternal) (other : p.kind ≠ .definition) :
      TopLevel s (.ref path) ⟨.untyped, [.untypedPointer path], []⟩
  | inline {schema : Schema} {t : Traced Notice Definition}
      (success : normalizeNode (s.follow []) none (.inline schema) =
        .ok ⟨.inline t.value, t.notes, t.promoted⟩) : TopLevel s (.inline schema) t

theorem Sources.topLevel_of_normalizeTopLevel {s : Sources} {node : SchemaNode}
    {t : Traced Notice Definition} (success : s.normalizeTopLevel node = .ok t) :
    s.TopLevel node t := by
  cases node with
  | ref path =>
      simp only [normalizeTopLevel, Transform.map_eq_ok_iff] at success
      obtain ⟨u, resolved, rfl⟩ := success
      obtain ⟨p, points, ⟨external, found⟩ | ⟨inside, definition, rfl⟩ | ⟨inside, other, rfl⟩⟩ :=
        resolve_eq_ok resolved
      · obtain ⟨found, materialized, rfl⟩ := Transform.map_eq_ok_iff.mp found
        exact .target points external materialized
      · exact .named points inside definition
      · exact .untyped points inside other
  | inline schema =>
      refine .inline ?_
      simp only [normalizeNode, Transform.bind_eq_ok_iff, Transform.pure_eq_ok_iff]
      exact ⟨t, _, success, rfl, by simp⟩

theorem Sources.TopLevel.quiet {s : Sources} {node : SchemaNode} {t : Traced Notice Definition}
    (top : s.TopLevel node t) : Quiet t.notes := by
  cases top with
  | target points external materialized =>
      obtain ⟨node, u, _, normalized, rfl⟩ := Sources.materialize_eq_ok_iff.mp materialized
      exact fun name => Sources.unknownDefinition_notMem_notes normalized name
  | named _ _ _ => exact Quiet.nil
  | untyped _ _ _ => exact Quiet.single (by simp)
  | inline success => exact fun name => Sources.unknownDefinition_notMem_notes success name

namespace Workspace

theorem topLevel_eq_ok {s : Sources} {definitions : List (String × SchemaNode)}
    {t : Traced Diagnostic Definitions} (success : topLevel s definitions = .ok t) :
    ∃ found : List (Traced Notice Definition),
      List.Forall₂ (fun entry u => s.TopLevel entry.2 u) definitions found ∧
        t.value = (Assoc.keys definitions).zip (found.map (·.value)) ∧
        t.promoted = found.flatMap (·.promoted) ∧
        ∀ n ∈ t.notes, ∃ u ∈ found, n.notice ∈ u.notes := by
  induction definitions generalizing t with
  | nil =>
      cases Transform.pure_eq_ok_iff.mp success
      exact ⟨[], .nil, rfl, rfl, by simp⟩
  | cons entry rest ih =>
      obtain ⟨name, node⟩ := entry
      unfold topLevel at success
      simp only [Transform.bind_eq_ok_iff, Transform.about_eq_ok_iff, Transform.pure_eq_ok_iff]
        at success
      obtain ⟨_, _, ⟨u, own, rfl⟩, ⟨b, _, others, rfl, rfl⟩, rfl⟩ := success
      obtain ⟨found, each, values, promoted, notes⟩ := ih others
      refine ⟨u :: found, .cons (Sources.topLevel_of_normalizeTopLevel own) each, ?_, ?_, ?_⟩
      · rw [values]
        rfl
      · simp [promoted]
      · intro n member
        rw [List.append_nil, List.mem_append] at member
        rcases member with member | member
        · obtain ⟨notice, noted, rfl⟩ := List.mem_map.mp member
          exact ⟨u, by simp, noted⟩
        · obtain ⟨v, hv, noted⟩ := notes n member
          exact ⟨v, by simp [hv], noted⟩

/-- What a run is made of. -/
structure Assembled (w : Workspace) (a : Assembly) : Prop where
  /-- Each name at the top was brought to its form. -/
  top : ∃ found : List (Traced Notice Definition),
    List.Forall₂ (fun entry t => w.sources.TopLevel entry.2 t) w.catalog.definitions found ∧
      a.declared = (Assoc.keys w.catalog.definitions).zip (found.map (·.value)) ∧
      ∃ promoted, w.Uses w.sites promoted (a.operations.flatMap (·.importedTypes)) ∧
        w.sources.Drained (found.flatMap (·.promoted) ++ promoted) a.published
  quiet : QuietDiagnostics a.notes
  distinct : ∀ op ∈ a.operations, op.importedTypes.Nodup

theorem assembled_of_assemble {w : Workspace} {a : Assembly} (success : w.assemble = .ok a) :
    w.Assembled a := by
  unfold assemble at success
  split at success
  · cases success
  · rename_i parts made
    split at success
    · cases success
    · rename_i published drained
      cases Except.ok.inj success
      unfold Workspace.parts at made
      simp only [Transform.bind_eq_ok_iff, Transform.pure_eq_ok_iff] at made
      obtain ⟨b, _, top, ⟨c, _, operations, rfl, rfl⟩, rfl⟩ := made
      obtain ⟨found, each, values, promoted, notes⟩ := topLevel_eq_ok top
      obtain ⟨quiet, uses, distinct⟩ := allOperations_uses operations
      have drained' := Sources.drained_of_publishAll drained
      simp only [List.append_nil, promoted] at drained'
      refine ⟨⟨found, each, values, c.promoted, uses, drained'⟩, ?_, distinct⟩
      intro subject name member
      simp only [List.append_nil] at member
      rcases List.mem_append.mp member with member | member
      · rcases List.mem_append.mp member with member | member
        · obtain ⟨u, hu, noted⟩ := notes _ member
          obtain ⟨entry, paired⟩ := exists_mem_zip_right each hu
          exact Sources.TopLevel.quiet (List.forall₂_iff_zip.mp each |>.2 paired) name noted
        · exact quiet subject name member
      · exact Sources.unknownDefinition_notMem_publishAll drained subject name member

theorem Assembled.keys_declared {w : Workspace} {a : Assembly} (assembled : w.Assembled a) :
    Assoc.keys a.declared = Assoc.keys w.catalog.definitions := by
  obtain ⟨found, each, values, _⟩ := assembled.top
  rw [values]
  unfold Assoc.keys
  exact List.map_fst_zip (by simp [each.length_eq])

theorem exists_mem_zip_keys {R : SchemaNode → Traced Notice Definition → Prop}
    {definitions : List (String × SchemaNode)} {found : List (Traced Notice Definition)}
    (each : List.Forall₂ (fun entry t => R entry.2 t) definitions found) {name : String}
    {node : SchemaNode} (member : (name, node) ∈ definitions) :
    ∃ t ∈ found, R node t ∧
      (name, t.value) ∈ (Assoc.keys definitions).zip (found.map (·.value)) := by
  induction each with
  | nil => cases member
  | cons head _ ih =>
      rcases List.mem_cons.mp member with rfl | member
      · exact ⟨_, by simp, head, by simp [Assoc.keys]⟩
      · obtain ⟨t, ht, top, paired⟩ := ih member
        exact ⟨t, by simp [ht], top, List.mem_cons_of_mem _ paired⟩

/-- What a name at the top comes to. -/
theorem Assembled.declared_eq {w : Workspace} {a : Assembly} (assembled : w.Assembled a)
    (distinct : (Assoc.keys w.catalog.definitions).Nodup) {name : String} {node : SchemaNode}
    (member : (name, node) ∈ w.catalog.definitions) :
    ∃ t, Assoc.get? name a.declared = some t.value ∧ w.sources.TopLevel node t ∧
      ∀ p ∈ t.promoted, (w.sources.after a.published).isPublished p := by
  obtain ⟨found, each, values, promoted, _, drained⟩ := assembled.top
  obtain ⟨t, ht, top, paired⟩ := exists_mem_zip_keys each member
  refine ⟨t, Assoc.get?_of_mem (assembled.keys_declared ▸ distinct) (values ▸ paired), top, ?_⟩
  intro p hp
  exact drained.queued p (List.mem_append_left _ (List.mem_flatMap.mpr ⟨t, ht, hp⟩))

/-- The nodes that a run brings to their form, each with the sources of that moment, the keys of the
targets around it and its file. -/
inductive Visits (w : Workspace) (a : Assembly) :
    Sources → List String → Option String → SchemaNode → Prop
  /-- A schema at the top. -/
  | declared {name : String} {schema : Schema}
      (member : (name, .inline schema) ∈ w.catalog.definitions) :
      Visits w a w.sources [] none (.inline schema)
  /-- The target of a bare pointer at the top. -/
  | target {name path : String} {p : Pointer} {node : SchemaNode}
      (member : (name, .ref path) ∈ w.catalog.definitions)
      (points : Pointer.within none path = .ok p) (external : p.isExternal)
      (loaded : w.sources.load SchemaNode.read p = .ok node) :
      Visits w a w.sources [p.key] p.file node
  /-- A schema that an operation uses. -/
  | site {site : Site} (member : site ∈ w.sites) : Visits w a w.sources [] site.base site.node
  /-- A target that is published. -/
  | published {stage : Sources} {p : Publication} {node : SchemaNode}
      (makes : w.sources.Makes a.published stage p)
      (loaded : stage.load SchemaNode.read p.target = .ok node) :
      Visits w a stage [p.target.key] p.target.file node

/-- The external pointers that a run follows, each with the sources of that moment and the keys of
the targets around it. -/
def Follows (w : Workspace) (a : Assembly) (s : Sources) (around : List String) (p : Pointer) :
    Prop :=
  ∃ stack base node, w.Visits a s stack base node ∧ s.Meets stack base node around p

/-- What a run visits has a form, and what is promoted on the way is published in the end. -/
theorem Assembled.visits {w : Workspace} {a : Assembly} (assembled : w.Assembled a) {s : Sources}
    {stack : List String} {base : Option String} {node : SchemaNode}
    (visits : w.Visits a s stack base node) :
    ∃ t, normalizeNode (s.follow stack) base node = .ok t ∧
      ∀ p ∈ t.promoted, (w.sources.after a.published).isPublished p := by
  obtain ⟨found, each, _, promoted, uses, drained⟩ := assembled.top
  cases visits with
  | declared member =>
      obtain ⟨t, ht, top⟩ := exists_of_forall₂_left each member
      cases top with
      | inline success =>
          refine ⟨_, success, fun p hp => drained.queued p (List.mem_append_left _ ?_)⟩
          exact List.mem_flatMap.mpr ⟨t, ht, hp⟩
  | target member points external loaded =>
      obtain ⟨t, ht, top⟩ := exists_of_forall₂_left each member
      cases top with
      | target points' external' materialized =>
          cases Except.ok.inj (points.symm.trans points')
          obtain ⟨node', u, loaded', success, rfl⟩ :=
            Sources.materialize_eq_ok_iff.mp materialized
          cases Except.ok.inj (loaded.symm.trans loaded')
          refine ⟨u, success, fun p hp => drained.queued p (List.mem_append_left _ ?_)⟩
          exact List.mem_flatMap.mpr ⟨_, ht, hp⟩
      | named points' inside definition =>
          cases Except.ok.inj (points.symm.trans points')
          exact absurd external inside
      | untyped points' inside other =>
          cases Except.ok.inj (points.symm.trans points')
          exact absurd external inside
  | site member =>
      obtain ⟨results, all, rfl, _⟩ := uses
      obtain ⟨t, ht, success⟩ := exists_of_forall₂_left all member
      refine ⟨t, success, fun p hp => drained.queued p (List.mem_append_right _ ?_)⟩
      exact List.mem_flatMap.mpr ⟨t, ht, hp⟩
  | published makes loaded =>
      obtain ⟨t, materialized, _, published⟩ := drained.made makes
      obtain ⟨node', u, loaded', success, rfl⟩ := Sources.materialize_eq_ok_iff.mp materialized
      cases Except.ok.inj (loaded.symm.trans loaded')
      exact ⟨u, success, published⟩

/-- The sources of any moment are those of the document with some targets published. -/
theorem Visits.stage {w : Workspace} {a : Assembly} {s : Sources} {stack : List String}
    {base : Option String} {node : SchemaNode} (visits : w.Visits a s stack base node) :
    ∃ before later, a.published = before ++ later ∧ s = w.sources.after before := by
  cases visits with
  | declared _ => exact ⟨[], a.published, rfl, by simp⟩
  | target _ _ _ _ => exact ⟨[], a.published, rfl, by simp⟩
  | site _ => exact ⟨[], a.published, rfl, by simp⟩
  | published makes _ =>
      obtain ⟨before, later, split, rfl⟩ := makes
      exact ⟨before ++ [_], later, by simp [split], rfl⟩

theorem Follows.stage {w : Workspace} {a : Assembly} {s : Sources} {around : List String}
    {p : Pointer} (follows : w.Follows a s around p) :
    ∃ before later, a.published = before ++ later ∧ s = w.sources.after before := by
  obtain ⟨stack, base, node, visits, _⟩ := follows
  exact visits.stage

/-- The pointers that a run follows are followed successfully. -/
theorem Assembled.follows {w : Workspace} {a : Assembly} (assembled : w.Assembled a) {s : Sources}
    {around : List String} {p : Pointer} (follows : w.Follows a s around p) :
    ∃ u, s.follow around p = .ok u ∧
      ∀ q ∈ u.promoted, (∃ inner, w.Follows a s inner q ∧ s.Cyclic inner q) ∧
        (w.sources.after a.published).isPublished q := by
  obtain ⟨stack, base, node, visits, met⟩ := follows
  obtain ⟨t, success, published⟩ := assembled.visits visits
  obtain ⟨u, followed, promoted⟩ := met.follows success
  refine ⟨u, followed, fun q member => ⟨?_, published q (promoted member)⟩⟩
  obtain ⟨inner, metInner, cyclic⟩ := (Sources.mem_promoted_iff success q).mp (promoted member)
  exact ⟨inner, ⟨stack, base, node, visits, metInner⟩, cyclic⟩

/-- Where a pointer closes a cycle, its target is published in the end. -/
theorem Assembled.isPublished_of_cyclic {w : Workspace} {a : Assembly} (assembled : w.Assembled a)
    {s : Sources} {around : List String} {p : Pointer} (follows : w.Follows a s around p)
    (cyclic : s.Cyclic around p) : (w.sources.after a.published).isPublished p := by
  obtain ⟨u, followed, promoted⟩ := assembled.follows follows
  rw [Sources.follow_of_cyclic cyclic] at followed
  cases Except.ok.inj followed
  exact (promoted p (by simp)).2

/-- What is promoted at the top is promoted by a node that the run visits. -/
theorem Visits.of_top {w : Workspace} (a : Assembly) {entry : String × SchemaNode}
    {t : Traced Notice Definition} (member : entry ∈ w.catalog.definitions)
    (top : w.sources.TopLevel entry.2 t) {p : Pointer} (promoted : p ∈ t.promoted) :
    ∃ stack base node u, w.Visits a w.sources stack base node ∧ FileName base ∧
      normalizeNode (w.sources.follow stack) base node = .ok u ∧ p ∈ u.promoted := by
  obtain ⟨name, node⟩ := entry
  cases top with
  | target points external materialized =>
      obtain ⟨node, u, loaded, success, rfl⟩ := Sources.materialize_eq_ok_iff.mp materialized
      exact ⟨_, _, node, u, .target member points external loaded,
        (Pointer.anchored_of_within fileName_none points).file, success, promoted⟩
  | named _ _ _ => cases promoted
  | untyped _ _ _ => cases promoted
  | inline success => exact ⟨_, _, _, _, .declared member, fileName_none, success, promoted⟩

theorem Assembled.anchored {w : Workspace} {a : Assembly} (assembled : w.Assembled a)
    {p : Publication} (member : p ∈ a.published) : p.target.Anchored ∧ p.target.isExternal := by
  obtain ⟨found, each, _, promoted, uses, drained⟩ := assembled.top
  refine drained.anchored ?_ p member
  intro q queued
  rcases List.mem_append.mp queued with queued | queued
  · obtain ⟨t, ht, hq⟩ := List.mem_flatMap.mp queued
    obtain ⟨entry, paired⟩ := exists_mem_zip_right each ht
    obtain ⟨stack, base, node, u, _, plain, success, hq⟩ := Visits.of_top a
      (List.of_mem_zip paired).1 (List.forall₂_iff_zip.mp each |>.2 paired) hq
    exact Sources.anchored_of_promoted success plain hq
  · obtain ⟨results, all, rfl, _⟩ := uses
    obtain ⟨t, ht, hq⟩ := List.mem_flatMap.mp queued
    obtain ⟨site, paired⟩ := exists_mem_zip_right all ht
    exact Sources.anchored_of_promoted (List.forall₂_iff_zip.mp all |>.2 paired)
      (fileName_of_sites (List.of_mem_zip paired).1) hq

/-- What a run visits stands in the document or in a file with a plain name. -/
theorem Assembled.fileName {w : Workspace} {a : Assembly} (assembled : w.Assembled a) {s : Sources}
    {stack : List String} {base : Option String} {node : SchemaNode}
    (visits : w.Visits a s stack base node) : FileName base := by
  cases visits with
  | declared _ => exact fileName_none
  | target _ points _ _ => exact (Pointer.anchored_of_within fileName_none points).file
  | site member => exact fileName_of_sites member
  | published makes _ => exact (assembled.anchored makes.mem).1.file

theorem Assembled.follows_anchored {w : Workspace} {a : Assembly} (assembled : w.Assembled a)
    {s : Sources} {around : List String} {p : Pointer} (follows : w.Follows a s around p) :
    p.Anchored ∧ p.isExternal := by
  obtain ⟨stack, base, node, visits, met⟩ := follows
  exact met.anchored (assembled.fileName visits)

end Workspace

/-- A document that declares definitions and nothing else. -/
def Document.ofDefinitions (definitions : List (String × SchemaNode)) : Document :=
  .swagger
    { version := "2.0", info := .empty, host := none, basePath := none, schemes := []
      consumes := [], produces := [], paths := [], definitions, parameters := [], responses := []
      securityDefinitions := [], security := [], tags := [] }

def Document.SchemaNode.object (properties : List (String × SchemaNode)) : SchemaNode :=
  .inline { Schema.empty with types := some (.one .object), properties }

def Json.objectSchema (properties : List (String × Json)) : Json :=
  .obj [("type", .str "object"), ("properties", .obj properties)]

def Json.reference (path : String) : Json := .obj [("$ref", .str path)]

/-- A document with a cycle in another file, whose name is taken at the top, and with a name that is
declared nowhere. -/
def Sample.graph : Document :=
  .ofDefinitions
    [("Node", .inline (.ofType .string)),
     ("Tree", .object [("root", .ref "graph.yaml#/Node"), ("other", .ref "#/definitions/Gone")])]

def Sample.graphFiles : Fragments :=
  [("graph.yaml",
    .obj [("Node", Json.objectSchema [("child", Json.reference "#/Node")])])]

end ApiCodec

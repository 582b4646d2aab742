import ApiCodec.Proofs.Bundle.Failures
import ApiCodec.Proofs.Flatten.Run

set_option autoImplicit false

/-!
A document and the files it is loaded with. Loading goes by the texts under `$ref` in plain values,
a transformation by the references in what these values are read as, moved from file to file; still
all files that a transformation looks into are loaded.
-/

namespace ApiCodec

open Document Walk

namespace Sources

variable {s : Sources}

/-- What is read from a file refers to no files but those that are loaded. -/
theorem serves_of_load {α : Type} {read : Json → Shape.Result α} {inner : α → List String}
    (reads : ReadsWithin read inner) (closed : s.fragments.Closed) {p : Pointer} {a : α}
    (loaded : s.load read p = .ok a) : s.fragments.Serves p.file (inner a) := by
  unfold load at loaded
  split at loaded
  · cases loaded
  · rename_i place sought
    split at loaded
    · cases loaded
    · rename_i b success
      cases Except.ok.inj loaded
      unfold Fragments.lookup at sought
      split at sought
      · cases sought
      · rename_i file known
        split at sought
        · cases sought
        · rename_i value found
          split at sought
          · cases sought
          · rename_i there
            cases Except.ok.inj sought
            rw [known]
            have serves := closed _ (Assoc.mem_of_get? found)
            exact serves.mono (List.Subset.trans (reads success) (Json.references_subset_of_at? there))

/-- What holds at every moment of a walk through files that refer to loaded files alone: no
reference ahead leads into another file, and no promoted target does. -/
structure Supplied (s : Sources) (m : Moment) : Prop where
  current : s.fragments.Serves m.current.file m.current.ahead
  callers : ∀ frame ∈ m.callers, s.fragments.Serves frame.file frame.ahead
  promoted : ∀ p ∈ m.promoted, s.fragments.Has p

theorem Supplied.enter {m : Moment} (supplied : s.Supplied m) (closed : s.fragments.Closed)
    (p : Pointer) : s.Supplied (s.enter p m) := by
  cases loaded : s.load SchemaNode.read p with
  | error e =>
      simp only [Sources.enter, loaded]
      exact ⟨supplied.current, supplied.callers, supplied.promoted⟩
  | ok node =>
      rw [enter_of_load loaded]
      refine ⟨serves_of_load SchemaNode.readsWithin closed loaded, ?_, supplied.promoted⟩
      intro frame member
      rcases List.mem_cons.mp member with rfl | member
      · exact supplied.current
      · exact supplied.callers frame member

theorem Supplied.take {m : Moment} {path : String} {rest : List String}
    (supplied : s.Supplied m) (closed : s.fragments.Closed)
    (ahead : m.current.ahead = path :: rest) : s.Supplied (s.take path (m.goOn rest)) := by
  have serves := supplied.current
  rw [ahead] at serves
  have later : s.Supplied (m.goOn rest) :=
    ⟨serves.mono (List.subset_cons_self _ _), supplied.callers, supplied.promoted⟩
  unfold Sources.take
  split
  · exact ⟨later.current, later.callers, later.promoted⟩
  · rename_i p points
    split
    · exact later
    · rename_i away
      rw [Bool.or_eq_true, not_or] at away
      split
      · refine ⟨later.current, later.callers, ?_⟩
        intro q member
        rcases List.mem_append.mp member with member | member
        · exact later.promoted q member
        · cases List.mem_singleton.mp member
          exact serves path List.mem_cons_self p points (by simpa using away.1)
      · exact later.enter closed p

theorem Supplied.step {m next : Moment} (supplied : s.Supplied m) (closed : s.fragments.Closed)
    (stepped : s.step m = some next) : s.Supplied next := by
  unfold Sources.step at stepped
  split at stepped
  · rename_i path rest _ ahead
    cases Option.some.inj stepped
    exact supplied.take closed ahead
  · rename_i around
    cases Option.some.inj stepped
    have callers := supplied.callers
    rw [around] at callers
    exact ⟨callers _ List.mem_cons_self, fun frame member =>
      callers frame (List.mem_cons_of_mem _ member), supplied.promoted⟩
  · rename_i around
    cases Option.some.inj stepped
    have callers := supplied.callers
    rw [around] at callers
    exact ⟨callers _ List.mem_cons_self, fun frame member =>
      callers frame (List.mem_cons_of_mem _ member), supplied.promoted⟩
  · cases stepped
  · cases stepped

theorem Supplied.reaches {m last : Moment} (supplied : s.Supplied m) (closed : s.fragments.Closed)
    (reached : s.Reaches m last) : s.Supplied last := by
  induction reached with
  | refl => exact supplied
  | tail _ stepped ih => exact ih.step closed stepped

theorem Supplied.seeks {m : Moment} (supplied : s.Supplied m) (closed : s.fragments.Closed)
    {p : Pointer} (sought : s.Seeks m p) : s.fragments.Has p := by
  obtain ⟨last, path, rest, reached, _, ahead, points, external⟩ := sought
  have serves := (supplied.reaches closed reached).current
  rw [ahead] at serves
  exact serves path List.mem_cons_self p points external

theorem supplied_atNode {base : Option String} {node : SchemaNode}
    (serves : s.fragments.Serves base node.paths) : s.Supplied (.atNode base node) where
  current := serves
  callers := by simp [Moment.atNode]
  promoted := by simp [Moment.atNode]

theorem supplied_atTarget (closed : s.fragments.Closed) (p : Pointer) :
    s.Supplied (s.atTarget p) := by
  have outside : s.Supplied Moment.outside :=
    ⟨fun _ member => (List.not_mem_nil member).elim, by simp [Moment.outside],
      by simp [Moment.outside]⟩
  exact outside.enter closed p

/-- The promoted targets are in loaded files. -/
theorem has_of_normalize (closed : s.fragments.Closed) {base : Option String} {node : SchemaNode}
    (serves : s.fragments.Serves base node.paths) {t : Traced Notice Node}
    (success : s.normalize base node = .ok t) : ∀ p ∈ t.promoted, s.fragments.Has p := by
  obtain ⟨last, reached, _, _, outcome⟩ := ends_atNode s base node
  rw [success] at outcome
  intro p member
  exact ((supplied_atNode serves).reaches closed reached).promoted p (outcome.2 ▸ member)

theorem has_of_materialize (closed : s.fragments.Closed) {p : Pointer}
    {t : Traced Notice Definition} (success : s.materialize p = .ok t) :
    ∀ q ∈ t.promoted, s.fragments.Has q := by
  obtain ⟨last, reached, _, _, outcome⟩ := ends_atTarget s p
  rw [success] at outcome
  intro q member
  exact ((supplied_atTarget closed p).reaches closed reached).promoted q (outcome.2 ▸ member)

end Sources

namespace Catalog

variable {refs : List String}

theorem paths_subset_of_chase {α : Type} {inner : α → List String}
    {registry : List (String × OrRef α)}
    (registered : ∀ entry ∈ registry, entry.2.paths inner ⊆ refs)
    {kind : PointerKind} {endless : String → String} {steps : Nat} {last : String} {node : OrRef α}
    (own : node.paths inner ⊆ refs) {a : α}
    (success : chase registry kind endless steps last node = .ok a) : inner a ⊆ refs := by
  induction steps generalizing last node with
  | zero => cases success
  | succ steps ih =>
      cases node with
      | inline value =>
          cases Except.ok.inj success
          exact own
      | ref path =>
          simp only [chase] at success
          split at success
          · cases success
          · split at success
            · cases success
            · split at success
              · rename_i next known
                exact ih (registered _ (Assoc.mem_of_get? known)) success
              · cases success

end Catalog

namespace Workspace

/-- A document and files that refer to loaded files alone; `refs` are the references of the
document. -/
structure Served (w : Workspace) (refs : List String) : Prop where
  catalog : w.catalog.Within refs
  own : w.sources.fragments.Serves none refs
  closed : w.sources.fragments.Closed

variable {w : Workspace} {refs : List String}

/-- Where a parameter reference leads, the references stand in the file of the pointer. -/
theorem Served.parameterTarget (served : w.Served refs) {p : Pointer} {node : ParameterNode}
    {t : Traced Notice (Option ParameterNode)} (success : w.parameterTarget p = .ok t)
    (given : t.value = some node) : w.sources.fragments.Serves p.file node.paths := by
  unfold Workspace.parameterTarget at success
  split at success
  · split at success
    · rename_i loaded
      cases Transform.value_eq_ok_iff.mp success
      cases Option.some.inj given
      exact Sources.serves_of_load ParameterNode.readsWithin served.closed loaded
    · cases Transform.value_eq_ok_iff.mp success
      cases given
    · exact absurd success Transform.fail_ne_ok
  · rename_i inside
    cases Transform.value_eq_ok_iff.mp success
    have none : p.file = none := by simpa [Pointer.isExternal] using inside
    rw [none]
    exact served.own.mono (served.catalog.parameters _ (Assoc.mem_of_get? given))

theorem Served.chains (served : w.Served refs) {base : Option String} {path : String} {p : Pointer}
    (chained : w.Chains base path p) (serves : w.sources.fragments.Serves base [path])
    (external : p.isExternal) : w.sources.fragments.Has p := by
  induction chained with
  | here points _ => exact serves _ List.mem_cons_self _ points external
  | next _ _ target given _ ih => exact ih (served.parameterTarget target given) external

theorem Served.followParameter (served : w.Served refs) {subject : String} {steps : Nat}
    {base : Option String} {path : String} (serves : w.sources.fragments.Serves base [path])
    {t : Traced Notice (Option (Document.Parameter × Option String))}
    (success : w.followParameter subject steps base path = .ok t) {declared : Document.Parameter}
    {file : Option String} (given : t.value = some (declared, file)) :
    w.sources.fragments.Serves file declared.paths := by
  induction steps generalizing base path t with
  | zero =>
      unfold Workspace.followParameter at success
      cases eq_of_noted success
      cases given
  | succ steps ih =>
      unfold Workspace.followParameter at success
      split at success
      · cases eq_of_noted success
        cases given
      · simp only at success
        split at success
        · obtain ⟨a, b, target, next, rfl⟩ := Transform.bind_eq_ok_iff.mp success
          split at next
          · rename_i parameter found
            cases Transform.pure_eq_ok_iff.mp next
            cases Option.some.inj given
            exact served.parameterTarget target found
          · rename_i later found
            exact ih (served.parameterTarget target found) next given
          · cases eq_of_noted next
            cases given
        · exact absurd success Transform.fail_ne_ok
        · cases eq_of_noted success
          cases given

theorem Served.resolveParameter (served : w.Served refs) {subject : String} {node : ParameterNode}
    (mentioned : node.paths ⊆ refs)
    {t : Traced Notice (Option (Document.Parameter × Option String))}
    (success : w.resolveParameter subject node = .ok t) {declared : Document.Parameter}
    {file : Option String} (given : t.value = some (declared, file)) :
    w.sources.fragments.Serves file declared.paths := by
  cases node with
  | inline parameter =>
      cases Transform.value_eq_ok_iff.mp success
      cases Option.some.inj given
      exact served.own.mono mentioned
  | ref path => exact served.followParameter (served.own.mono mentioned) success given

theorem Served.parameterSites (served : w.Served refs) {subject : String}
    {nodes : List ParameterNode} (mentioned : ∀ node ∈ nodes, ParameterNode.paths node ⊆ refs)
    {site : Site} (member : site ∈ w.parameterSites subject nodes) :
    w.sources.fragments.Serves site.base site.node.paths := by
  obtain ⟨node, declares, member⟩ := List.mem_flatMap.mp member
  split at member
  · rename_i declared base notes promoted resolved
    have serves := served.resolveParameter (mentioned node declares) resolved rfl
    obtain ⟨schema, given, rfl⟩ := List.mem_map.mp member
    rw [Parameter.paths, Option.mem_toList.mp given] at serves
    exact serves
  · cases member

theorem Served.bodySites (served : w.Served refs) {op : Document.Operation}
    (mentioned : ∀ node ∈ op.requestBody, RequestBodyNode.paths node ⊆ refs) {site : Site}
    (member : site ∈ w.bodySites op) : w.sources.fragments.Serves site.base site.node.paths := by
  unfold Workspace.bodySites at member
  split at member
  · rename_i body found
    have content : contentPaths body.content ⊆ refs := by
      unfold Catalog.requestBody at found
      split at found
      · rename_i node _ given
        obtain ⟨chased, reached, same⟩ := Shape.map_eq_ok_iff.mp found
        cases Option.some.inj same
        exact Catalog.paths_subset_of_chase served.catalog.requestBodies (mentioned node given)
          reached
      · cases found
    split at member
    · cases member
    · rename_i contentType media rest first
      split at member
      · cases member
      · obtain ⟨schema, given, rfl⟩ := List.mem_map.mp member
        have own : givenPaths media.schema ⊆ refs :=
          flatMap_subset_iff.mp content (contentType, media)
            (by rw [first]; exact List.mem_cons_self)
        rw [Option.mem_toList.mp given] at own
        exact served.own.mono own
  · cases member

theorem Served.responseSites (served : w.Served refs) {responses : List (String × ResponseNode)}
    (mentioned : ∀ entry ∈ responses, ResponseNode.paths entry.2 ⊆ refs) {site : Site}
    (member : site ∈ w.responseSites responses) :
    w.sources.fragments.Serves site.base site.node.paths := by
  obtain ⟨⟨status, node⟩, declares, member⟩ := List.mem_flatMap.mp member
  simp only at member
  split at member
  · cases member
  · rename_i declared found
    have own : declared.paths ⊆ refs :=
      Catalog.paths_subset_of_chase served.catalog.responses (mentioned _ declares) found
    obtain ⟨schema, content⟩ := List.append_subset.mp own
    split at member
    · rename_i contentType path known
      cases List.mem_singleton.mp member
      refine served.own.mono ?_
      unfold Catalog.responseSchema? at known
      split at known
      · obtain ⟨node, given, same⟩ := Option.map_eq_some_iff.mp known
        cases same
        rwa [given] at schema
      · split at known
        · cases known
        · rename_i contentType media rest first
          obtain ⟨node, given, same⟩ := Option.map_eq_some_iff.mp known
          cases same
          have own := flatMap_subset_iff.mp content (contentType, media)
            (by rw [first]; exact List.mem_cons_self)
          rwa [given] at own
    · cases member

/-- The schemas that operations use refer to loaded files alone. -/
theorem Served.sites (served : w.Served refs) {site : Site} (member : site ∈ w.sites) :
    w.sources.fragments.Serves site.base site.node.paths := by
  obtain ⟨⟨path, item⟩, declared, member⟩ := List.mem_flatMap.mp member
  have within := served.catalog.paths _ declared
  rcases List.mem_append.mp member with member | member
  · exact served.parameterSites within.shared member
  · split at member
    · cases member
    · rename_i operations listed
      obtain ⟨⟨key, op⟩, own, member⟩ := List.mem_flatMap.mp member
      obtain ⟨parameters, body, responses⟩ :=
        Document.Operation.paths_subset_iff.mp (within.operations _ listed _ own)
      simp only [entrySites] at member
      split at member
      · rcases List.mem_append.mp member with member | member
        · exact served.parameterSites parameters member
        · rcases List.mem_append.mp member with member | member
          · exact served.bodySites body member
          · exact served.responseSites responses member
      · cases member

theorem Served.mentioned (served : w.Served refs) {node : ParameterNode}
    (member : node ∈ w.parameterNodes) : node.paths ⊆ refs := by
  obtain ⟨⟨path, item⟩, declared, member⟩ := List.mem_flatMap.mp member
  have within := served.catalog.paths _ declared
  rcases List.mem_append.mp member with member | member
  · exact within.shared node member
  · split at member
    · cases member
    · rename_i operations listed
      obtain ⟨entry, own, member⟩ := List.mem_flatMap.mp member
      have paths := Document.Operation.paths_subset_iff.mp (within.operations _ listed _ own)
      exact paths.1 node member

/-- Every walk of a transformation begins where all references ahead lead into loaded files. -/
theorem Served.walks (served : w.Served refs) {s : Sources} {start : Moment}
    (begun : w.Walks s start) :
    s.fragments = w.sources.fragments ∧ s.Supplied start := by
  cases begun with
  | definition declared =>
      exact ⟨rfl, Sources.supplied_atNode (served.own.mono (served.catalog.definitions _ declared))⟩
  | target declared points external => exact ⟨rfl, Sources.supplied_atTarget served.closed _⟩
  | site member => exact ⟨rfl, Sources.supplied_atNode (served.sites member)⟩
  | @promoted parts b p rest success reached running queued absent =>
      have same : b.sources.fragments = w.sources.fragments :=
        ((Backlog.apart_start _ _).reaches reached).fragments
      have closed : (b.sources.publish p).fragments.Closed := by
        change b.sources.fragments.Closed
        rw [same]
        exact served.closed
      exact ⟨same, Sources.supplied_atTarget closed p⟩

theorem Served.topLevel (served : w.Served refs) {name : String} {node : SchemaNode}
    (declared : (name, node) ∈ w.catalog.definitions) {t : Traced Notice Definition}
    (top : w.sources.TopLevel node t) : ∀ p ∈ t.promoted, w.sources.fragments.Has p := by
  cases top with
  | target points external materialized =>
      exact Sources.has_of_materialize served.closed materialized
  | named _ _ _ => simp
  | untyped _ _ _ => simp
  | inline success =>
      exact Sources.has_of_normalize served.closed
        (served.own.mono (served.catalog.definitions _ declared)) success

/-- What the parts of a document promote is in loaded files. -/
theorem Served.parts (served : w.Served refs)
    {parts : Traced Diagnostic (Definitions × List Operation)} (success : w.parts = .ok parts) :
    ∀ p ∈ parts.promoted, w.sources.fragments.Has p := by
  unfold Workspace.parts at success
  simp only [Transform.bind_eq_ok_iff, Transform.pure_eq_ok_iff] at success
  obtain ⟨a, _, top, ⟨b, _, operations, rfl, rfl⟩, rfl⟩ := success
  obtain ⟨found, each, _, promoted, _⟩ := topLevel_eq_ok top
  obtain ⟨_, ⟨forms, sites, more, _⟩, _⟩ := allOperations_uses operations
  intro p member
  simp only [List.append_nil, List.mem_append] at member
  rcases member with member | member
  · rw [promoted] at member
    obtain ⟨t, inside, member⟩ := List.mem_flatMap.mp member
    obtain ⟨entry, paired⟩ := exists_mem_zip_right each inside
    exact served.topLevel (List.of_mem_zip paired).1
      (List.forall₂_iff_zip.mp each |>.2 paired) p member
  · rw [more] at member
    obtain ⟨t, inside, member⟩ := List.mem_flatMap.mp member
    obtain ⟨site, paired⟩ := exists_mem_zip_right sites inside
    exact Sources.has_of_normalize served.closed (served.sites (List.of_mem_zip paired).1)
      (List.forall₂_iff_zip.mp sites |>.2 paired) p member

/-- What the queue holds at any time is in loaded files. -/
theorem Served.queue (served : w.Served refs) {queue : List Pointer}
    (queued : ∀ p ∈ queue, w.sources.fragments.Has p) {b : Backlog}
    (reached : (Backlog.start w.sources queue).Reaches b) :
    ∀ p ∈ b.queue, w.sources.fragments.Has p := by
  induction reached with
  | refl => exact queued
  | @tail m next reached stepped ih =>
      have same : m.sources.fragments = w.sources.fragments :=
        ((Backlog.apart_start _ _).reaches reached).fragments
      unfold Backlog.step at stepped
      split at stepped
      · rename_i p rest _ ahead
        rw [ahead] at ih
        have later : ∀ q ∈ rest, w.sources.fragments.Has q := fun q member =>
          ih q (List.mem_cons_of_mem p member)
        cases Option.some.inj stepped
        split
        · exact later
        · unfold Backlog.take
          simp only
          split
          · exact later
          · rename_i found materialized
            have closed : (m.sources.publish p).fragments.Closed := by
              change m.sources.fragments.Closed
              rw [same]
              exact served.closed
            have promoted := Sources.has_of_materialize closed materialized
            intro q member
            rcases List.mem_append.mp member with member | member
            · exact later q member
            · rw [← same]
              exact promoted q member
      · cases stepped

/-- Every pointer that a transformation looks up leads into a loaded file. -/
theorem Served.looksUp (served : w.Served refs) {p : Pointer} (sought : w.LooksUp p) :
    w.sources.fragments.Has p := by
  cases sought with
  | walk begun sought =>
      obtain ⟨same, supplied⟩ := served.walks begun
      rw [← same]
      exact supplied.seeks (same ▸ served.closed) sought
  | promoted success reached running queued absent =>
      exact served.queue (served.parts success) reached p (by rw [queued]; exact List.mem_cons_self)
  | parameter mentioned chained external =>
      refine served.chains chained (served.own.mono ?_) external
      exact served.mentioned mentioned

/-- A document that was loaded with its files is served by them. -/
theorem served_of_load {ε : Type} {loader : String → Except ε Json} {limit : Nat} {path : String}
    {b : Bundle} (loaded : Bundle.load loader limit path = .ok (some b))
    (plain : ∀ value ∈ b.values, ∀ reference ∈ value.references,
      Text.contains "://" reference = false)
    {document : Document} (read : Document.ofJson b.root = .ok document) :
    (ofDocument document b.fragments).Served b.root.references := by
  obtain ⟨own, closed⟩ := Bundle.serves_of_load loaded plain
  exact ⟨Catalog.within_of_ofJson read, own, closed⟩

end Workspace

/-- Whatever files a document is loaded with, if none of its references and theirs lead to other
hosts, then no file is missing: the transformation does not fail for want of one, all pointers that
it looks up lead into loaded files, and where a parameter is left out for want of a target, its file
is loaded and does not hold it. -/
theorem loaded_files_suffice {ε : Type} (loader : String → Except ε Json) (limit : Nat)
    (path : String) (b : Bundle) (loaded : Bundle.load loader limit path = .ok (some b))
    (plain : ∀ value ∈ b.values, ∀ reference ∈ value.references,
      Text.contains "://" reference = false) :
    (∀ e, Model.ofJson b.root b.fragments = .error e → ¬ e.Missing) ∧
      ∀ document, Document.ofJson b.root = .ok document →
        (∀ p, (Workspace.ofDocument document b.fragments).LooksUp p → b.fragments.Has p) ∧
        ∀ subject reference raw t, .ref reference ∈
            (Workspace.ofDocument document b.fragments).parameterNodes →
          (Workspace.ofDocument document b.fragments).resolveParameter subject (.ref reference) =
            .ok t →
          .parameterMissing raw ∈ t.notes →
          ∃ p, (Workspace.ofDocument document b.fragments).Chains none reference p ∧
            (p.isExternal → b.fragments.lookup p = .error (.targetNotFound p.key)) := by
  refine ⟨?_, ?_⟩
  · intro e failed missing
    unfold Model.ofJson at failed
    split at failed
    · cases Except.error.inj failed
      exact TransformError.not_missing_parse _ missing
    · rename_i document read
      have served := Workspace.served_of_load loaded plain read
      cases assembled : (Workspace.ofDocument document b.fragments).assemble with
      | ok a =>
          simp only [Model.ofDocument, assembled, Except.map] at failed
          cases failed
      | error cause =>
          simp only [Model.ofDocument, assembled, Except.map] at failed
          cases Except.error.inj failed
          obtain ⟨p, sought, absent⟩ := Workspace.exists_looksUp_of_assemble assembled missing
          exact absent (served.looksUp sought)
  · intro document read
    have served := Workspace.served_of_load loaded plain read
    refine ⟨fun p sought => served.looksUp sought, ?_⟩
    intro subject reference raw t mentioned success noted
    obtain ⟨p, chained, why⟩ := Workspace.exists_chains_of_parameterMissing success noted
    refine ⟨p, chained, fun external => ?_⟩
    obtain ⟨cause, failed⟩ := why external
    rcases Fragments.error_of_lookup failed with absent | rfl
    · exact absurd (served.looksUp (.parameter mentioned chained external)) absent
    · exact failed

def Sample.files : List (String × Json) :=
  [("api.json", .obj
      [("swagger", .str "2.0"),
       ("paths", .obj [("/people", .obj
         [("parameters", .arr [Json.reference "parts/limits.json#/parameters/Limit"])])]),
       ("definitions", .obj [("Person", Json.reference "parts/people.json#/Person")])]),
   ("parts/limits.json", .obj [("parameters", .obj [("Limit", .obj
      [("name", .str "limit"), ("in", .str "query"), ("type", .str "integer")])])]),
   ("parts/people.json", .obj [("Person", Json.objectSchema
      [("home", Json.reference "../places.json#/Place"), ("friend", Json.reference "#/Person")])]),
   ("places.json", .obj [("Place", .obj [("type", .str "string")])])]

def Sample.loadFile (path : String) : Except String Json :=
  match Assoc.get? path files with
  | some value => .ok value
  | none => .error path

def Document.ParameterNode.path? : ParameterNode → Option String
  | .ref path => some path
  | .inline _ => none

/-- What a document was loaded with and what it refers to, as far as names tell. -/
structure Bundle.Overview where
  files : List String
  /-- No reference leads to another host. -/
  plain : Bool
  /-- The names at the top, each with its reference if it is one. -/
  definitions : List (String × Option String)
  parameters : List (Option String)
  deriving DecidableEq

def Bundle.overview (b : Bundle) (document : Document) : Overview :=
  { files := Assoc.keys b.fragments
    plain := b.values.all fun value => value.references.all fun path => !Text.contains "://" path
    definitions := (Catalog.ofDocument document).definitions.map fun e => (e.1, e.2.path?)
    parameters :=
      (Workspace.ofDocument document b.fragments).parameterNodes.map ParameterNode.path? }

/-- The people are looked up in one file and the limit in another. -/
theorem loaded_people_suffice :
    ∃ b document, Bundle.load Sample.loadFile 5 "api.json" = .ok (some b) ∧
      Assoc.keys b.fragments = ["parts/limits.json", "parts/people.json", "places.json"] ∧
      Document.ofJson b.root = .ok document ∧
      (∃ p, (Workspace.ofDocument document b.fragments).LooksUp p ∧
        p.file = some "parts/limits.json") ∧
      (∃ p, (Workspace.ofDocument document b.fragments).LooksUp p ∧
        p.file = some "parts/people.json") ∧
      (∀ p, (Workspace.ofDocument document b.fragments).LooksUp p → b.fragments.Has p) ∧
      ∀ e, Model.ofJson b.root b.fragments = .error e → ¬ e.Missing := by
  obtain ⟨found, success, facts⟩ := exists_ok_of_map
    (x := Bundle.load Sample.loadFile 5 "api.json")
    (f := fun found => found.bind fun b =>
      (Document.ofJson b.root).toOption.map (b.overview ·))
    (b := some
      { files := ["parts/limits.json", "parts/people.json", "places.json"]
        plain := true
        definitions := [("Person", some "parts/people.json#/Person")]
        parameters := [some "parts/limits.json#/parameters/Limit"] }) (by decide +kernel)
  obtain ⟨b, rfl, read⟩ := Option.bind_eq_some_iff.mp facts
  obtain ⟨document, read, overview⟩ := exists_ok_of_map read
  obtain ⟨files, plain, definitions, parameters⟩ := by
    simpa only [Bundle.overview, Bundle.Overview.mk.injEq] using overview
  obtain ⟨fails, looked⟩ := loaded_files_suffice Sample.loadFile 5 "api.json" b success
    (by simpa using plain)
  obtain ⟨person, declared, reference⟩ := List.map_eq_singleton_iff.mp definitions
  obtain ⟨name, node⟩ := person
  obtain ⟨limit, mentioned, parameter⟩ := List.map_eq_singleton_iff.mp parameters
  obtain ⟨p, points, shape⟩ := exists_ok_of_map
    (x := Pointer.within none "parts/people.json#/Person")
    (f := fun p => (p.isExternal, p.file)) (b := (true, some "parts/people.json"))
    (by decide +kernel)
  obtain ⟨q, points', shape'⟩ := exists_ok_of_map
    (x := Pointer.within none "parts/limits.json#/parameters/Limit")
    (f := fun p => (p.isExternal, p.kind, p.file))
    (b := (true, .parameter, some "parts/limits.json")) (by decide +kernel)
  obtain ⟨external, file⟩ := Prod.mk.inj shape
  obtain ⟨external', kind, file'⟩ := by simpa only [Prod.mk.injEq] using shape'
  refine ⟨b, document, success, files, read, ⟨q, ?_, file'⟩, ⟨p, ?_, file⟩,
    (looked document read).1, fails⟩
  · cases limit with
    | inline parameter => cases parameter
    | ref path =>
        cases Option.some.inj parameter
        exact .parameter (by rw [mentioned]; exact List.mem_cons_self) (.here points' kind) external'
  · cases node with
    | inline schema => cases (Prod.mk.inj reference).2
    | ref path =>
        cases Option.some.inj (Prod.mk.inj reference).2
        have top : (name, SchemaNode.ref "parts/people.json#/Person") ∈
            (Workspace.ofDocument document b.fragments).catalog.definitions :=
          declared ▸ List.mem_cons_self
        exact .walk (.definition top) ⟨_, _, [], .refl, rfl, rfl, points, external⟩

end ApiCodec

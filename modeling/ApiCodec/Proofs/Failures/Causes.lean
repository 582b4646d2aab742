import ApiCodec.Proofs.Bundle.Agreement
import ApiCodec.Proofs.Dialect.Equivalence
import ApiCodec.Proofs.Notices.Accounts

set_option autoImplicit false

namespace ApiCodec

open Document

/-- No reference of a document has a file part. -/
def Catalog.SelfContained (c : Catalog) : Prop :=
  ∃ refs, c.Within refs ∧ ∀ path ∈ refs, (Pointer.split path).1 = ""

/-- A document whose value has no reference with a file part. -/
theorem Catalog.selfContained_of_ofJson {value : Json} {document : Document}
    (success : Document.ofJson value = .ok document)
    (own : ∀ path ∈ value.references, (Pointer.split path).1 = "") :
    (Catalog.ofDocument document).SelfContained :=
  ⟨value.references, within_of_ofJson success, own⟩

theorem Pointer.not_isExternal_of_within {path : String} {p : Pointer}
    (own : (Pointer.split path).1 = "") (points : Pointer.within none path = .ok p) :
    ¬ p.isExternal := by
  obtain ⟨raw, parsed, rfl⟩ := Pointer.within_eq_ok_iff.mp points
  have inside : raw.file = none := by
    unfold Pointer.parse at parsed
    generalize Pointer.split path = parts at own parsed
    obtain ⟨file, fragment⟩ := parts
    subst own
    simp only at parsed
    split at parsed
    · cases parsed
    · split at parsed
      · cases Except.ok.inj parsed
        rfl
      · cases parsed
  simp [Pointer.isExternal, Pointer.relativeTo, Pointer.anchor, inside]

/-- Where no files are loaded, references that lead into none but loaded files lead into none. -/
theorem Fragments.Serves.not_isExternal {fragments : Fragments} {base : Option String}
    {references : List String} (serves : fragments.Serves base references) (alone : fragments = [])
    {path : String} (member : path ∈ references) {p : Pointer}
    (points : Pointer.within base path = .ok p) : ¬ p.isExternal := by
  intro external
  obtain ⟨file, _, loaded⟩ := serves path member p points external
  rw [alone] at loaded
  cases loaded

section

variable {ν α : Type} {t : Transform ν α} {follow : Pointer → Transform Notice Node}
  {base : Option String} {paths : List String}

/-- Without files, a step that walks along references fails only at one that is no pointer. -/
theorem exists_malformed_of_trail {fragments : Fragments} (alone : fragments = [])
    (serves : fragments.Serves base paths) (walks : t.trail = trailOf follow base paths)
    {e : TransformError} (failed : t = .error e) :
    ∃ path ∈ paths, ∃ cause, Pointer.parse path = .error cause ∧ e = .reference cause := by
  obtain ⟨path, member, unresolved⟩ := exists_resolve_eq_error walks failed
  rcases resolve_eq_error unresolved with malformed | ⟨p, points, external, _⟩
  · exact ⟨path, member, malformed⟩
  · exact absurd external (serves.not_isExternal alone member points)

/-- A step that walks along references to its end comes to pointers only. -/
theorem exists_parse_of_trail (walks : t.trail = trailOf follow base paths) {a : Traced ν α}
    (success : t = .ok a) {path : String} (member : path ∈ paths) :
    ∃ p, Pointer.parse path = .ok p := by
  obtain ⟨b, resolved⟩ := exists_resolve_eq_ok walks success member
  obtain ⟨p, points, _⟩ := resolve_eq_ok resolved
  obtain ⟨raw, parsed, _⟩ := Pointer.within_eq_ok_iff.mp points
  exact ⟨raw, parsed⟩

end

/-- A definition at the top walks along the references of its node. -/
theorem Sources.trail_normalizeTopLevel (s : Sources) (node : SchemaNode) :
    ∃ follow, (s.normalizeTopLevel node).trail = trailOf follow none node.paths := by
  cases node with
  | ref path =>
      refine ⟨fun p => .inline <$> s.materialize p, ?_⟩
      simp only [normalizeTopLevel, Transform.trail_map, SchemaNode.paths, trailOf, Trail.append_nil]
  | inline schema => exact ⟨s.follow [], trail_normalizeSchema _ _ schema⟩

namespace Workspace

variable {w : Workspace} {refs : List String}

/-- Why a document has no model if it refers to no files. -/
inductive Fatal (w : Workspace) : TransformError → Prop
  /-- A reference on the way from a definition at the top is no pointer. -/
  | definition {name path : String} {node : SchemaNode} {cause : ReferenceError}
      (declared : (name, node) ∈ w.catalog.definitions) (visited : path ∈ node.paths)
      (malformed : Pointer.parse path = .error cause) : Fatal w (.reference cause)
  /-- A reference on the way from a schema that the operations use is no pointer. -/
  | schema {site : Site} {path : String} {cause : ReferenceError} (used : site ∈ w.sites)
      (visited : path ∈ site.node.paths) (malformed : Pointer.parse path = .error cause) :
      Fatal w (.reference cause)
  /-- An entry of a path item, no extension, does not read as an operation. -/
  | entry {path : String} {item : PathItem} {entry : String × Json} {cause : ShapeError}
      (listed : (path, item) ∈ w.catalog.paths) (declared : entry ∈ item.entries)
      (plain : ¬ PathItem.isExtension entry.1)
      (unread : Document.Operation.read entry.2 = .error cause) :
      Fatal w (.parse (.shape w.catalog.dialect cause))
  /-- A parameter of a path, or of an operation that is kept, comes to a pointer into a collection
  of no known kind. -/
  | parameter {path subject text raw : String} {item : PathItem} {ps : List Pointer} {p : Pointer}
      (listed : (path, item) ∈ w.catalog.paths) (takes : Takes item path subject (.ref text))
      (strays : w.Strays none text ps raw p) :
      Fatal w (.operation subject (.unsupportedCollection raw p.collection))

/-- Without files, looking up a parameter never fails. -/
theorem parameterTarget_ne_error (alone : w.sources.fragments = []) {p : Pointer}
    {e : TransformError} : w.parameterTarget p ≠ .error e := by
  intro failed
  unfold parameterTarget at failed
  split at failed
  · obtain ⟨cause, missing⟩ := Sources.load_alone alone ParameterNode.read p
    rw [missing] at failed
    cases failed
  · cases failed

/-- Without files, a chain stays in the document. -/
theorem Traverses.filter_isExternal (alone : w.sources.fragments = []) {base last : Option String}
    {path raw : String} {ps : List Pointer} (way : w.Traverses base path ps last raw) :
    ps.filter Pointer.isExternal = [] := by
  rw [List.filter_eq_nil_iff]
  intro p member external
  obtain ⟨_, _, _, _, _, _, _, leads, _⟩ := way.exists_leads_of_mem member
  cases leads.holds with
  | declared inside _ => simp [Pointer.isExternal, inside] at external
  | loaded _ found _ =>
      obtain ⟨file, known⟩ := Pointer.exists_file external
      simp [Fragments.lookup, known, alone, Assoc.get?] at found

/-- A parameter that a path item follows is resolved if its operations are built. -/
theorem exists_resolve_of_operations {path subject : String} {item : PathItem}
    {node : ParameterNode} {t : Traced Diagnostic (List Operation)}
    (success : w.operations path item = .ok t) (takes : Takes item path subject node) :
    ∃ r, w.resolveParameter subject node = .ok r := by
  have resolved : ∀ {subject outcome}, w.ParameterFate subject node outcome →
      ∃ r, w.resolveParameter subject node = .ok r := by
    intro subject outcome fate
    cases fate with
    | resolved found _ => exact ⟨_, found⟩
    | dropped lost _ => exact ⟨_, lost⟩
  obtain ⟨common, declared, found, commonFound, read, each, _⟩ := comes_of_operations success
  cases takes with
  | shared member =>
      obtain ⟨u, built, _⟩ := eq_of_sharedParameters commonFound
      obtain ⟨outcomes, fates, _⟩ := fates_of_parameters built
      obtain ⟨_, _, fate⟩ := exists_of_forall₂_left fates member
      exact resolved fate
  | own read' inside supported identified member =>
      cases Except.ok.inj (read.symm.trans read')
      obtain ⟨u, _, comes⟩ := exists_of_forall₂_left each inside
      cases comes with
      | unsupported unknown => cases supported.symm.trans unknown
      | anonymous _ absent => cases identified.symm.trans absent
      | made _ identified' built =>
          cases Option.some.inj (identified.symm.trans identified')
          obtain ⟨_, _, accounts, _, _, rfl, _⟩ := accounts_of_operation built
          obtain ⟨_, _, fate⟩ := exists_of_forall₂_left accounts.parameterFates member
          exact resolved fate

/-- Each definition at the top is made if all are. -/
theorem exists_of_topLevel_ok {s : Sources} {definitions : List (String × SchemaNode)}
    {t : Traced Diagnostic Definitions} (success : topLevel s definitions = .ok t)
    {entry : String × SchemaNode} (member : entry ∈ definitions) :
    ∃ u, s.normalizeTopLevel entry.2 = .ok u := by
  induction definitions generalizing t with
  | nil => cases member
  | cons first rest ih =>
      unfold topLevel at success
      simp only [Transform.bind_eq_ok_iff, Transform.about_eq_ok_iff, Transform.pure_eq_ok_iff]
        at success
      obtain ⟨_, _, ⟨a, own, rfl⟩, ⟨b, _, others, rfl, rfl⟩, rfl⟩ := success
      rcases List.mem_cons.mp member with rfl | member
      · exact ⟨a, own⟩
      · exact ih others member

/-- Without files, building what a document declares fails for one of the causes. -/
theorem fatal_of_parts (alone : w.sources.fragments = []) (served : w.Served refs)
    {e : TransformError} (failed : w.parts = .error e) : w.Fatal e := by
  rcases Transform.bind_eq_error_iff.mp failed with top | ⟨_, _, later⟩
  · obtain ⟨⟨name, node⟩, declared, unmade⟩ := exists_of_topLevel top
    obtain ⟨follow, walks⟩ := w.sources.trail_normalizeTopLevel node
    have serves := served.own.mono (served.catalog.definitions _ declared)
    obtain ⟨path, visited, cause, malformed, rfl⟩ :=
      exists_malformed_of_trail alone serves walks unmade
    exact .definition declared visited malformed
  · rcases Transform.bind_eq_error_iff.mp later with operations | ⟨_, _, none⟩
    · rcases allOperations_failsAt _ (List.Subset.refl _) e operations with
        fault | ⟨site, used, unmade⟩
      · cases fault with
        | @parameter path subject item node _ listed takes unresolved =>
            cases node with
            | inline parameter => cases unresolved
            | ref text =>
                rcases strays_of_followParameter unresolved with
                  ⟨ps, raw, p, strays, rfl⟩ | ⟨p, target⟩
                · exact .parameter listed takes strays
                · exact absurd target (parameterTarget_ne_error alone)
        | entries listed unread =>
            obtain ⟨entry, declared, plain, cause⟩ :=
              PathItem.exists_entry_of_operations_eq_error unread
            exact .entry listed declared plain cause
      · obtain ⟨path, visited, cause, malformed, rfl⟩ := exists_malformed_of_trail alone
          (served.sites used) (trail_normalizeNode _ _ site.node) unmade
        exact .schema used visited malformed
    · cases none

/-- Where one of the causes is given, what a document declares is not built. -/
theorem Fatal.parts_ne_ok (alone : w.sources.fragments = []) {e : TransformError}
    (fatal : w.Fatal e) {t : Traced Diagnostic (Definitions × List Operation)} :
    w.parts ≠ .ok t := by
  intro success
  unfold parts at success
  simp only [Transform.bind_eq_ok_iff, Transform.pure_eq_ok_iff] at success
  obtain ⟨a, _, top, ⟨b, _, operations, rfl, rfl⟩, rfl⟩ := success
  cases fatal with
  | @definition _ path node _ declared visited malformed =>
      obtain ⟨u, made⟩ := exists_of_topLevel_ok top declared
      obtain ⟨follow, walks⟩ := w.sources.trail_normalizeTopLevel node
      obtain ⟨p, parsed⟩ := exists_parse_of_trail walks made visited
      cases parsed.symm.trans malformed
  | @schema site path _ used visited malformed =>
      obtain ⟨_, ⟨forms, each, _⟩, _⟩ := allOperations_uses operations
      obtain ⟨u, _, made⟩ := exists_of_forall₂_left each used
      obtain ⟨p, parsed⟩ :=
        exists_parse_of_trail (trail_normalizeNode _ _ site.node) made visited
      cases parsed.symm.trans malformed
  | entry listed declared plain unread =>
      obtain ⟨u, built⟩ := exists_operations_of_allOperations operations listed
      obtain ⟨_, _, _, _, read, _⟩ := comes_of_operations built
      obtain ⟨op, found⟩ := PathItem.exists_read_of_operations read declared plain
      cases found.symm.trans unread
  | @parameter _ _ _ _ _ ps _ listed takes strays =>
      obtain ⟨u, built⟩ := exists_operations_of_allOperations operations listed
      obtain ⟨r, resolved⟩ := exists_resolve_of_operations built takes
      have few : (ps.filter Pointer.isExternal).length ≤ 1 := by
        obtain ⟨_, way, _⟩ := strays
        simp [way.filter_isExternal alone]
      cases resolved.symm.trans (resolveParameter_of_strays strays few)

/-- A document that refers to no files is one whose files are all loaded. -/
theorem exists_served_of_selfContained {document : Document}
    (own : (Catalog.ofDocument document).SelfContained) :
    ∃ refs, (ofDocument document []).Served refs := by
  obtain ⟨refs, within, plain⟩ := own
  refine ⟨refs, within, ?_, fun entry member => nomatch member⟩
  intro path member p points external
  exact absurd external (Pointer.not_isExternal_of_within (plain path member) points)

end Workspace

/-- A document that refers to no files has no model exactly if one of the causes is given: a
reference on the way from a definition at the top, or from a schema that the operations use, is no
pointer; an entry of a path item, no extension, is no operation; or a parameter pointer of a path, or
of an operation that is kept, comes to a pointer into a collection of no known kind. What is reported
is one of them. Nothing else that is amiss, with parameters, responses, request bodies or security
schemes, keeps a document from having a model. -/
theorem three_causes_fatal {document : Document}
    (own : (Catalog.ofDocument document).SelfContained) :
    ((∃ e, Model.ofDocument document [] = .error e) ↔
        ∃ e, (Workspace.ofDocument document []).Fatal e) ∧
      ∀ e, Model.ofDocument document [] = .error e → (Workspace.ofDocument document []).Fatal e := by
  obtain ⟨refs, served⟩ := Workspace.exists_served_of_selfContained own
  have alone : (Workspace.ofDocument document []).sources.fragments = [] := rfl
  have outcome : ∀ e, Model.ofDocument document [] = .error e ↔
      (Workspace.ofDocument document []).parts = .error e := fun e =>
    Shape.map_eq_error_iff.trans (Workspace.assemble_eq_error_iff alone)
  have reported : ∀ e, Model.ofDocument document [] = .error e →
      (Workspace.ofDocument document []).Fatal e := fun e failed =>
    Workspace.fatal_of_parts alone served ((outcome e).mp failed)
  refine ⟨⟨fun ⟨e, failed⟩ => ⟨e, reported e failed⟩, ?_⟩, reported⟩
  rintro ⟨e, fatal⟩
  cases made : (Workspace.ofDocument document []).parts with
  | error e' => exact ⟨e', (outcome e').mpr made⟩
  | ok parts => exact absurd made (fatal.parts_ne_ok alone)

/-- A document with an operation whose response has no target, and whose parameter is a pointer. -/
def Sample.things (parameter : String) : Json :=
  .obj
    [("openapi", .str "3.0.0"), ("info", .obj [("title", .str "Things"), ("version", .str "1")]),
     ("paths", .obj
       [("/things", .obj
          [("get", .obj
            [("operationId", .str "listThings"),
             ("parameters", .arr [Json.reference parameter]),
             ("responses", .obj [("200", Json.reference "#/components/responses/Gone")])])])])]

/-- A pointer into a collection of no known kind is fatal; one without a target is not. -/
theorem three_causes_fatal_things :
    (∃ document e, Document.ofJson (Sample.things "#/components/headers/Thing") = .ok document ∧
        (Catalog.ofDocument document).SelfContained ∧ Model.ofDocument document [] = .error e ∧
        e.message = "operation listThings: reference #/components/headers/Thing points " ++
          "into unsupported collection `components/headers`" ∧
        (Workspace.ofDocument document []).Fatal e) ∧
      ∃ document m, Document.ofJson (Sample.things "#/components/parameters/Gone") = .ok document ∧
        (Catalog.ofDocument document).SelfContained ∧ Model.ofDocument document [] = .ok m ∧
        m.operations.length = 1 ∧ m.diagnostics.length = 2 ∧
        ∀ e, ¬ (Workspace.ofDocument document []).Fatal e := by
  have readable : ∀ parameter ∈ ["#/components/headers/Thing", "#/components/parameters/Gone"],
      (Document.ofJson (Sample.things parameter)).toOption.isSome ∧
        ∀ path ∈ (Sample.things parameter).references, (Pointer.split path).1 = "" := by
    decide +kernel
  have opened : ∀ parameter ∈ ["#/components/headers/Thing", "#/components/parameters/Gone"],
      ∃ document, Document.ofJson (Sample.things parameter) = .ok document ∧
        (Catalog.ofDocument document).SelfContained ∧
        Model.ofJson (Sample.things parameter) [] = Model.ofDocument document [] := by
    intro parameter member
    obtain ⟨given, own⟩ := readable parameter member
    cases read : Document.ofJson (Sample.things parameter) with
    | error cause => simp [read, Except.toOption] at given
    | ok document =>
        refine ⟨document, rfl, Catalog.selfContained_of_ofJson read own, ?_⟩
        rw [Model.ofJson, read]
  refine ⟨?_, ?_⟩
  · obtain ⟨document, read, own, same⟩ := opened "#/components/headers/Thing" (by simp)
    have told : (fault? (Model.ofJson (Sample.things "#/components/headers/Thing") [])).map
        (·.message) = some ("operation listThings: reference #/components/headers/Thing points " ++
          "into unsupported collection `components/headers`") := by
      decide +kernel
    rw [same] at told
    cases outcome : Model.ofDocument document [] with
    | error e =>
        rw [outcome] at told
        exact ⟨document, e, read, own, outcome, Option.some.inj told,
          (three_causes_fatal own).2 e outcome⟩
    | ok m =>
        rw [outcome] at told
        cases told
  · obtain ⟨document, read, own, same⟩ := opened "#/components/parameters/Gone" (by simp)
    obtain ⟨m, made, facts⟩ := exists_ok_of_map
      (x := Model.ofJson (Sample.things "#/components/parameters/Gone") [])
      (f := fun m => (m.operations.length, m.diagnostics.length)) (b := (1, 2)) (by decide +kernel)
    rw [same] at made
    obtain ⟨operations, diagnostics⟩ := Prod.mk.inj facts
    refine ⟨document, m, read, own, made, operations, diagnostics, fun e fatal => ?_⟩
    obtain ⟨e', failed⟩ := (three_causes_fatal own).1.mpr ⟨e, fatal⟩
    cases made.symm.trans failed

end ApiCodec

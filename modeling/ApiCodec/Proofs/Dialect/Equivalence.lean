import ApiCodec.Proofs.Dialect.Operations
import ApiCodec.Proofs.Flatten.Run

set_option autoImplicit false

namespace ApiCodec

open Document

/-- What two path items are read as. -/
inductive OperationsTranslated :
    Shape.Result (List (String × Document.Operation)) →
      Shape.Result (List (String × Document.Operation)) → Prop
  | error (e e' : ShapeError) : OperationsTranslated (.error e) (.error e')
  | ok {ops ops' : List (String × Document.Operation)} (each : Workspace.TranslatesAll ops ops') :
      OperationsTranslated (.ok ops) (.ok ops')

theorem OperationsTranslated.collect_cons (key : String) {op op' : Document.Operation}
    (moved : op.Translates op') {rest rest' : List (Shape.Result (String × Document.Operation))}
    (others : OperationsTranslated (Shape.collect rest) (Shape.collect rest')) :
    OperationsTranslated (Shape.collect (.ok (key, op) :: rest))
      (Shape.collect (.ok (key, op') :: rest')) := by
  unfold Shape.collect
  generalize Shape.collect rest = before at others
  generalize Shape.collect rest' = after at others
  cases others with
  | error e e' => exact .error _ _
  | ok each => exact .ok (.cons ⟨rfl, moved⟩ each)

theorem operations_read_translated {item item' : PathItem}
    (moved : item.Translates item') : OperationsTranslated item.operations item'.operations := by
  have entries := moved.entries
  unfold PathItem.operations
  generalize item.entries = before at entries
  generalize item'.entries = after at entries
  induction entries with
  | nil => exact .ok .nil
  | cons head _ ih =>
      simp only [List.filter_cons]
      cases head with
      | extension value other =>
          simp only [other, Bool.not_true, Bool.false_eq_true, if_false]
          exact ih
      | @unreadable key value cause reads =>
          cases extension : PathItem.isExtension key with
          | true => exact ih
          | false =>
              simp only [Bool.not_false, if_true, List.map_cons, reads]
              exact .error _ _
      | @operation key value value' op op' reads reads' moved =>
          cases extension : PathItem.isExtension key with
          | true => exact ih
          | false =>
              simp only [Bool.not_false, if_true, List.map_cons, reads, reads']
              exact .collect_cons _ moved ih

namespace Workspace

variable {w w' : Workspace}

theorem outcome_sharedParameters (translates : w.Translates w') (path : String)
    {item item' : PathItem} (moved : item.Translates item') :
    (w'.sharedParameters path item').outcome = (w.sharedParameters path item).outcome := by
  unfold sharedParameters
  simp only [Transform.outcome_bind, Transform.outcome_tell, moved.parameters,
    outcome_parameters translates, translates.schemes, translates.security]

theorem operations_translated (translates : w.Translates w') (path : String)
    {item item' : PathItem} (moved : item.Translates item') :
    (w'.operations path item').outcome.map (List.map Operation.interface) =
      (w.operations path item).outcome.map (List.map Operation.interface) := by
  have reads := operations_read_translated moved
  unfold operations
  simp only [Transform.outcome_bind, Transform.outcome_about,
    outcome_sharedParameters translates path moved]
  cases (w.sharedParameters path item).outcome with
  | none => rfl
  | some found =>
      obtain ⟨shared, auth⟩ := found
      simp only [Option.bind_some]
      generalize item.operations = before at reads
      generalize item'.operations = after at reads
      cases reads with
      | error e e' => rfl
      | ok each => exact entries_translated translates path shared auth each

theorem allOperations_translated (translates : w.Translates w')
    {paths paths' : List (String × PathItem)}
    (moved : List.Forall₂ (fun e e' => e.1 = e'.1 ∧ PathItem.Translates e.2 e'.2) paths paths') :
    (w'.allOperations paths').outcome.map (List.map Operation.interface) =
      (w.allOperations paths).outcome.map (List.map Operation.interface) := by
  induction moved with
  | nil => rfl
  | @cons first first' rest rest' head _ ih =>
      obtain ⟨path, item⟩ := first
      obtain ⟨path', item'⟩ := first'
      obtain ⟨same, moved⟩ := head
      simp only at same moved
      subst same
      have front (w : Workspace) (item : PathItem) (rest : List (String × PathItem)) :
          (w.allOperations ((path, item) :: rest)).outcome.map (List.map Operation.interface) =
            ((w.operations path item).outcome.map (List.map Operation.interface)).bind fun first =>
              ((w.allOperations rest).outcome.map (List.map Operation.interface)).map fun more =>
                first ++ more := by
        rw [allOperations]
        exact Transform.outcome_map_append _ _ _
      rw [front, front, operations_translated translates path moved, ih]

/-- What is declared, as far as it matters to callers. -/
def declaredInterface (parts : Definitions × List Operation) :
    Definitions × List Operation.Interface :=
  (parts.1, parts.2.map Operation.interface)

theorem parts_translated (translates : w.Translates w')
    (definitions : w'.catalog.definitions =
      w.catalog.definitions.map fun (name, node) => (name, node.translated))
    (paths : List.Forall₂ (fun e e' => e.1 = e'.1 ∧ PathItem.Translates e.2 e'.2)
      w.catalog.paths w'.catalog.paths) :
    w'.parts.outcome.map declaredInterface = w.parts.outcome.map declaredInterface := by
  have operations := allOperations_translated translates paths
  unfold parts
  simp only [Transform.outcome_bind, Transform.outcome_pure, translates.sources, definitions,
    outcome_topLevel]
  cases (topLevel w.sources w.catalog.definitions).outcome with
  | none => rfl
  | some declared =>
      simp only [Option.bind_some]
      generalize (w.allOperations w.catalog.paths).outcome = before at operations
      generalize (w'.allOperations w'.catalog.paths).outcome = after at operations
      cases before with
      | none =>
          rw [Option.map_eq_none_iff.mp operations]
      | some ops =>
          obtain ⟨ops', rfl, same⟩ := Option.map_eq_some_iff.mp operations
          simp [declaredInterface, same]

/-- Without files, no target is published. -/
theorem promoted_alone {s : Sources} (alone : s.fragments = []) {base : Option String}
    {node : SchemaNode} {t : Traced Notice Node}
    (success : normalizeNode (s.follow []) base node = .ok t) : t.promoted = [] := by
  rw [List.eq_nil_iff_forall_not_mem]
  intro p member
  obtain ⟨around, met, cyclic⟩ := (Sources.mem_promoted_iff success p).mp member
  rcases met.mem_around cyclic.2 with inside | inside
  · cases inside
  · rw [alone] at inside
    cases inside

theorem promoted_topLevel_alone {s : Sources} (alone : s.fragments = []) {node : SchemaNode}
    {t : Traced Notice Definition} (top : s.TopLevel node t) : t.promoted = [] := by
  cases top with
  | target points external materialized =>
      have found := Sources.key_mem_of_materialize materialized
      rw [alone] at found
      cases found
  | named points inside definition => rfl
  | untyped points inside other => rfl
  | inline success =>
      have none := promoted_alone alone success
      exact none

theorem promoted_parts_alone (alone : w.sources.fragments = [])
    {t : Traced Diagnostic (Definitions × List Operation)} (success : w.parts = .ok t) :
    t.promoted = [] := by
  unfold parts at success
  simp only [Transform.bind_eq_ok_iff, Transform.pure_eq_ok_iff] at success
  obtain ⟨b, _, top, ⟨c, _, operations, rfl, rfl⟩, rfl⟩ := success
  obtain ⟨found, each, _, promoted, _⟩ := topLevel_eq_ok top
  obtain ⟨_, ⟨results, all, promoted', _⟩, _⟩ := allOperations_uses operations
  have first : b.promoted = [] := by
    rw [promoted, List.flatMap_eq_nil_iff]
    intro u member
    obtain ⟨entry, paired⟩ := exists_mem_zip_right each member
    exact promoted_topLevel_alone alone (List.forall₂_iff_zip.mp each |>.2 paired)
  have second : c.promoted = [] := by
    rw [promoted', List.flatMap_eq_nil_iff]
    intro u member
    obtain ⟨site, paired⟩ := exists_mem_zip_right all member
    exact promoted_alone alone (List.forall₂_iff_zip.mp all |>.2 paired)
  simp only [first, second, List.append_nil]

end Workspace

theorem Sources.publishAll_nil (s : Sources) : s.publishAll [] = .ok ⟨[], [], []⟩ := by
  rw [Sources.publishAll]
  rfl

/-- Without files, nothing fails but what builds the parts of a document. -/
theorem Workspace.assemble_eq_error_iff {w : Workspace} (alone : w.sources.fragments = [])
    {e : TransformError} : w.assemble = .error e ↔ w.parts = .error e := by
  unfold assemble
  cases made : w.parts with
  | error cause =>
      exact ⟨fun failed => congrArg Except.error (Except.error.inj failed),
        fun failed => congrArg Except.error (Except.error.inj failed)⟩
  | ok parts => simp [promoted_parts_alone alone made, Sources.publishAll_nil]

/-- Without files, a model is what its document declares. -/
theorem Model.ofDocument_alone (document : Document) :
    (Model.ofDocument document []).toOption.map (fun m => (m.definitions, m.operations)) =
      (Workspace.ofDocument document []).parts.outcome := by
  unfold Model.ofDocument Workspace.assemble
  cases made : (Workspace.ofDocument document []).parts with
  | error e =>
      simp only [made]
      rfl
  | ok parts =>
      have none := Workspace.promoted_parts_alone (w := Workspace.ofDocument document []) rfl made
      simp only [made, none, Sources.publishAll_nil]
      rfl

theorem Workspace.translates_ofDocument {doc : Swagger} {doc' : OpenApi}
    (translates : doc.Translates doc') :
    (Workspace.ofDocument (.swagger doc) []).Translates (Workspace.ofDocument (.openApi doc') []) := by
  refine
    { dialect := rfl
      dialect' := rfl
      alone := rfl
      sources := ?_
      schemes := translates.schemes
      security := translates.security
      parameters := translates.parameters
      noBody := translates.noBody
      responses := translates.responses }
  have aliases : publishedAliases doc'.components.schemas = publishedAliases doc.definitions := by
    rw [translates.definitions, publishedAliases_translated]
  have declared : Assoc.keys doc'.components.schemas = Assoc.keys doc.definitions := by
    rw [translates.definitions, Assoc.keys, List.map_map]
    rfl
  unfold Workspace.ofDocument Sources.ofCatalog
  simp only [Catalog.ofDocument, Catalog.ofOpenApi, Catalog.ofSwagger, aliases, declared]

/-- A document and its translation have a model or have none, and their models have the same
definitions and the same operations. -/
theorem translation_preserves_model {doc : Swagger} {doc' : OpenApi}
    (translates : doc.Translates doc') :
    ((∃ m, Model.ofDocument (.swagger doc) [] = .ok m) ↔
        ∃ m, Model.ofDocument (.openApi doc') [] = .ok m) ∧
      ∀ m m', Model.ofDocument (.swagger doc) [] = .ok m →
        Model.ofDocument (.openApi doc') [] = .ok m' →
        m.definitions = m'.definitions ∧
          m.operations.map Operation.interface = m'.operations.map Operation.interface := by
  have parts := Workspace.parts_translated (Workspace.translates_ofDocument translates)
    translates.definitions translates.paths
  rw [← Model.ofDocument_alone, ← Model.ofDocument_alone, Option.map_map, Option.map_map] at parts
  generalize Model.ofDocument (.swagger doc) [] = before at parts ⊢
  generalize Model.ofDocument (.openApi doc') [] = after at parts ⊢
  cases before with
  | error e =>
      cases after with
      | error e' => simp
      | ok m' => cases parts
  | ok m =>
      cases after with
      | error e' => cases parts
      | ok m' =>
          obtain ⟨definitions, operations⟩ := Prod.mk.inj (Option.some.inj parts)
          refine ⟨⟨fun _ => ⟨m', rfl⟩, fun _ => ⟨m, rfl⟩⟩, ?_⟩
          rintro _ _ ⟨⟩ ⟨⟩
          exact ⟨definitions.symm, operations.symm⟩

namespace Sample

def limit : Document.Parameter :=
  { name := "limit", location := .query, description := none, required := false
    deprecated := none, schema := none, types := some (.one .integer), format := none, items := none
    values := [], default := none, limits := {}, style := none, explode := none }

def found (schema : Option SchemaNode) (content : Content) : Document.Response :=
  { description := "", schema, content, headers := [] }

def addPet : Json :=
  .obj
    [("operationId", .str "addPet"),
     ("parameters", .arr [.obj [("name", .str "body"), ("in", .str "body"),
       ("required", .bool true), ("schema", Json.reference "#/definitions/Pet")]]),
     ("responses", .obj [("200", Json.reference "#/responses/Found")])]

def addPetMoved : Json :=
  .obj
    [("operationId", .str "addPet"),
     ("requestBody", .obj [("required", .bool true), ("content", .obj [("application/json",
       .obj [("schema", Json.reference "#/components/schemas/Pet")])])]),
     ("responses", .obj [("200", Json.reference "#/components/responses/Found")])]

def pathItem (parameters : List ParameterNode) (operation : Json) : PathItem :=
  { summary := none, description := none, parameters, servers := none, path? := none
    entries := [("post", operation)] }

def swagger : Swagger :=
  { version := "2.0", info := .empty, host := none, basePath := none, schemes := [], consumes := []
    produces := []
    paths := [("/pets", pathItem [.ref "#/parameters/Limit"] addPet)]
    definitions :=
      [("Pet", .object [("tag", .ref "#/definitions/Tag")]), ("Tag", .inline (.ofType .string))]
    parameters := [("Limit", .inline limit)]
    responses := [("Found", .inline (found (some (.ref "#/definitions/Pet")) []))]
    securityDefinitions := [], security := [], tags := [] }

def openApi : OpenApi :=
  { version := "3.0.0", info := .empty, servers := []
    paths := [("/pets", pathItem [.ref "#/components/parameters/Limit"] addPetMoved)]
    components :=
      { schemas :=
          [("Pet", .object [("tag", .ref "#/components/schemas/Tag")]),
           ("Tag", .inline (.ofType .string))]
        responses := [("Found", .inline (found none [("application/json",
          { schema := some (.ref "#/components/schemas/Pet"), encoding := [], example? := none })]))]
        parameters := [("Limit", .inline { limit with
          schema := some (.inline (.ofType .integer)), types := none })]
        requestBodies := []
        securitySchemes := [] }
    tags := [], security := [] }

end Sample

def Document.OrRef.path? {α : Type} : OrRef α → Option String
  | .ref path => some path
  | .inline _ => none

def Document.OrRef.value? {α : Type} : OrRef α → Option α
  | .ref _ => none
  | .inline value => some value

theorem eq_ref_of_path? {α : Type} {entries : List (String × OrRef α)} {name path : String}
    (known : entries.map (fun e => (e.1, e.2.path?)) = [(name, some path)]) :
    entries = [(name, .ref path)] := by
  obtain ⟨⟨other, node⟩, rfl, same⟩ := List.map_eq_singleton_iff.mp known
  cases node with
  | ref path =>
      cases same
      rfl
  | inline value => cases same

theorem eq_inline_of_value? {α β : Type} {node : OrRef α} {f : α → β} {b : β}
    (known : node.value?.map f = some b) : ∃ value, node = .inline value ∧ f value = b := by
  cases node with
  | ref path => cases known
  | inline value => exact ⟨value, rfl, Option.some.inj known⟩

theorem eq_ref_of_bind_path? {given : Option SchemaNode} {path : String}
    (known : given.bind SchemaNode.path? = some path) : given = some (.ref path) := by
  obtain ⟨node, rfl, same⟩ := Option.bind_eq_some_iff.mp known
  cases node with
  | ref other =>
      cases Option.some.inj same
      rfl
  | inline schema => cases same

theorem Sample.addPet_reads :
    ∃ op p, Document.Operation.read Sample.addPet = .ok op ∧ op.operationId = some "addPet" ∧
      op.security = none ∧ op.parameters = [.inline p] ∧ p.name = "body" ∧ p.location = .body ∧
      p.required ∧ p.schema = some (.ref "#/definitions/Pet") ∧
      op.responses = [("200", .ref "#/responses/Found")] := by
  obtain ⟨op, reads, facts⟩ := exists_ok_of_map (x := Document.Operation.read Sample.addPet)
    (f := fun op => decide (op.operationId = some "addPet" ∧ op.security.isNone ∧
      op.parameters.map (fun node => node.value?.map fun p =>
        (p.name, p.location, p.required, p.schema.bind SchemaNode.path?)) =
          [some ("body", .body, true, some "#/definitions/Pet")] ∧
      op.responses.map (fun e => (e.1, e.2.path?)) = [("200", some "#/responses/Found")]))
    (b := true) (by decide +kernel)
  obtain ⟨operationId, security, parameters, responses⟩ := of_decide_eq_true facts
  obtain ⟨node, only, declared⟩ := List.map_eq_singleton_iff.mp parameters
  obtain ⟨p, rfl, shape⟩ := eq_inline_of_value? declared
  obtain ⟨named, located, required, typed⟩ := by simpa only [Prod.mk.injEq] using shape
  exact ⟨op, p, reads, operationId, Option.isNone_iff_eq_none.mp security, only, named, located,
    required, eq_ref_of_bind_path? typed, eq_ref_of_path? responses⟩

theorem Sample.addPetMoved_reads :
    ∃ op body media, Document.Operation.read Sample.addPetMoved = .ok op ∧
      op.operationId = some "addPet" ∧ op.security = none ∧ op.parameters = [] ∧
      op.requestBody = some (.inline body) ∧ body.required ∧
      body.content = [("application/json", media)] ∧
      media.schema = some (.ref "#/components/schemas/Pet") ∧
      op.responses = [("200", .ref "#/components/responses/Found")] := by
  obtain ⟨op, reads, facts⟩ := exists_ok_of_map (x := Document.Operation.read Sample.addPetMoved)
    (f := fun op => decide (op.operationId = some "addPet" ∧ op.security.isNone ∧
      op.parameters.isEmpty ∧
      op.requestBody.map (fun node => node.value?.map fun body => (body.required,
        body.content.map fun e => (e.1, e.2.schema.bind SchemaNode.path?))) =
          some (some (true, [("application/json", some "#/components/schemas/Pet")])) ∧
      op.responses.map (fun e => (e.1, e.2.path?)) =
        [("200", some "#/components/responses/Found")]))
    (b := true) (by decide +kernel)
  obtain ⟨operationId, security, parameters, given, responses⟩ := of_decide_eq_true facts
  obtain ⟨node, known, declared⟩ := Option.map_eq_some_iff.mp given
  obtain ⟨body, rfl, shape⟩ := eq_inline_of_value? declared
  obtain ⟨required, content⟩ := Prod.mk.inj shape
  obtain ⟨⟨contentType, media⟩, only, typed⟩ := List.map_eq_singleton_iff.mp content
  obtain ⟨rfl, typed⟩ := Prod.mk.inj typed
  exact ⟨op, body, media, reads, operationId, Option.isNone_iff_eq_none.mp security,
    List.isEmpty_iff.mp parameters, known, required, only, eq_ref_of_bind_path? typed,
    eq_ref_of_path? responses⟩

theorem Sample.addPet_translates :
    EntryTranslates ("post", Sample.addPet) ("post", Sample.addPetMoved) := by
  have pet : toComponents "#/definitions/Pet" = "#/components/schemas/Pet" := by decide +kernel
  have found : toComponents "#/responses/Found" = "#/components/responses/Found" := by
    decide +kernel
  obtain ⟨op, p, reads, operationId, security, parameters, named, located, required, typed,
    responses⟩ := Sample.addPet_reads
  obtain ⟨op', body, media, reads', operationId', security', parameters', given, required', content,
    typed', responses'⟩ := Sample.addPetMoved_reads
  have isBody : ParameterNode.isBody (.inline p) = true := by
    simp [ParameterNode.isBody, located]
  refine .operation reads reads'
    { operationId := operationId'.trans operationId.symm
      parameters := ?_
      body := ?_
      responses := ?_
      security := security'.trans security.symm }
  · rw [parameters, parameters']
    simp [isBody]
  · rw [parameters, given]
    simp only [List.filter_cons, isBody, if_true, List.filter_nil]
    refine .one named typed content (by decide) ?_ (required'.trans required.symm)
    rw [typed', ← pet]
    rfl
  · rw [responses, responses', ← found]
    exact .cons ⟨rfl, .ref _⟩ .nil

theorem Sample.translates : Sample.swagger.Translates Sample.openApi := by
  have pet : toComponents "#/definitions/Pet" = "#/components/schemas/Pet" := by decide +kernel
  have tag : toComponents "#/definitions/Tag" = "#/components/schemas/Tag" := by decide +kernel
  have limit : toComponents "#/parameters/Limit" = "#/components/parameters/Limit" := by
    decide +kernel
  have found : toComponents "#/responses/Found" = "#/components/responses/Found" := by
    decide +kernel
  refine
    { definitions := ?_
      parameters := rfl
      noBody := by decide
      responses := ?_
      schemes := rfl
      security := rfl
      paths := ?_ }
  · unfold Sample.openApi
    rw [← tag]
    rfl
  · refine .cons ⟨rfl, .inline ⟨?_, rfl⟩⟩ .nil
    unfold Sample.found
    rw [← pet]
    rfl
  · refine .cons ⟨rfl, ?_, by decide, ?_⟩ .nil
    · unfold Sample.pathItem
      rw [← limit]
      rfl
    · exact .cons Sample.addPet_translates .nil

/-- The small document and its translation have one model. -/
theorem translation_preserves_sample :
    ∃ m m', Model.ofDocument (.swagger Sample.swagger) [] = .ok m ∧
      Model.ofDocument (.openApi Sample.openApi) [] = .ok m' ∧
      m.operations.map (fun op => op.parameters.map (·.name)) = [["limit", "body"]] ∧
      m.definitions = m'.definitions ∧
      m.operations.map Operation.interface = m'.operations.map Operation.interface := by
  obtain ⟨m, success, names⟩ := exists_ok_of_map
    (x := Model.ofDocument (.swagger Sample.swagger) [])
    (f := fun m => m.operations.map fun op => op.parameters.map (·.name))
    (b := [["limit", "body"]]) (by decide +kernel)
  obtain ⟨both, same⟩ := translation_preserves_model Sample.translates
  obtain ⟨m', success'⟩ := both.mp ⟨m, success⟩
  obtain ⟨definitions, operations⟩ := same m m' success success'
  exact ⟨m, m', success, success', names, definitions, operations⟩

end ApiCodec

import ApiCodec.Proofs.Dialect.Schemas

set_option autoImplicit false

namespace ApiCodec

open Document

/-- A document without files around it, and its translation. -/
structure Workspace.Translates (w w' : Workspace) : Prop where
  dialect : w.catalog.dialect = .swagger2
  dialect' : w'.catalog.dialect = .openApi3
  alone : w.sources.fragments = []
  sources : w'.sources = w.sources
  schemes : w'.catalog.schemes = w.catalog.schemes
  security : w'.catalog.security = w.catalog.security
  parameters : w'.catalog.parameters =
    w.catalog.parameters.map fun (name, node) => (name, ParameterNode.translated node)
  noBody : ∀ entry ∈ w.catalog.parameters, ¬ ParameterNode.isBody entry.2
  responses : TranslatesEach w.catalog.responses w'.catalog.responses

/-- Without files, nothing is found in any. -/
theorem Sources.load_alone {α : Type} {s : Sources} (alone : s.fragments = [])
    (read : Json → Shape.Result α) (p : Pointer) :
    ∃ cause, s.load read p = .error (.reference cause) := by
  unfold load Fragments.lookup
  rw [alone]
  cases p.file with
  | none => exact ⟨_, rfl⟩
  | some file => exact ⟨_, rfl⟩

namespace Workspace

variable {w w' : Workspace}

theorem outcome_parameterTarget (translates : w.Translates w') {p p' : Pointer}
    (moved : p.Moved p') :
    (w'.parameterTarget p').outcome =
      (w.parameterTarget p).outcome.map (Option.map ParameterNode.translated) := by
  unfold parameterTarget
  rw [moved.isExternal, translates.sources, moved.name, translates.parameters]
  split
  · obtain ⟨cause, missing⟩ := Sources.load_alone translates.alone ParameterNode.read p
    obtain ⟨cause', missing'⟩ := Sources.load_alone translates.alone ParameterNode.read p'
    rw [missing, missing']
    rfl
  · simp only [Transform.outcome_value, Option.map_some, Assoc.get?_map]

/-- What is found without files stands in the document, and is no body. -/
theorem parameterTarget_local (translates : w.Translates w') {p : Pointer} {node : ParameterNode}
    (found : (w.parameterTarget p).outcome = some (some node)) : p.file = none ∧ ¬ node.isBody := by
  unfold parameterTarget at found
  split at found
  · obtain ⟨cause, missing⟩ := Sources.load_alone translates.alone ParameterNode.read p
    rw [missing] at found
    cases found
  · rename_i inside
    refine ⟨by simpa [Pointer.isExternal] using inside, ?_⟩
    have known : Assoc.get? p.name w.catalog.parameters = some node := Option.some.inj found
    exact translates.noBody _ (Assoc.mem_of_get? known)

def translatedFind (found : Document.Parameter × Option String) :
    Document.Parameter × Option String :=
  (found.1.translated, found.2)

theorem outcome_followParameter (translates : w.Translates w') (subject : String) (steps : Nat)
    (path : String) :
    (w'.followParameter subject steps none (toComponents path)).outcome =
      (w.followParameter subject steps none path).outcome.map (Option.map translatedFind) := by
  induction steps generalizing path with
  | zero => rfl
  | succ steps ih =>
      have parsed := Pointer.parse_toComponents path
      unfold followParameter
      generalize Pointer.parse path = before at parsed
      generalize Pointer.parse (toComponents path) = after at parsed
      cases parsed with
      | error e e' => rfl
      | @ok p p' moved =>
          have moved := moved.relativeTo
          simp only [moved.kind]
          cases (p.relativeTo none).kind with
          | parameter =>
              simp only [Transform.outcome_bind, outcome_parameterTarget translates moved]
              cases target : (w.parameterTarget (p.relativeTo none)).outcome with
              | none => rfl
              | some found =>
                  cases found with
                  | none => rfl
                  | some node =>
                      have here := (parameterTarget_local translates target).1
                      cases node with
                      | inline parameter =>
                          have file := moved.file
                          simp [ParameterNode.translated, translatedFind, file]
                      | ref next =>
                          have file := moved.file.trans here
                          simp only [Option.map_some, Option.bind_some, ParameterNode.translated,
                            file, here]
                          exact ih next
          | definition => rfl
          | response => rfl
          | requestBody => rfl
          | other => rfl

/-- A parameter that is found by reference stands in the document, and is no body. -/
theorem followParameter_local (translates : w.Translates w') {subject : String} {steps : Nat}
    {path : String} {found : Document.Parameter × Option String}
    (followed : (w.followParameter subject steps none path).outcome = some (some found)) :
    found.2 = none ∧ found.1.location ≠ .body := by
  induction steps generalizing path with
  | zero => cases followed
  | succ steps ih =>
      unfold followParameter at followed
      split at followed
      · cases followed
      · rename_i parsed _
        simp only at followed
        split at followed
        · rw [Transform.outcome_bind] at followed
          obtain ⟨node, target, rest⟩ := Option.bind_eq_some_iff.mp followed
          cases node with
          | none => cases rest
          | some node =>
              obtain ⟨here, noBody⟩ := parameterTarget_local translates target
              cases node with
              | inline parameter =>
                  cases Option.some.inj (Option.some.inj rest)
                  refine ⟨here, ?_⟩
                  simpa [ParameterNode.isBody] using noBody
              | ref next =>
                  simp only [here] at rest
                  exact ih rest
        · cases followed
        · cases followed

theorem outcome_resolveParameter (translates : w.Translates w') (subject : String)
    (node : ParameterNode) :
    (w'.resolveParameter subject node.translated).outcome =
      (w.resolveParameter subject node).outcome.map (Option.map translatedFind) := by
  cases node with
  | inline parameter => rfl
  | ref path =>
      have length : w'.catalog.parameters.length = w.catalog.parameters.length := by
        rw [translates.parameters, List.length_map]
      simp only [ParameterNode.translated, resolveParameter, length]
      exact outcome_followParameter translates subject _ path

/-- Parameters stand in the document, and are bodies where they stand in place as bodies. -/
theorem resolveParameter_local (translates : w.Translates w') {subject : String}
    {node : ParameterNode} {found : Document.Parameter × Option String}
    (resolved : (w.resolveParameter subject node).outcome = some (some found)) :
    found.2 = none ∧ (found.1.location == .body) = node.isBody := by
  cases node with
  | inline parameter =>
      cases Option.some.inj (Option.some.inj resolved)
      exact ⟨rfl, rfl⟩
  | ref path =>
      obtain ⟨here, noBody⟩ := followParameter_local translates resolved
      refine ⟨here, ?_⟩
      simpa [ParameterNode.isBody] using noBody

theorem outcome_typeRef (translates : w.Translates w') (node : SchemaNode) :
    (w'.typeRef none node.translated).outcome = (w.typeRef none node).outcome := by
  unfold typeRef Sources.normalize
  rw [Transform.outcome_bind, Transform.outcome_bind, translates.sources]
  rw [SchemaNode.translated, outcome_normalizeNode]

theorem effectiveSchema?_translated (p : Document.Parameter) :
    p.translated.effectiveSchema? = p.effectiveSchema?.map SchemaNode.translated := by
  have schema : p.translated.schema = p.effectiveSchema?.map SchemaNode.translated := rfl
  have types : p.translated.types = none := rfl
  rw [Document.Parameter.effectiveSchema?, schema, types]
  cases p.effectiveSchema? <;> rfl

def ofDeclared (declared : Document.Parameter) (type : TypeRef) : Parameter :=
  { name := declared.name
    required := declared.isRequired
    type
    location := declared.location
    kind := if declared.location = .header then .header declared.name else .plain }

theorem outcome_typedParameter (w : Workspace) (declared : Document.Parameter)
    (base : Option String) :
    (w.typedParameter declared base).outcome =
      match declared.effectiveSchema? with
      | some node => (w.typeRef base node).outcome.map (ofDeclared declared)
      | none => some (ofDeclared declared (.inline .untyped)) := by
  unfold typedParameter
  cases declared.effectiveSchema? with
  | none => rfl
  | some node =>
      simp only [Transform.outcome_bind]
      cases (w.typeRef base node).outcome <;> rfl

theorem outcome_typedParameter_translated (translates : w.Translates w')
    (p : Document.Parameter) :
    (w'.typedParameter p.translated none).outcome = (w.typedParameter p none).outcome := by
  rw [outcome_typedParameter, outcome_typedParameter, effectiveSchema?_translated]
  cases p.effectiveSchema? with
  | none => rfl
  | some node =>
      simp only [Option.map_some, outcome_typeRef translates]
      rfl

theorem exists_ofDeclared_of_typedParameter {declared : Document.Parameter}
    {base : Option String} {parameter : Parameter}
    (typed : (w.typedParameter declared base).outcome = some parameter) :
    ∃ type, ofDeclared declared type = parameter := by
  rw [outcome_typedParameter] at typed
  split at typed
  · obtain ⟨type, _, same⟩ := Option.map_eq_some_iff.mp typed
    exact ⟨type, same⟩
  · exact ⟨_, Option.some.inj typed⟩

theorem typedParameter_location {declared : Document.Parameter} {base : Option String}
    {parameter : Parameter} (typed : (w.typedParameter declared base).outcome = some parameter) :
    parameter.location = declared.location := by
  obtain ⟨type, rfl⟩ := exists_ofDeclared_of_typedParameter typed
  rfl

def parametersOf (w : Workspace) (subject : String) (node : ParameterNode) :
    Option (List Parameter) :=
  (w.resolveParameter subject node).outcome.bind fun found =>
    match found with
    | none => some []
    | some (declared, base) => (w.typedParameter declared base).outcome.map fun p => [p]

theorem outcome_parameters_cons (subject : String) (node : ParameterNode)
    (rest : List ParameterNode) :
    (w.parameters subject (node :: rest)).outcome =
      (w.parametersOf subject node).bind fun first =>
        (w.parameters subject rest).outcome.map fun more => first ++ more := by
  rw [parameters, Transform.outcome_bind, parametersOf, Option.bind_assoc]
  congr 1
  funext found
  cases found with
  | none => simp
  | some found =>
      obtain ⟨declared, base⟩ := found
      simp only [Transform.outcome_bind]
      cases (w.typedParameter declared base).outcome with
      | none => rfl
      | some parameter =>
          simp only [Option.bind_some, Option.map_some]
          cases (w.parameters subject rest).outcome <;> rfl

theorem parametersOf_translated (translates : w.Translates w') (subject : String)
    (node : ParameterNode) :
    w'.parametersOf subject node.translated = w.parametersOf subject node := by
  unfold parametersOf
  rw [outcome_resolveParameter translates]
  cases resolved : (w.resolveParameter subject node).outcome with
  | none => rfl
  | some found =>
      cases found with
      | none => rfl
      | some found =>
          obtain ⟨declared, base⟩ := found
          have here := (resolveParameter_local translates resolved).1
          simp only at here
          subst here
          simp only [Option.map_some, Option.bind_some, translatedFind,
            outcome_typedParameter_translated translates]

theorem outcome_parameters (translates : w.Translates w') (subject : String)
    (nodes : List ParameterNode) :
    (w'.parameters subject (nodes.map ParameterNode.translated)).outcome =
      (w.parameters subject nodes).outcome := by
  induction nodes with
  | nil => rfl
  | cons node rest ih =>
      rw [List.map_cons, outcome_parameters_cons, outcome_parameters_cons, ih,
        parametersOf_translated translates]

theorem location_of_parametersOf (translates : w.Translates w') {subject : String}
    {node : ParameterNode} {found : List Parameter}
    (parameters : w.parametersOf subject node = some found) :
    ∀ p ∈ found, (p.location == .body) = node.isBody := by
  obtain ⟨target, resolved, rest⟩ := Option.bind_eq_some_iff.mp parameters
  cases target with
  | none =>
      cases Option.some.inj rest
      simp
  | some target =>
      obtain ⟨declared, base⟩ := target
      obtain ⟨parameter, typed, rfl⟩ := Option.map_eq_some_iff.mp rest
      have location := (resolveParameter_local translates resolved).2
      intro p member
      rw [List.mem_singleton.mp member, typedParameter_location typed]
      exact location

def apart (found : List Parameter) : List Parameter × List Parameter :=
  (found.filter (·.location != .body), found.filter (·.location == .body))

theorem apart_append {first : List Parameter} {isBody : Bool}
    (each : ∀ p ∈ first, (p.location == .body) = isBody) (more : List Parameter) :
    apart (first ++ more) =
      if isBody then ((apart more).1, first ++ (apart more).2)
      else (first ++ (apart more).1, (apart more).2) := by
  unfold apart
  rw [List.filter_append, List.filter_append]
  cases isBody with
  | true =>
      have bodies : first.filter (·.location == .body) = first :=
        List.filter_eq_self.mpr each
      have others : first.filter (·.location != .body) = [] := by
        rw [List.filter_eq_nil_iff]
        intro p member
        simp [bne, each p member]
      rw [bodies, others]
      rfl
  | false =>
      have bodies : first.filter (·.location == .body) = [] := by
        rw [List.filter_eq_nil_iff]
        intro p member
        simp [each p member]
      have others : first.filter (·.location != .body) = first := by
        rw [List.filter_eq_self]
        intro p member
        simp [bne, each p member]
      rw [bodies, others]
      rfl

/-- Bodies may be built after all other parameters. -/
theorem outcome_parameters_apart (translates : w.Translates w') (subject : String)
    (nodes : List ParameterNode) :
    (w.parameters subject nodes).outcome.map apart =
      (w.parameters subject (nodes.filter fun node => !node.isBody)).outcome.bind fun others =>
        (w.parameters subject (nodes.filter fun node => node.isBody)).outcome.map fun bodies =>
          (others, bodies) := by
  induction nodes with
  | nil => rfl
  | cons node rest ih =>
      rw [outcome_parameters_cons, List.filter_cons, List.filter_cons]
      generalize (w.parameters subject rest).outcome = all at ih ⊢
      cases isBody : node.isBody with
      | true =>
          simp only [Bool.not_true, Bool.false_eq_true, if_false, if_true, outcome_parameters_cons]
          cases found : w.parametersOf subject node with
          | none => simp
          | some first =>
              have each := location_of_parametersOf translates found
              have step : (all.map fun more => first ++ more).map apart =
                  (all.map apart).map fun more => (more.1, first ++ more.2) := by
                cases all with
                | none => rfl
                | some more => simp [apart_append each, isBody]
              rw [Option.bind_some, step, ih]
              cases (w.parameters subject (rest.filter fun node => !node.isBody)).outcome <;>
                cases (w.parameters subject (rest.filter fun node => node.isBody)).outcome <;> rfl
      | false =>
          simp only [Bool.not_false, Bool.false_eq_true, if_false, if_true, outcome_parameters_cons]
          cases found : w.parametersOf subject node with
          | none => simp
          | some first =>
              have each := location_of_parametersOf translates found
              have step : (all.map fun more => first ++ more).map apart =
                  (all.map apart).map fun more => (first ++ more.1, more.2) := by
                cases all with
                | none => rfl
                | some more => simp [apart_append each, isBody]
              rw [Option.bind_some, step, ih]
              cases (w.parameters subject (rest.filter fun node => !node.isBody)).outcome <;>
                cases (w.parameters subject (rest.filter fun node => node.isBody)).outcome <;> rfl

/-- The body that moved is built as it was among the parameters. -/
theorem outcome_requestBody (translates : w.Translates w') {op op' : Document.Operation}
    (subject : String) (moved : op.Translates op') :
    (w'.requestBody op').outcome =
      (w.parameters subject (op.parameters.filter fun node => node.isBody)).outcome := by
  have body := moved.body
  have located : ∀ node ∈ op.parameters.filter fun node => node.isBody, node.isBody := by
    intro node member
    exact (List.mem_filter.mp member).2
  generalize op.parameters.filter (fun node => node.isBody) = nodes at body located ⊢
  generalize declared : op'.requestBody = given at body
  unfold requestBody Catalog.requestBody
  rw [translates.dialect', declared]
  cases body with
  | none => rfl
  | @one p body node contentType media named typed content noForm schema required =>
      have location : p.location = .body := by
        simpa [ParameterNode.isBody] using located _ (List.mem_singleton.mpr rfl)
      simp only [Catalog.chase, Except.map, content, schema]
      rw [if_neg noForm]
      have effective : p.effectiveSchema? = some node := by
        simp only [Document.Parameter.effectiveSchema?, typed]
      have parameter : ofDeclared p = bodyParameter body.required := by
        funext type
        simp [ofDeclared, bodyParameter, Document.Parameter.isRequired, named, location, required]
      simp only [Transform.outcome_bind, outcome_typeRef translates, parameters, resolveParameter,
        Transform.outcome_value, Option.bind_some, outcome_typedParameter, effective, parameter]
      cases (w.typeRef none node).outcome <;> rfl

end Workspace

end ApiCodec

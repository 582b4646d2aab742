import ApiCodec.Proofs.Dialect.Parameters

set_option autoImplicit false

namespace ApiCodec

open Document

/-- What an operation is for its callers, without its texts and content types. -/
structure Operation.Interface where
  method : HttpMethod
  path : String
  id : String
  parameters : List Parameter
  responses : List Response
  headers : List String
  importedTypes : List String

def Operation.interface (op : Operation) : Operation.Interface :=
  { method := op.method
    path := op.path
    id := op.id
    parameters := op.parameters
    responses := op.responses
    headers := op.headers
    importedTypes := op.importedTypes }

namespace Workspace

variable {w w' : Workspace}

/-- Two registries hold translations under the same names. -/
theorem get?_translatesEach {registry registry' : List (String × ResponseNode)}
    (translates : TranslatesEach registry registry') (name : String) :
    (Assoc.get? name registry = none ∧ Assoc.get? name registry' = none) ∨
      ∃ node node', Assoc.get? name registry = some node ∧ Assoc.get? name registry' = some node' ∧
        ResponseNode.Translates node node' := by
  induction translates with
  | nil => exact Or.inl ⟨rfl, rfl⟩
  | @cons entry entry' rest rest' head _ ih =>
      obtain ⟨key, node⟩ := entry
      obtain ⟨key', node'⟩ := entry'
      obtain ⟨same, translated⟩ := head
      simp only at same translated
      subst same
      simp only [Assoc.get?]
      by_cases found : key = name
      · rw [if_pos found, if_pos found]
        exact Or.inr ⟨node, node', rfl, rfl, translated⟩
      · rw [if_neg found, if_neg found]
        exact ih

inductive EndsTranslated :
    Except ReferenceError Document.Response → Except ReferenceError Document.Response → Prop
  | error (e e' : ReferenceError) : EndsTranslated (.error e) (.error e')
  | ok {r r' : Document.Response} (translates : r.Translates r') : EndsTranslated (.ok r) (.ok r')

theorem chase_translated {registry registry' : List (String × ResponseNode)}
    (translates : TranslatesEach registry registry') (steps : Nat) (last last' : String)
    {node node' : ResponseNode} (start : ResponseNode.Translates node node') :
    EndsTranslated (Catalog.chase registry .response id steps last node)
      (Catalog.chase registry' .response id steps last' node') := by
  induction steps generalizing last last' node node' with
  | zero => exact .error _ _
  | succ steps ih =>
      cases start with
      | inline translated => exact .ok translated
      | ref path =>
          have parsed := Pointer.parse_toComponents path
          unfold Catalog.chase Pointer.expectKind
          generalize Pointer.parse path = before at parsed
          generalize Pointer.parse (toComponents path) = after at parsed
          cases parsed with
          | error e e' => exact .error _ _
          | @ok p p' moved =>
              simp only [moved.kind]
              by_cases kind : p.kind = .response
              · simp only [if_pos kind, moved.isExternal, moved.name]
                split
                · exact .error _ _
                · rcases get?_translatesEach translates p.name with
                    ⟨absent, absent'⟩ | ⟨next, next', known, known', translated⟩
                  · rw [absent, absent']
                    exact .error _ _
                  · rw [known, known']
                    exact ih _ _ translated
              · simp only [if_neg kind]
                exact .error _ _

theorem response_translated (translates : w.Translates w') {node node' : ResponseNode}
    (start : ResponseNode.Translates node node') :
    EndsTranslated (w.catalog.response node) (w'.catalog.response node') := by
  have length : w'.catalog.responses.length = w.catalog.responses.length :=
    translates.responses.length_eq.symm
  unfold Catalog.response
  rw [length]
  exact chase_translated translates.responses _ _ _ start

/-- The schema of a response is found under its content type. -/
theorem responseSchema?_translated (translates : w.Translates w') {r r' : Document.Response}
    (moved : r.Translates r') :
    (w'.catalog.responseSchema? r').map Prod.snd =
      ((w.catalog.responseSchema? r).map Prod.snd).map SchemaNode.translated := by
  have content := moved.content
  unfold Catalog.responseSchema?
  rw [translates.dialect, translates.dialect']
  simp only
  cases schema : r.schema with
  | none =>
      rw [schema, Option.toList_none, List.map_nil, List.map_eq_nil_iff] at content
      rw [content]
      rfl
  | some node =>
      rw [schema, Option.toList_some, List.map_singleton] at content
      obtain ⟨⟨contentType, media⟩, only, typed⟩ := List.map_eq_singleton_iff.mp content
      simp only at typed
      rw [only]
      simp only [typed]
      rfl

theorem outcome_responseType (translates : w.Translates w') (status : String)
    {r r' : Document.Response} (moved : r.Translates r') :
    (w'.responseType status r').outcome = (w.responseType status r).outcome := by
  have same := responseSchema?_translated translates moved
  unfold responseType
  cases found : w.catalog.responseSchema? r with
  | none =>
      rw [found] at same
      rw [Option.map_eq_none_iff.mp same]
  | some entry =>
      obtain ⟨contentType, node⟩ := entry
      rw [found] at same
      obtain ⟨⟨contentType', node'⟩, found', same⟩ := Option.map_eq_some_iff.mp same
      simp only at same
      subst same
      rw [found']
      cases node with
      | ref path =>
          have normalized := outcome_normalizeNode (w.sources.follow []) (.ref path)
          simp only [SchemaNode.translated, SchemaNode.mapPaths, Sources.normalize,
            Transform.outcome_bind, translates.sources] at normalized ⊢
          rw [normalized]
      | inline schema => cases schema; rfl

theorem outcome_responses (translates : w.Translates w')
    {declared declared' : List (String × ResponseNode)}
    (moved : TranslatesEach declared declared') :
    (w'.responses declared').outcome = (w.responses declared).outcome := by
  induction moved with
  | nil => rfl
  | @cons entry entry' rest rest' head _ ih =>
      obtain ⟨status, node⟩ := entry
      obtain ⟨status', node'⟩ := entry'
      obtain ⟨same, start⟩ := head
      simp only at same start
      subst same
      have ends := response_translated translates start
      unfold responses
      generalize w.catalog.response node = before at ends
      generalize w'.catalog.response node' = after at ends
      cases ends with
      | error e e' => simp only [Transform.outcome_bind, Transform.outcome_note, ih]
      | @ok r r' moved =>
          simp only [Transform.outcome_bind, outcome_responseType translates _ moved, moved.headers,
            ih]

/-- The tokens that an operation needs besides those that all need. -/
def ownAuth (w : Workspace) (op : Document.Operation) (auth : List Parameter) : List Parameter :=
  (authHeaders w.catalog.schemes (op.security.getD [])).1.filter fun p => !auth.any (·.name == p.name)

/-- An operation made of what was found for it. -/
def interfaceOf (method : HttpMethod) (path id : String) (shared auth own : List Parameter)
    (others bodies : List Parameter) (responses : List Response) : Operation.Interface :=
  let parameters :=
    shared.filter (fun p => !others.any (sameParameter · p)) ++ auth ++ own ++ others ++ bodies
  { method, path, id, parameters, responses
    headers := requestHeaders method (own ++ auth) parameters
    importedTypes := usedNames parameters responses }

theorem outcome_operation (w : Workspace) (method : HttpMethod) (path id : String)
    (op : Document.Operation) (shared auth : List Parameter) :
    (w.operation method path id op shared auth).outcome.map Operation.interface =
      (w.parameters id op.parameters).outcome.bind fun declared =>
        (w.requestBody op).outcome.bind fun body =>
          (w.responses op.responses).outcome.map fun responses =>
            interfaceOf method path id shared auth (w.ownAuth op auth) (apart declared).1
              ((apart declared).2 ++ body) responses := by
  unfold operation
  simp only [Transform.outcome_bind, Transform.outcome_tell, Transform.outcome_pure]
  cases (w.parameters id op.parameters).outcome with
  | none => rfl
  | some declared =>
      cases (w.requestBody op).outcome with
      | none => rfl
      | some body =>
          cases (w.responses op.responses).outcome with
          | none => rfl
          | some responses =>
              simp only [Option.bind_some, Option.map_some, Operation.interface, interfaceOf, apart,
                List.append_assoc, ownAuth]

/-- No parameter that is left is a body. -/
theorem apart_of_parameters (translates : w.Translates w') {subject : String}
    {nodes : List ParameterNode} {found : List Parameter}
    (parameters : (w.parameters subject (nodes.filter fun node => !node.isBody)).outcome =
      some found) : apart found = (found, []) := by
  have split := outcome_parameters_apart translates subject (nodes.filter fun node => !node.isBody)
  have none : (nodes.filter fun node => !node.isBody).filter (fun node => node.isBody) = [] := by
    rw [List.filter_filter, List.filter_eq_nil_iff]
    intro node _
    simp
  rw [none, List.filter_filter] at split
  simp only [Bool.and_self, parameters] at split
  exact Option.some.inj split

theorem operation_translated (translates : w.Translates w') (method : HttpMethod)
    (path id : String) {op op' : Document.Operation} (moved : op.Translates op')
    (shared auth : List Parameter) :
    (w'.operation method path id op' shared auth).outcome.map Operation.interface =
      (w.operation method path id op shared auth).outcome.map Operation.interface := by
  have own : w'.ownAuth op' auth = w.ownAuth op auth := by
    unfold ownAuth
    rw [translates.schemes, moved.security]
  have apartFrom := outcome_parameters_apart translates id op.parameters
  have noBody : (w.requestBody op).outcome = some [] := by
    unfold requestBody Catalog.requestBody
    rw [translates.dialect]
    rfl
  rw [outcome_operation, outcome_operation, moved.parameters, outcome_parameters translates,
    outcome_requestBody translates id moved, outcome_responses translates moved.responses, own,
    noBody]
  cases others : (w.parameters id (op.parameters.filter fun node => !node.isBody)).outcome with
  | none =>
      rw [others] at apartFrom
      rw [Option.map_eq_none_iff.mp apartFrom]
      rfl
  | some found =>
      rw [others] at apartFrom
      simp only [Option.bind_some, apart_of_parameters translates others, List.nil_append,
        List.append_nil] at apartFrom ⊢
      cases bodies : (w.parameters id (op.parameters.filter fun node => node.isBody)).outcome with
      | none =>
          rw [bodies] at apartFrom
          rw [Option.map_eq_none_iff.mp apartFrom]
          rfl
      | some body =>
          rw [bodies] at apartFrom
          obtain ⟨declared, built, parts⟩ := Option.map_eq_some_iff.mp apartFrom
          rw [built]
          simp only [Option.bind_some, parts]

theorem entry_translated (translates : w.Translates w') (path : String)
    (shared auth : List Parameter) (key : String) {op op' : Document.Operation}
    (moved : op.Translates op') :
    (w'.entry path shared auth key op').outcome.map (List.map Operation.interface) =
      (w.entry path shared auth key op).outcome.map (List.map Operation.interface) := by
  unfold entry
  cases HttpMethod.ofName? key with
  | none => rfl
  | some method =>
      rw [moved.operationId]
      cases op.operationId with
      | none => rfl
      | some id =>
          have same := operation_translated translates method path id moved shared auth
          simp only [Transform.outcome_bind, Transform.outcome_pure] at same ⊢
          generalize (w.operation method path id op shared auth).outcome = before at same ⊢
          generalize (w'.operation method path id op' shared auth).outcome = after at same ⊢
          cases before with
          | none =>
              rw [Option.map_eq_none_iff.mp same]
          | some built =>
              obtain ⟨built', found, interface⟩ := Option.map_eq_some_iff.mp same
              rw [found]
              simp [interface]

def TranslatesAll (ops ops' : List (String × Document.Operation)) : Prop :=
  List.Forall₂ (fun e e' => e.1 = e'.1 ∧ Document.Operation.Translates e.2 e'.2) ops ops'

theorem entries_translated (translates : w.Translates w') (path : String)
    (shared auth : List Parameter) {ops ops' : List (String × Document.Operation)}
    (moved : TranslatesAll ops ops') :
    (w'.entries path shared auth ops').outcome.map (List.map Operation.interface) =
      (w.entries path shared auth ops).outcome.map (List.map Operation.interface) := by
  induction moved with
  | nil => rfl
  | @cons first first' rest rest' head _ ih =>
      obtain ⟨key, op⟩ := first
      obtain ⟨key', op'⟩ := first'
      obtain ⟨same, moved⟩ := head
      simp only at same moved
      subst same
      have one := entry_translated translates path shared auth key moved
      have front (w : Workspace) (op : Document.Operation)
          (rest : List (String × Document.Operation)) :
          (w.entries path shared auth ((key, op) :: rest)).outcome.map (List.map Operation.interface) =
            ((w.entry path shared auth key op).outcome.map (List.map Operation.interface)).bind
              fun first => ((w.entries path shared auth rest).outcome.map
                (List.map Operation.interface)).map fun more => first ++ more := by
        rw [entries, ← Transform.outcome_about (Text.upper key ++ " " ++ path)]
        exact Transform.outcome_map_append _ _ _
      rw [front, front, one, ih]

end Workspace

end ApiCodec

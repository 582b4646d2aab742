import ApiCodec.Proofs.Emit.Known
import ApiCodec.Proofs.Emit.Sources
import ApiCodec.Proofs.Text.Folding

set_option autoImplicit false

namespace ApiCodec

open Document

/-- Whether no id is reported to be used twice. -/
def Model.ReportsNoDuplicate (model : Model) : Prop :=
  ∀ diagnostic ∈ model.diagnostics, ∀ id first, diagnostic.notice ≠ .duplicateId id first

theorem exists_duplicateId_of_mem {seen : List (String × Operation)} {operations : List Operation}
    {diagnostic : Diagnostic} (member : diagnostic ∈ duplicateIds seen operations) :
    ∃ id first, diagnostic.notice = .duplicateId id first := by
  induction operations generalizing seen with
  | nil => cases member
  | cons op rest ih =>
      unfold duplicateIds at member
      split at member
      · rcases List.mem_cons.mp member with rfl | later
        · exact ⟨_, _, rfl⟩
        · exact ih later
      · exact ih member

/-- Ids that are not reported are new, and each is there once. -/
theorem nodup_of_duplicateIds {seen : List (String × Operation)} {operations : List Operation}
    (none : duplicateIds seen operations = []) :
    (operations.map (·.id)).Nodup ∧ ∀ op ∈ operations, op.id ∉ Assoc.keys seen := by
  induction operations generalizing seen with
  | nil => exact ⟨List.nodup_nil, List.forall_mem_nil _⟩
  | cons op rest ih =>
      unfold duplicateIds at none
      split at none
      · cases none
      · rename_i unseen
        obtain ⟨distinct, new⟩ := ih none
        have others : ∀ other ∈ rest, other.id ≠ op.id ∧ other.id ∉ Assoc.keys seen := by
          intro other member
          have apart := new other member
          simp only [Assoc.keys, List.map_append, List.map_cons, List.map_nil, List.mem_append,
            List.mem_singleton, not_or] at apart
          exact ⟨apart.2, apart.1⟩
        refine ⟨List.nodup_cons.mpr ⟨?_, distinct⟩, ?_⟩
        · intro member
          obtain ⟨other, inside, same⟩ := List.mem_map.mp member
          exact (others other inside).1 same
        · intro other member
          rcases List.mem_cons.mp member with rfl | later
          · exact Assoc.get?_eq_none_iff.mp unseen
          · exact (others other later).2

theorem Assembly.nodup_ids {a : Assembly}
    (quiet : ∀ d ∈ a.diagnostics, ∀ id first, d.notice ≠ .duplicateId id first) :
    (a.operations.map (·.id)).Nodup := by
  have none : duplicateIds [] a.operations = [] := by
    rw [List.eq_nil_iff_forall_not_mem]
    intro diagnostic member
    obtain ⟨id, first, said⟩ := exists_duplicateId_of_mem member
    exact quiet diagnostic (List.mem_append_left _ (List.mem_append_right _ member)) id first said
  exact (nodup_of_duplicateIds none).1

theorem name_of_operation {w : Workspace} {method : HttpMethod} {path id : String}
    {op : Document.Operation} {shared auth : List Parameter} {t : Traced Notice Operation}
    (success : w.operation method path id op shared auth = .ok t) :
    t.value.name = CodeName.of t.value.id := by
  unfold Workspace.operation at success
  simp only [Transform.bind_eq_ok_iff, Transform.tell_eq_ok_iff, Transform.pure_eq_ok_iff]
    at success
  obtain ⟨a, _, _, ⟨_, _, rfl, ⟨b, _, _, ⟨c, _, _, rfl, rfl⟩, rfl⟩, rfl⟩, rfl⟩ := success
  rfl

/-- What is known of the operations of a model that reports no id twice. -/
theorem Model.ids_of_ofDocument {document : Document} {fragments : Fragments} {model : Model}
    (built : Model.ofDocument document fragments = .ok model) (quiet : model.ReportsNoDuplicate) :
    (model.operations.map (·.id)).Nodup ∧
      ∀ op ∈ model.operations, op.name = CodeName.of op.id := by
  obtain ⟨a, success, rfl⟩ := Model.exists_assembly built
  exact ⟨Assembly.nodup_ids quiet, Workspace.forall_of_assemble
    (fun _ _ _ _ _ _ _ made => name_of_operation made) success⟩

namespace Emit

def RequestType.exports (r : RequestType) : List String :=
  (r.operation.name.pascal ++ "T") ::
    if r.decoder.isSome then
      [r.operation.name.camel ++ "DefaultResponses", r.operation.name.pascal ++ "ResponsesT",
       r.operation.name.camel ++ "Decoder", r.operation.name.camel ++ "DefaultDecoder"]
    else []

theorem exports_statements (outer : Scope) (r : RequestType) :
    namesWhere (·.exported) (declarationsOf (r.scope outer) r.statements) = r.exports := by
  have pascal : (fieldAt "op" "pascal").written (r.scope outer) = r.operation.name.pascal := rfl
  have camel : (fieldAt "op" "camel").written (r.scope outer) = r.operation.name.camel := rfl
  have same : ∀ s : Statement, (s.declaration (r.scope outer)).exported = s.exported :=
    fun _ => rfl
  have always : r.statements.filter (·.exported) = r.statements := by
    unfold RequestType.statements
    split <;> rfl
  rw [namesWhere_declarationsOf same, always, RequestType.statements, RequestType.exports]
  split <;>
    simp [requestTypeStatement, decoderStatements, defaultResponsesStatement,
      responsesTypeStatement, decoderStatement, defaultDecoderStatement, pascal, camel]

/-- The module of request types exports the names of each of them, in order. -/
theorem exports_requestTypesSource (definitions : Definitions) (types : List RequestType) :
    (requestTypesSource definitions types).exports = types.flatMap RequestType.exports := by
  simp only [Source.exports, requestTypesSource, namesWhere_flatMap, exports_statements]

def decoded (o : Options) (op : Operation) : Bool := (RequestType.of o op).decoder.isSome

def memberLine (op : Operation) : String :=
  "  readonly " ++ op.name.camel ++ ": TypeofApiCall<" ++ op.name.pascal ++ "T>;\n"

theorem clientOperations_eq {o : Options} (asked : o.responseDecoders) (operations : List Operation) :
    clientOperations o operations = operations.filter (decoded o) := by
  apply List.filter_congr
  intro op _
  simp [decoded, RequestType.of, asked]

/-- The client has one member for each of its operations. -/
theorem exists_client (basePath : Option String) (operations : List Operation) :
    ∃ d ∈ (clientSource basePath operations).declarations, d.exported ∧ d.kind = .type ∧
      d.name = "Client" ∧
      d.rest = " = \x7b\n" ++ String.join (operations.map memberLine) ++ "\x7d;\n\n" := by
  let scope := clientScope basePath operations
  have each := operations_clientScope basePath operations
  have camel : ∀ op, (fieldAt "op" "camel").written (("op", clientOperationValue op) :: scope) =
      op.name.camel := fun _ => rfl
  have pascal : ∀ op, (fieldAt "op" "pascal").written (("op", clientOperationValue op) :: scope) =
      op.name.pascal := fun _ => rfl
  refine ⟨_, List.mem_map_of_mem (f := Statement.declaration scope)
    (List.mem_cons_of_mem _ (List.mem_cons_of_mem _ List.mem_cons_self)), rfl, rfl, rfl, ?_⟩
  have line : memberLine = fun op => "  readonly " ++ (op.name.camel ++ (": TypeofApiCall<" ++
      (op.name.pascal ++ "T>;\n"))) := by
    funext op
    show "  readonly " ++ op.name.camel ++ ": TypeofApiCall<" ++ op.name.pascal ++ "T>;\n" = _
    simp only [String.append_assoc]
  simp [Statement.declaration, Piece.written, find?_at1, each, scope, itemsOf, Function.comp_def,
    camel, pascal, line, String.append_assoc]

/-- The name of an operation's member in the client, if it has one. -/
def memberOf (o : Options) (op : Operation) : List String :=
  if o.client && decoded o op then [op.name.camel] else []

/-- The names that stand for an operation in the request types and the client. -/
def namesOf (o : Options) (op : Operation) : List String :=
  (RequestType.of o op).exports ++ memberOf o op

theorem mem_memberOf_iff {o : Options} {op : Operation} {name : String} :
    name ∈ memberOf o op ↔ o.client ∧ decoded o op ∧ name = op.name.camel := by
  unfold memberOf
  split
  · rename_i holds
    rw [Bool.and_eq_true] at holds
    simp [holds]
  · rename_i fails
    rw [Bool.and_eq_true] at fails
    simp only [List.not_mem_nil, false_iff]
    rintro ⟨client, has, _⟩
    exact fails ⟨client, has⟩

/-- No name that a request type exports is made of names of another one. -/
structure RequestType.Clear (r other : RequestType) : Prop where
  requests : r.operation.name.pascal ≠ other.operation.name.pascal
  responses : other.decoder.isSome →
    r.operation.name.pascal ≠ other.operation.name.pascal ++ "Responses"
  decoders : r.decoder.isSome → other.decoder.isSome →
    r.operation.name.camel ≠ other.operation.name.camel ∧
      r.operation.name.camel ≠ other.operation.name.camel ++ "Default"

theorem RequestType.clear_iff {r other : RequestType} :
    r.Clear other ↔ r.operation.name.pascal ≠ other.operation.name.pascal ∧
      (other.decoder.isSome →
        r.operation.name.pascal ≠ other.operation.name.pascal ++ "Responses") ∧
      (r.decoder.isSome → other.decoder.isSome →
        r.operation.name.camel ≠ other.operation.name.camel ∧
          r.operation.name.camel ≠ other.operation.name.camel ++ "Default") :=
  ⟨fun ⟨requests, responses, decoders⟩ => ⟨requests, responses, decoders⟩,
    fun ⟨requests, responses, decoders⟩ => ⟨requests, responses, decoders⟩⟩

theorem append_eq_append_iff (name other middle ending : String) :
    name ++ ending = other ++ (middle ++ ending) ↔ name = other ++ middle := by
  rw [← String.append_assoc, String.append_left_inj]

theorem append_append_eq_iff (name other middle ending : String) :
    name ++ (middle ++ ending) = other ++ ending ↔ other = name ++ middle := by
  rw [eq_comm, append_eq_append_iff]

/-- Endings with different characters at their ends. -/
theorem append_eq_append_iff_false {ending other : String} (filled : ending.toList ≠ [])
    (otherFilled : other.toList ≠ [])
    (different : ending.toList.getLast filled ≠ other.toList.getLast otherFilled) (a b : String) :
    a ++ ending = b ++ other ↔ False := by
  refine iff_false_intro fun same => different ?_
  have ends := congrArg (fun text : String => text.toList.getLast?) same
  simp only [String.toList_append, List.getLast?_append_of_ne_nil _ filled,
    List.getLast?_append_of_ne_nil _ otherFilled, List.getLast?_eq_some_getLast filled,
    List.getLast?_eq_some_getLast otherFilled, Option.some.injEq] at ends
  exact ends

theorem disjoint_exports_iff (r other : RequestType) :
    r.exports.Disjoint other.exports ↔ r.Clear other ∧ other.Clear r := by
  have responses := fun a b => append_eq_append_iff a b "Responses" "T"
  have responses' := fun a b => append_append_eq_iff a b "Responses" "T"
  have default := fun a b => append_eq_append_iff a b "Default" "Decoder"
  have default' := fun a b => append_append_eq_iff a b "Default" "Decoder"
  rw [show "Responses" ++ "T" = "ResponsesT" from rfl] at responses responses'
  rw [show "Default" ++ "Decoder" = "DefaultDecoder" from rfl] at default default'
  rw [RequestType.clear_iff, RequestType.clear_iff, RequestType.exports, RequestType.exports]
  -- Names with one ending, or with an ending of the other's, are equal if what is before them is;
  -- all others end with different letters.
  cases r.decoder.isSome <;> cases other.decoder.isSome <;>
    simp (disch := decide) only [List.disjoint_cons_left, List.mem_cons, List.not_mem_nil,
      String.append_left_inj, responses, responses', default, default',
      append_eq_append_iff_false, List.disjoint_nil_left, if_true, Bool.false_eq_true, if_false,
      or_false, not_or] <;>
    tauto

/-- The same, for operations with their members in the client. -/
structure Clear (o : Options) (op other : Operation) : Prop where
  exports : (RequestType.of o op).Clear (RequestType.of o other)
  member : o.client → decoded o op → op.name.camel ∉ (RequestType.of o other).exports

theorem disjoint_memberOf_exports_iff {o : Options} {op : Operation} {names : List String} :
    (memberOf o op).Disjoint names ↔ (o.client → decoded o op → op.name.camel ∉ names) := by
  constructor
  · intro apart client has inside
    exact apart (mem_memberOf_iff.mpr ⟨client, has, rfl⟩) inside
  · intro absent name member inside
    obtain ⟨client, has, rfl⟩ := mem_memberOf_iff.mp member
    exact absent client has inside

theorem disjoint_namesOf_iff (o : Options) (op other : Operation) :
    (namesOf o op).Disjoint (namesOf o other) ↔ Clear o op other ∧ Clear o other op := by
  have exports := disjoint_exports_iff (RequestType.of o op) (RequestType.of o other)
  rw [namesOf, namesOf, List.disjoint_append_left, List.disjoint_append_right,
    List.disjoint_append_right, exports, disjoint_memberOf_exports_iff,
    disjoint_memberOf_exports_iff, List.disjoint_comm, disjoint_memberOf_exports_iff]
  constructor
  · rintro ⟨⟨⟨clear, otherClear⟩, otherMember⟩, member, _⟩
    exact ⟨⟨clear, member⟩, otherClear, otherMember⟩
  · rintro ⟨⟨clear, member⟩, otherClear, otherMember⟩
    refine ⟨⟨⟨clear, otherClear⟩, otherMember⟩, member, ?_⟩
    intro _ has inside
    obtain ⟨_, otherHas, same⟩ := mem_memberOf_iff.mp inside
    exact (clear.decoders has otherHas).1 same

/-- The endings of names in small letters, and what one ending has before another. -/
def endings : List String :=
  ["", "t", "responses", "responsest", "defaultresponses", "default", "decoder", "defaultdecoder"]

/-- An id is not another one with an ending of names, whatever the case of letters and the marks
between them. -/
def Distant (id other : String) : Prop :=
  ∀ ending ∈ endings,
    Text.folded (sanitize id) ≠ Text.folded (sanitize other) ++ ending.toList

instance (id other : String) : Decidable (Distant id other) :=
  inferInstanceAs (Decidable (∀ ending ∈ endings, _))

/-- A spelled name is not another one with an ending. -/
theorem Distant.ne_append {id other : String} (distant : Distant id other) {name stem : String}
    (spelled : name.toList.map Char.toLower = Text.folded (sanitize id))
    (otherSpelled : stem.toList.map Char.toLower = Text.folded (sanitize other)) {ending : String}
    (listed : String.ofList (ending.toList.map Char.toLower) ∈ endings) : name ≠ stem ++ ending := by
  rintro rfl
  apply distant _ listed
  rw [← spelled, ← otherSpelled, String.toList_append, List.map_append, String.toList_ofList]

theorem Distant.ne {id other : String} (distant : Distant id other) {name stem : String}
    (spelled : name.toList.map Char.toLower = Text.folded (sanitize id))
    (otherSpelled : stem.toList.map Char.toLower = Text.folded (sanitize other)) : name ≠ stem := by
  have apart : name ≠ stem ++ "" := distant.ne_append spelled otherSpelled (by decide)
  rwa [String.append_empty] at apart

/-- The spelled names of an id in ASCII are its letters and digits, but for the case. -/
theorem spelled_of_ascii {id : String} (ascii : Text.IsAscii id.toList) :
    (CodeName.of id).pascal.toList.map Char.toLower = Text.folded (sanitize id) ∧
      (CodeName.of id).camel.toList.map Char.toLower = Text.folded (sanitize id) := by
  have sanitized := Text.isAscii_sanitize ascii
  simp only [CodeName.of]
  exact ⟨Text.toLower_pascalCase sanitized, Text.toLower_camelCase sanitized⟩

theorem clear_of_distant (o : Options) {op other : Operation}
    (named : op.name = CodeName.of op.id) (otherNamed : other.name = CodeName.of other.id)
    (ascii : Text.IsAscii op.id.toList) (otherAscii : Text.IsAscii other.id.toList)
    (distant : Distant op.id other.id) : Clear o op other := by
  obtain ⟨pascal, camel⟩ := spelled_of_ascii ascii
  obtain ⟨otherPascal, otherCamel⟩ := spelled_of_ascii otherAscii
  rw [← named] at pascal camel
  rw [← otherNamed] at otherPascal otherCamel
  have requests : op.name.pascal ≠ other.name.pascal := distant.ne pascal otherPascal
  have responsesStem : op.name.pascal ≠ other.name.pascal ++ "Responses" :=
    distant.ne_append pascal otherPascal (by decide)
  have members : op.name.camel ≠ other.name.camel := distant.ne camel otherCamel
  have defaultStem : op.name.camel ≠ other.name.camel ++ "Default" :=
    distant.ne_append camel otherCamel (by decide)
  have type : op.name.camel ≠ other.name.pascal ++ "T" :=
    distant.ne_append camel otherPascal (by decide)
  have defaults : op.name.camel ≠ other.name.camel ++ "DefaultResponses" :=
    distant.ne_append camel otherCamel (by decide)
  have responses : op.name.camel ≠ other.name.pascal ++ "ResponsesT" :=
    distant.ne_append camel otherPascal (by decide)
  have decoder : op.name.camel ≠ other.name.camel ++ "Decoder" :=
    distant.ne_append camel otherCamel (by decide)
  have defaultDecoder : op.name.camel ≠ other.name.camel ++ "DefaultDecoder" :=
    distant.ne_append camel otherCamel (by decide)
  refine ⟨⟨requests, fun _ => responsesStem, fun _ _ => ⟨members, defaultStem⟩⟩, ?_⟩
  intro _ _ member
  unfold RequestType.exports at member
  split at member
  · simp [RequestType.of, type, defaults, responses, decoder, defaultDecoder] at member
  · exact type (List.mem_singleton.mp member)

end Emit

open Emit

/-- When the names of operations are apart, in a model that reports no id twice. All ids are
different then, and the generated files have the names of the operations and no others. Those of two
operations are apart exactly if no spelled name is that of the other operation, or with an ending
between two exported names, and no member of the client is called like what the other one exports.
Ids of ASCII are sure to have such names if they differ in more than case, marks and endings. -/
theorem names_apart_iff {document : Document} {fragments : Fragments} {model : Model}
    (built : Model.ofDocument document fragments = .ok model) (quiet : model.ReportsNoDuplicate)
    (options : Options) :
    let o := options.normalized
    (model.operations.map (·.id)).Nodup ∧
      (∀ s ∈ requestTypesSources o model,
        s.exports = model.operations.flatMap fun op => (RequestType.of o op).exports) ∧
      (∀ s ∈ clientSources o model, o.client ∧
        ∃ d ∈ s.declarations, d.exported ∧ d.kind = .type ∧ d.name = "Client" ∧
          d.rest = " = \x7b\n" ++
            String.join ((model.operations.filter (decoded o)).map memberLine) ++ "\x7d;\n\n") ∧
      (model.operations.Pairwise (fun op other => (namesOf o op).Disjoint (namesOf o other)) ↔
        model.operations.Pairwise fun op other => Clear o op other ∧ Clear o other op) ∧
      ((∀ op ∈ model.operations, Text.IsAscii op.id.toList) →
        model.operations.Pairwise (fun op other => Distant op.id other.id ∧ Distant other.id op.id) →
        model.operations.Pairwise fun op other => (namesOf o op).Disjoint (namesOf o other)) := by
  intro o
  obtain ⟨distinct, named⟩ := Model.ids_of_ofDocument built quiet
  refine ⟨distinct, ?_, ?_, List.Pairwise.iff fun _ _ => disjoint_namesOf_iff o _ _, ?_⟩
  · intro s member
    unfold requestTypesSources at member
    split at member
    · rw [List.mem_singleton.mp member, exports_requestTypesSource, List.flatMap_map]
    · cases member
  · intro s member
    unfold clientSources at member
    split at member
    · rename_i asked
      have decoders : o.responseDecoders := by
        have client : options.client := asked
        simp [o, Options.normalized, client]
      rw [List.mem_singleton.mp member, ← clientOperations_eq decoders]
      exact ⟨asked, exists_client _ _⟩
    · cases member
  · intro ascii distant
    refine distant.imp_of_mem fun {op other} member otherMember apart => ?_
    exact (disjoint_namesOf_iff o op other).mpr
      ⟨clear_of_distant o (named op member) (named other otherMember) (ascii op member)
          (ascii other otherMember) apart.1,
        clear_of_distant o (named other otherMember) (named op member) (ascii other otherMember)
          (ascii op member) apart.2⟩

/-- A path with one operation that answers without a body. -/
def Sample.pathOf (id : String) : PathItem :=
  { summary := none, description := none, parameters := [], servers := none, path? := none
    entries :=
      [("get", .obj
        [("operationId", .str id),
         ("responses", .obj [("200", .obj [("description", .str "")])])])] }

/-- A document with two operations, of which the first has marks in its id. -/
def Sample.petsWith (other : String) : Document :=
  .swagger
    { version := "2.0", info := .empty, host := none, basePath := none, schemes := []
      consumes := [], produces := []
      paths := [("/one", Sample.pathOf "get-pet"), ("/all", Sample.pathOf other)]
      definitions := [], parameters := [], responses := [], securityDefinitions := []
      security := [], tags := [] }

/-- With a client, each operation has all its names. -/
def Sample.clientOptions : Options := { client := true }

/-- Ids that differ in a letter have names apart. -/
theorem names_apart_pets :
    ∃ model, Model.ofDocument (Sample.petsWith "get_pets") [] = .ok model ∧
      model.ReportsNoDuplicate ∧ model.operations.map (·.id) = ["get-pet", "get_pets"] ∧
      model.operations.Pairwise fun op other =>
        (namesOf Sample.clientOptions.normalized op).Disjoint
          (namesOf Sample.clientOptions.normalized other) := by
  obtain ⟨model, built, facts⟩ := exists_ok_of_map
    (x := Model.ofDocument (Sample.petsWith "get_pets") [])
    (f := fun m => (m.diagnostics, m.operations.map (·.id)))
    (b := ([], ["get-pet", "get_pets"])) (by decide +kernel)
  obtain ⟨none, ids⟩ := Prod.mk.inj facts
  have quiet : model.ReportsNoDuplicate := by
    intro diagnostic member
    rw [none] at member
    cases member
  obtain ⟨_, _, _, _, apart⟩ := names_apart_iff built quiet Sample.clientOptions
  have ascii : ∀ id ∈ model.operations.map (·.id), Text.IsAscii id.toList := by
    rw [ids]
    decide
  have distant : (model.operations.map (·.id)).Pairwise fun id other =>
      Distant id other ∧ Distant other id := by
    rw [ids]
    decide
  exact ⟨model, built, quiet, ids,
    apart (fun _ member => ascii _ (List.mem_map_of_mem member)) (List.pairwise_map.mp distant)⟩

def Sample.petNames : List String :=
  ["GetPetT", "getPetDefaultResponses", "GetPetResponsesT", "getPetDecoder", "getPetDefaultDecoder",
   "getPet"]

/-- Ids that differ in their mark only are not reported, and come to the same names. -/
theorem ids_clash :
    ∃ model, Model.ofDocument (Sample.petsWith "get_pet") [] = .ok model ∧
      model.ReportsNoDuplicate ∧ model.operations.map (·.id) = ["get-pet", "get_pet"] ∧
      model.operations.map (namesOf Sample.clientOptions.normalized) =
        [Sample.petNames, Sample.petNames] ∧
      ¬ model.operations.Pairwise fun op other =>
        (namesOf Sample.clientOptions.normalized op).Disjoint
          (namesOf Sample.clientOptions.normalized other) := by
  obtain ⟨model, built, facts⟩ := exists_ok_of_map
    (x := Model.ofDocument (Sample.petsWith "get_pet") [])
    (f := fun m => (m.diagnostics, m.operations.map (·.id),
      m.operations.map (namesOf Sample.clientOptions.normalized)))
    (b := ([], ["get-pet", "get_pet"], [Sample.petNames, Sample.petNames])) (by decide +kernel)
  obtain ⟨none, facts⟩ := Prod.mk.inj facts
  obtain ⟨ids, names⟩ := Prod.mk.inj facts
  have quiet : model.ReportsNoDuplicate := by
    intro diagnostic member
    rw [none] at member
    cases member
  refine ⟨model, built, quiet, ids, names, fun apart => ?_⟩
  have first := List.pairwise_map.mpr apart
  rw [names] at first
  have disjoint := List.rel_of_pairwise_cons first List.mem_cons_self
  exact disjoint List.mem_cons_self List.mem_cons_self

end ApiCodec

import ApiCodec.Proofs.Parameters.Chains
import ApiCodec.Proofs.Parameters.Overriding
import ApiCodec.Proofs.Reading.Records

set_option autoImplicit false

namespace ApiCodec

open Document

/-- Notices of why something that a path declares is left out: an operation, a response, or a
parameter. -/
def Notice.leavesOut : Notice → Bool
  | .unsupportedMethod _ => true
  | .noOperationId => true
  | .responseDropped _ _ => true
  | n => n.dropsParameter

theorem Notice.leavesOut_of_dropsParameter {n : Notice} (drops : n.dropsParameter) :
    n.leavesOut := by
  cases n with
  | parameterDropped _ | parameterOfKind _ _ | parameterMissing _ | parameterCyclic _ => rfl
  | _ => cases drops

theorem Notice.leavesOut_of_isAboutSchema {n : Notice} (about : n.isAboutSchema) :
    n.leavesOut = false := by
  cases n with
  | untypedPointer _ | moreItemSchemas _ | allOfIgnored => rfl
  | _ => cases about

/-- The words by which a message says that something is left out; for a response they name its
status. -/
def Notice.lossWords : Notice → String
  | .unsupportedMethod _ => "operation skipped"
  | .noOperationId => "no operationId; skipped"
  | .responseDropped status _ => "response " ++ status ++ " dropped"
  | _ => "dropped"

theorem isInfix_of_cut {text before words after : String} (cut : text = before ++ words ++ after) :
    words.toList <:+: text.toList := by
  rw [cut, String.toList_append, String.toList_append]
  exact List.infix_append _ _ _

theorem isInfix_of_ending {ending before words : String} (cut : ending = before ++ words)
    (text : String) : words.toList <:+: (text ++ ending).toList := by
  rw [cut, ← String.append_assoc, String.toList_append]
  exact (List.suffix_append _ _).isInfix

/-- The message of a notice that leaves something out says so. -/
theorem Notice.lossWords_isInfix_message {n : Notice} (out : n.leavesOut) :
    n.lossWords.toList <:+: n.message.toList := by
  cases n with
  | unsupportedMethod key =>
      show "operation skipped".toList <:+:
        ("unsupported method " ++ key ++ "; operation skipped").toList
      have ending : "; operation skipped" = "; " ++ "operation skipped" := by decide
      exact isInfix_of_ending ending _
  | noOperationId =>
      show "no operationId; skipped".toList <:+: "operation has no operationId; skipped".toList
      have text : "operation has no operationId; skipped" =
          "operation has " ++ "no operationId; skipped" ++ "" := by decide
      exact isInfix_of_cut text
  | responseDropped status cause =>
      show ("response " ++ status ++ " dropped").toList <:+:
        ("response " ++ status ++ " dropped: " ++ cause.message).toList
      have reason : " dropped: " = " dropped" ++ ": " := by decide
      have text : "response " ++ status ++ " dropped: " ++ cause.message =
          "" ++ ("response " ++ status ++ " dropped") ++ (": " ++ cause.message) := by
        rw [reason, String.empty_append]
        simp only [String.append_assoc]
      exact isInfix_of_cut text
  | parameterDropped cause =>
      show "dropped".toList <:+: ("parameter dropped: " ++ cause.message).toList
      have reason : "parameter dropped: " = "parameter " ++ "dropped" ++ ": " := by decide
      have text : "parameter dropped: " ++ cause.message =
          "parameter " ++ "dropped" ++ (": " ++ cause.message) := by
        rw [reason, String.append_assoc]
      exact isInfix_of_cut text
  | parameterOfKind path kind =>
      show "dropped".toList <:+:
        ("parameter pointer " ++ path ++ " addresses a " ++ kind.label ++ "; dropped").toList
      have ending : "; dropped" = "; " ++ "dropped" := by decide
      exact isInfix_of_ending ending _
  | parameterMissing path =>
      show "dropped".toList <:+: ("parameter pointer " ++ path ++ " has no target; dropped").toList
      have ending : " has no target; dropped" = " has no target; " ++ "dropped" := by decide
      exact isInfix_of_ending ending _
  | parameterCyclic path =>
      show "dropped".toList <:+: ("parameter pointer " ++ path ++ " is cyclic; dropped").toList
      have ending : " is cyclic; dropped" = " is cyclic; " ++ "dropped" := by decide
      exact isInfix_of_ending ending _
  | _ => cases out

section

variable {ν α : Type}

/-- Why nothing was made of what was declared, if so. -/
def fault? : Except ν α → Option ν
  | .ok _ => none
  | .error n => some n

/-- All that was made, in order. -/
def made (outcomes : List (Except ν α)) : List α := outcomes.filterMap Except.toOption

/-- Why the rest was left out. -/
def leftOut (outcomes : List (Except ν α)) : List ν := outcomes.filterMap fault?

end

namespace Transform

variable {α β : Type}

/-- A step whose notices are not of something left out. -/
def KeepsAll (t : Transform Notice α) : Prop :=
  ∀ r, t = .ok r → r.notes.filter Notice.leavesOut = []

namespace KeepsAll

theorem tell {notes : List Notice} (quiet : ∀ n ∈ notes, n.leavesOut = false) :
    (Transform.tell notes).KeepsAll := by
  intro r success
  rw [tell_eq_ok_iff.mp success, List.filter_eq_nil_iff]
  exact fun n member => by simp [quiet n member]

theorem pure {a : α} : (pure a : Transform Notice α).KeepsAll := by
  intro r success
  rw [pure_eq_ok_iff.mp success]
  rfl

theorem bind {t : Transform Notice α} {next : α → Transform Notice β} (first : t.KeepsAll)
    (later : ∀ a, (next a).KeepsAll) : (t >>= next).KeepsAll := by
  intro r success
  obtain ⟨a, b, found, more, rfl⟩ := bind_eq_ok_iff.mp success
  rw [List.filter_append, first a found, later a.value b more, List.append_nil]

theorem note {n : Notice} (quiet : n.leavesOut = false) : (Transform.note n).KeepsAll :=
  tell (List.forall_mem_singleton.mpr quiet)

end KeepsAll

end Transform

/-- Nothing that is said about security leaves out what a path declares. -/
theorem AuthHeaders.leavesOut_of_mem_collect {schemes : List (String × SecurityScheme)}
    {taken : List String} {requirements : List SecurityRequirement} :
    ∀ n ∈ (collect schemes taken requirements).2, n.leavesOut = false := by
  have ignored : ∀ used others, ∀ n ∈ ignoredNotes used others, n.leavesOut = false := by
    intro used others n member
    unfold ignoredNotes at member
    split at member
    · cases member
    · cases List.mem_singleton.mp member
      rfl
  induction requirements generalizing taken with
  | nil => exact fun n member => nomatch member
  | cons requirement rest ih =>
      cases requirement with
      | nil => exact ih
      | cons first others =>
          unfold collect
          simp only
          split
          · exact List.forall_mem_append.mpr ⟨ignored _ _, ih⟩
          · split
            · exact List.forall_mem_append.mpr ⟨ignored _ _, ih⟩
            · rename_i notice failed
              refine List.forall_mem_append.mpr ⟨ignored _ _, List.forall_mem_cons.mpr ⟨?_, ih⟩⟩
              unfold ofName at failed
              split at failed
              · cases failed
                rfl
              · split at failed <;> cases failed
                rfl

theorem filter_leavesOut_authHeaders (schemes : List (String × SecurityScheme))
    (requirements : List SecurityRequirement) :
    (authHeaders schemes requirements).2.filter Notice.leavesOut = [] := by
  rw [List.filter_eq_nil_iff]
  exact fun n member => by simp [AuthHeaders.leavesOut_of_mem_collect n member]

namespace Workspace

variable {w : Workspace} {path subject : String}

theorem normalize_keepsAll (base : Option String) (node : SchemaNode) :
    (w.sources.normalize base node).KeepsAll := by
  intro r success
  rw [List.filter_eq_nil_iff]
  intro n member
  simp [Notice.leavesOut_of_isAboutSchema (Sources.isAboutSchema_of_mem_notes success n member)]

theorem typeRef_keepsAll (base : Option String) (node : SchemaNode) :
    (w.typeRef base node).KeepsAll := by
  refine .bind (normalize_keepsAll base node) fun a => ?_
  split
  · exact .pure
  · split <;> exact .pure

theorem typedParameter_keepsAll (declared : Document.Parameter) (base : Option String) :
    (w.typedParameter declared base).KeepsAll := by
  unfold typedParameter
  cases declared.effectiveSchema? with
  | some node => exact .bind (typeRef_keepsAll base node) fun _ => .pure
  | none => exact .bind (.bind (.note rfl) fun _ => .pure) fun _ => .pure

theorem requestBody_keepsAll (op : Document.Operation) : (w.requestBody op).KeepsAll := by
  unfold requestBody
  split
  · exact .bind (.note rfl) fun _ => .pure
  · exact .pure
  · split
    · exact .pure
    · split
      · exact .pure
      · split
        · exact .bind (typeRef_keepsAll none _) fun _ => .pure
        · exact .bind (.note rfl) fun _ => .pure

theorem responseType_keepsAll (status : String) (response : Document.Response) :
    (w.responseType status response).KeepsAll := by
  unfold responseType
  split
  · refine .bind (normalize_keepsAll none _) fun a => ?_
    split <;> exact .pure
  · split <;> exact .pure
  · exact .pure

/-- What becomes of a declared parameter: a parameter that is found, or a notice of why there is
none. -/
inductive ParameterFate (w : Workspace) (subject : String) (node : ParameterNode) :
    Except Notice Parameter → Prop
  | resolved {declared : Document.Parameter} {base : Option String} {typed : Traced Notice Parameter}
      (found : w.resolveParameter subject node = .ok ⟨some (declared, base), [], []⟩)
      (type : w.typedParameter declared base = .ok typed) :
      ParameterFate w subject node (.ok typed.value)
  | dropped {notice : Notice} (lost : w.resolveParameter subject node = .ok ⟨none, [notice], []⟩)
      (reason : notice.dropsParameter) : ParameterFate w subject node (.error notice)

/-- What becomes of a declared response: a response of its status, or a notice that names the
status. -/
inductive ResponseFate (w : Workspace) : String × ResponseNode → Except Notice Response → Prop
  | resolved {status : String} {node : ResponseNode} {declared : Document.Response}
      {type : Traced Notice ResponseType} (found : w.catalog.response node = .ok declared)
      (typed : w.responseType status declared = .ok type) :
      ResponseFate w (status, node)
        (.ok { status, type := type.value, headers := Assoc.keys declared.headers })
  | dropped {status : String} {node : ResponseNode} {cause : ReferenceError}
      (lost : w.catalog.response node = .error cause) :
      ResponseFate w (status, node) (.error (.responseDropped status cause))

theorem fates_of_parameters {nodes : List ParameterNode} {t : Traced Notice (List Parameter)}
    (success : w.parameters subject nodes = .ok t) :
    ∃ outcomes, List.Forall₂ (w.ParameterFate subject) nodes outcomes ∧ t.value = made outcomes ∧
      t.notes.filter Notice.leavesOut = leftOut outcomes := by
  induction nodes generalizing t with
  | nil =>
      cases Transform.pure_eq_ok_iff.mp success
      exact ⟨[], .nil, rfl, rfl⟩
  | cons node rest ih =>
      unfold parameters at success
      obtain ⟨a, b, resolved, next, rfl⟩ := Transform.bind_eq_ok_iff.mp success
      rcases resolveParameter_cases resolved with ⟨⟨declared, base⟩, rfl⟩ | ⟨notice, drops, rfl⟩
      · simp only [Transform.bind_eq_ok_iff, Transform.pure_eq_ok_iff] at next
        obtain ⟨typed, _, type, ⟨more, _, others, rfl, rfl⟩, rfl⟩ := next
        obtain ⟨outcomes, each, values, notes⟩ := ih others
        refine ⟨_, .cons (.resolved resolved type) each, ?_, ?_⟩
        · simp only [values, made, List.filterMap_cons, Except.toOption]
        · rw [List.nil_append, List.append_nil, List.filter_append,
            typedParameter_keepsAll declared base typed type, notes]
          rfl
      · obtain ⟨outcomes, each, values, notes⟩ := ih next
        refine ⟨_, .cons (.dropped resolved drops) each, values, ?_⟩
        rw [List.singleton_append,
          List.filter_cons_of_pos (Notice.leavesOut_of_dropsParameter drops), notes]
        rfl

theorem fates_of_responses {nodes : List (String × ResponseNode)}
    {t : Traced Notice (List Response)} (success : w.responses nodes = .ok t) :
    ∃ outcomes, List.Forall₂ w.ResponseFate nodes outcomes ∧ t.value = made outcomes ∧
      t.notes.filter Notice.leavesOut = leftOut outcomes := by
  induction nodes generalizing t with
  | nil =>
      cases Transform.pure_eq_ok_iff.mp success
      exact ⟨[], .nil, rfl, rfl⟩
  | cons entry rest ih =>
      obtain ⟨status, node⟩ := entry
      unfold Workspace.responses at success
      split at success
      · rename_i cause lost
        simp only [Transform.bind_eq_ok_iff, Transform.note_eq_ok_iff] at success
        obtain ⟨_, more, rfl, others, rfl⟩ := success
        obtain ⟨outcomes, each, values, notes⟩ := ih others
        refine ⟨_, .cons (.dropped lost) each, values, ?_⟩
        rw [List.singleton_append, List.filter_cons_of_pos rfl, notes]
        rfl
      · rename_i declared found
        simp only [Transform.bind_eq_ok_iff, Transform.pure_eq_ok_iff] at success
        obtain ⟨type, _, typed, ⟨more, _, others, rfl, rfl⟩, rfl⟩ := success
        obtain ⟨outcomes, each, values, notes⟩ := ih others
        refine ⟨_, .cons (.resolved found typed) each, ?_, ?_⟩
        · simp only [values, made, List.filterMap_cons, Except.toOption]
        · rw [List.append_nil, List.filter_append,
            responseType_keepsAll status declared type typed, notes]
          rfl

/-- What an operation gives of the parameters and responses that it declares, and of the parameters
of its path: its own are all there, and one of the path is there unless an own one stands for the
same value. -/
structure Accounts (w : Workspace) (shared : List Parameter) (declared : Document.Operation)
    (op : Operation) (parameters : List (Except Notice Parameter))
    (responses : List (Except Notice Response)) : Prop where
  parameterFates : List.Forall₂ (w.ParameterFate op.id) declared.parameters parameters
  own : (made parameters).Subperm op.parameters
  inherited : ∀ p ∈ shared, p ∈ op.parameters ∨ ∃ q ∈ made parameters, sameParameter q p
  responseFates : List.Forall₂ w.ResponseFate declared.responses responses
  listed : op.responses = made responses

/-- A parameter of the path is kept, or the operation declares one that stands for the same
value. -/
theorem mem_keptParameters_or {shared own body : List Parameter}
    (bodies : ∀ q ∈ body, q.location = .body) {p : Parameter} (member : p ∈ shared) :
    p ∈ keptParameters shared (ownParameters own body) ∨ ∃ q ∈ own, sameParameter q p := by
  by_cases kept : p ∈ keptParameters shared (ownParameters own body)
  · exact Or.inl kept
  · have gone := fun either => kept (mem_keptParameters_iff.mpr ⟨member, either⟩)
    obtain ⟨q, mine, same⟩ : ∃ q ∈ ownParameters own body, sameParameter q p := by
      by_contra none
      exact gone (Or.inr fun q mine same => none ⟨q, mine, same⟩)
    rcases List.mem_append.mp (perm_ownParameters.mem_iff.mp mine) with mine | isBody
    · exact Or.inr ⟨q, mine, same⟩
    · exact absurd (Or.inl ((location_eq_of_same same).symm.trans (bodies q isBody))) gone

theorem accounts_of_operation {method : HttpMethod} {id : String} {declared : Document.Operation}
    {shared auth : List Parameter} {u : Traced Notice Operation}
    (success : w.operation method path id declared shared auth = .ok u) :
    ∃ parameters responses, w.Accounts shared declared u.value parameters responses ∧
      u.value.method = method ∧ u.value.path = path ∧ u.value.id = id ∧
      u.notes.filter Notice.leavesOut = leftOut parameters ++ leftOut responses := by
  obtain ⟨own, body, ownFound, bodyFound, _, _, listed⟩ := parameters_of_operation success
  have bodies : ∀ q ∈ body, q.location = .body :=
    fun q member => (location_of_requestBody bodyFound q member).1
  unfold operation at success
  simp only [Transform.bind_eq_ok_iff, Transform.tell_eq_ok_iff, Transform.pure_eq_ok_iff] at success
  obtain ⟨a, _, found, ⟨_, _, rfl, ⟨b, _, requested, ⟨c, _, answered, rfl, rfl⟩, rfl⟩, rfl⟩, rfl⟩ :=
    success
  obtain ⟨parameters, parameterFates, own_eq, parameterNotes⟩ := fates_of_parameters found
  obtain ⟨responses, responseFates, responses_eq, responseNotes⟩ := fates_of_responses answered
  obtain rfl : own = made parameters := by
    rw [found] at ownFound
    exact (Option.some.inj ownFound).symm.trans own_eq
  refine ⟨parameters, responses, ⟨parameterFates, ?_, ?_, responseFates, responses_eq⟩, rfl, rfl,
    rfl, ?_⟩
  · rw [listed]
    have mine : (made parameters).Subperm (ownParameters (made parameters) body) :=
      (List.sublist_append_left _ body).subperm.trans perm_ownParameters.symm.subperm
    exact mine.trans (List.sublist_append_right _ _).subperm
  · intro p member
    rw [listed]
    rcases mem_keptParameters_or bodies member with kept | overridden
    · exact Or.inl (List.mem_append_left _ (List.mem_append_left _ kept))
    · exact Or.inr overridden
  · simp only [List.filter_append, parameterNotes, filter_leavesOut_authHeaders,
      requestBody_keepsAll declared b requested, responseNotes, List.nil_append, List.append_nil]

/-- What an entry of a path item gives: a notice that it is skipped, or an operation with what its
parameters and responses give. -/
inductive EntryOutcome
  | skipped (notice : Notice)
  | kept (op : Operation) (parameters : List (Except Notice Parameter))
      (responses : List (Except Notice Response))

namespace EntryOutcome

def operation? : EntryOutcome → Option Operation
  | .skipped _ => none
  | .kept op _ _ => some op

def notices : EntryOutcome → List Notice
  | .skipped notice => [notice]
  | .kept _ parameters responses => leftOut parameters ++ leftOut responses

end EntryOutcome

/-- What becomes of an entry of a path item. -/
inductive EntryFate (w : Workspace) (path : String) (shared : List Parameter)
    (entry : String × Document.Operation) : EntryOutcome → Prop
  | unsupported (unknown : HttpMethod.ofName? entry.1 = none) :
      EntryFate w path shared entry (.skipped (.unsupportedMethod entry.1))
  | anonymous {method : HttpMethod} (supported : HttpMethod.ofName? entry.1 = some method)
      (absent : entry.2.operationId = none) : EntryFate w path shared entry (.skipped .noOperationId)
  | kept {op : Operation} {parameters : List (Except Notice Parameter)}
      {responses : List (Except Notice Response)}
      (supported : HttpMethod.ofName? entry.1 = some op.method)
      (identified : entry.2.operationId = some op.id) (located : op.path = path)
      (accounts : w.Accounts shared entry.2 op parameters responses) :
      EntryFate w path shared entry (.kept op parameters responses)

theorem fate_of_comes {shared auth : List Parameter} {entry : String × Document.Operation}
    {t : Traced Notice (List Operation)} (comes : w.Comes path shared auth entry t) :
    ∃ outcome, w.EntryFate path shared entry outcome ∧ t.value = outcome.operation?.toList ∧
      t.notes.filter Notice.leavesOut = outcome.notices := by
  cases comes with
  | unsupported unknown => exact ⟨_, .unsupported unknown, rfl, rfl⟩
  | anonymous supported absent => exact ⟨_, .anonymous supported absent, rfl, rfl⟩
  | made supported identified built =>
      obtain ⟨parameters, responses, accounts, rfl, rfl, rfl, notes⟩ := accounts_of_operation built
      exact ⟨_, .kept supported identified rfl accounts, rfl, notes⟩

/-- Notices about one subject that leave something out. -/
theorem filter_leavesOut_map (subject : String) (notes : List Notice) :
    (notes.map (Diagnostic.mk subject)).filter (·.notice.leavesOut) =
      (notes.filter Notice.leavesOut).map (Diagnostic.mk subject) := List.filter_map

theorem fates_of_comes {shared auth : List Parameter}
    {declared : List (String × Document.Operation)} {found : List (Traced Notice (List Operation))}
    (each : List.Forall₂ (w.Comes path shared auth) declared found) :
    ∃ outcomes, List.Forall₂ (w.EntryFate path shared) declared outcomes ∧
      found.flatMap (·.value) = outcomes.filterMap (·.operation?) ∧
      ((declared.zip found).flatMap fun pair =>
          pair.2.notes.map (Diagnostic.mk (entrySubject path pair.1.1))).filter
            (·.notice.leavesOut) =
        (declared.zip outcomes).flatMap fun pair =>
          pair.2.notices.map (Diagnostic.mk (entrySubject path pair.1.1)) := by
  induction each with
  | nil => exact ⟨[], .nil, rfl, rfl⟩
  | cons comes _ ih =>
      obtain ⟨outcomes, fates, values, notes⟩ := ih
      obtain ⟨outcome, fate, value, own⟩ := fate_of_comes comes
      refine ⟨outcome :: outcomes, .cons fate fates, ?_, ?_⟩
      · rw [List.flatMap_cons, value, values]
        cases outcome <;> rfl
      · rw [List.zip_cons_cons, List.flatMap_cons, List.filter_append, filter_leavesOut_map, own,
          notes, List.zip_cons_cons, List.flatMap_cons]

/-- Nothing that a path item declares vanishes without a notice. Each parameter of the path is found
or has a notice; each entry that is no extension becomes one operation, in order, or has a notice
that it is skipped; and of an operation each parameter is found or has a notice, and each response
becomes one response of its status, in order, or has a notice that names the status. There are no
other notices of these kinds, and the messages of these say that something is left out. -/
theorem nothing_vanishes {item : PathItem} {t : Traced Diagnostic (List Operation)}
    (success : w.operations path item = .ok t) :
    ∃ shared declared outcomes,
      List.Forall₂ (w.ParameterFate path) item.parameters shared ∧
      List.Forall₂
        (fun entry operation => operation.1 = Text.lower entry.1 ∧
          Document.Operation.read entry.2 = .ok operation.2)
        (item.entries.filter fun entry => !PathItem.isExtension entry.1) declared ∧
      List.Forall₂ (w.EntryFate path (made shared)) declared outcomes ∧
      t.value = outcomes.filterMap (·.operation?) ∧
      t.notes.filter (·.notice.leavesOut) =
        (leftOut shared).map (Diagnostic.mk path) ++
          ((declared.zip outcomes).flatMap fun pair =>
            pair.2.notices.map (Diagnostic.mk (entrySubject path pair.1.1))) ∧
      ∀ note ∈ t.notes, note.notice.leavesOut →
        note.notice.lossWords.toList <:+: note.notice.message.toList := by
  obtain ⟨common, declared, found, commonFound, read, each, values, notes⟩ :=
    comes_of_operations success
  obtain ⟨u, sharedFound, common_eq, commonNotes⟩ := eq_of_sharedParameters commonFound
  obtain ⟨shared, sharedFates, shared_eq, sharedNotes⟩ := fates_of_parameters sharedFound
  rw [common_eq, shared_eq] at each
  obtain ⟨outcomes, fates, operations, entryNotes⟩ := fates_of_comes each
  refine ⟨shared, declared, outcomes, sharedFates, PathItem.forall₂_of_operations read, fates,
    values.trans operations, ?_, fun _ _ => Notice.lossWords_isInfix_message⟩
  have common_kept : common.notes.filter Notice.leavesOut = leftOut shared := by
    have reference : (item.path?.toList.map Notice.pathItemReference).filter Notice.leavesOut = [] := by
      cases item.path? <;> rfl
    rw [commonNotes, List.filter_append, List.filter_append, reference, sharedNotes,
      filter_leavesOut_authHeaders, List.nil_append, List.append_nil]
  rw [notes, List.filter_append, filter_leavesOut_map, common_kept, entryNotes]

end Workspace

/-- A path with something to leave out at each level: a parameter without a target, an extension, a
method that is not supported, an operation without an id, and in an operation a pointer to something
else than a parameter and a response without a target. -/
def Sample.patchy : PathItem :=
  { summary := none, description := none, servers := none, path? := none
    parameters := [.ref "#/parameters/Gone"]
    entries :=
      [("x-owner", .null), ("options", .obj []), ("get", .obj []),
       ("post", .obj
        [("operationId", .str "addPet"),
         ("parameters", .arr
           [Json.reference "#/definitions/Pet",
            .obj [("name", .str "limit"), ("in", .str "query"), ("type", .str "string")]]),
         ("responses", .obj
           [("200", .obj [("description", .str "")]), ("404", Json.reference "#/responses/Gone")])])] }

/-- Of that path one operation is made, and five notices account for the rest. -/
theorem nothing_vanishes_patchy :
    ∃ t shared declared outcomes, Sample.posts.operations "/pets" Sample.patchy = .ok t ∧
      (t.value.map fun op => (op.id, op.parameters.map (·.name), op.responses.map (·.status))) =
        [("addPet", ["limit"], ["200"])] ∧
      List.Forall₂ (Sample.posts.ParameterFate "/pets") Sample.patchy.parameters shared ∧
      List.Forall₂ (Sample.posts.EntryFate "/pets" (made shared)) declared outcomes ∧
      t.value = outcomes.filterMap (·.operation?) ∧
      (leftOut shared).map (Diagnostic.mk "/pets") ++
          (declared.zip outcomes).flatMap (fun pair =>
            pair.2.notices.map (Diagnostic.mk (Workspace.entrySubject "/pets" pair.1.1))) =
        [⟨"/pets", .parameterMissing "#/parameters/Gone"⟩,
         ⟨"OPTIONS /pets", .unsupportedMethod "options"⟩, ⟨"GET /pets", .noOperationId⟩,
         ⟨"POST /pets", .parameterOfKind "#/definitions/Pet" .definition⟩,
         ⟨"POST /pets", .responseDropped "404" (.targetNotFound "#/responses/Gone")⟩] ∧
      ∀ note ∈ t.notes, note.notice.leavesOut →
        note.notice.lossWords.toList <:+: note.notice.message.toList := by
  obtain ⟨t, success, facts⟩ := exists_ok_of_map
    (x := Sample.posts.operations "/pets" Sample.patchy)
    (f := fun t =>
      (t.value.map fun op => (op.id, op.parameters.map (·.name), op.responses.map (·.status)),
        t.notes))
    (b := ([("addPet", ["limit"], ["200"])],
      [⟨"/pets", .parameterMissing "#/parameters/Gone"⟩,
       ⟨"OPTIONS /pets", .unsupportedMethod "options"⟩, ⟨"GET /pets", .noOperationId⟩,
       ⟨"POST /pets", .parameterOfKind "#/definitions/Pet" .definition⟩,
       ⟨"POST /pets", .responseDropped "404" (.targetNotFound "#/responses/Gone")⟩]))
    (by decide +kernel)
  obtain ⟨faces, notes⟩ := Prod.mk.inj facts
  obtain ⟨shared, declared, outcomes, sharedFates, _, fates, values, dropped, announced⟩ :=
    Workspace.nothing_vanishes success
  refine ⟨t, shared, declared, outcomes, success, faces, sharedFates, fates, values, ?_, announced⟩
  rw [← dropped, notes]
  rfl

end ApiCodec

import ApiCodec.Proofs.Client.Functions
import ApiCodec.Proofs.Parameters.Tokens

set_option autoImplicit false

namespace ApiCodec

open Document

namespace Emit

theorem keys_addHeader (headers : List (String × String)) (header : String × String) :
    Assoc.keys (addHeader headers header) = addName (Assoc.keys headers) header.1 := by
  have present : (Assoc.keys headers).contains header.1 = Assoc.has header.1 headers := by
    rw [Bool.eq_iff_iff, List.contains_iff_mem, Assoc.has_iff]
  unfold addHeader addName
  rw [present]
  split
  · rfl
  · exact List.map_append

theorem keys_foldl_addHeader (found headers : List (String × String)) :
    Assoc.keys (found.foldl addHeader headers) =
      (Assoc.keys found).foldl addName (Assoc.keys headers) := by
  induction found generalizing headers with
  | nil => rfl
  | cons first rest ih =>
      rw [List.foldl_cons, ih, keys_addHeader]
      rfl

theorem get?_addHeader (headers : List (String × String)) (header : String × String)
    (name : String) :
    Assoc.get? name (addHeader headers header) =
      (Assoc.get? name headers).or (Assoc.get? name [header]) := by
  unfold addHeader
  split
  · rename_i present
    rw [Assoc.has_iff, Assoc.mem_keys_iff] at present
    obtain ⟨value, known⟩ := present
    by_cases same : header.1 = name
    · rw [← same, known, Option.some_or]
    · rw [show Assoc.get? name [header] = none by simp [Assoc.get?, same], Option.or_none]
  · exact Assoc.get?_append _ _ _

/-- Of several headers of one name the first is sent. -/
theorem get?_foldl_addHeader (found headers : List (String × String)) (name : String) :
    Assoc.get? name (found.foldl addHeader headers) =
      (Assoc.get? name headers).or (Assoc.get? name found) := by
  induction found generalizing headers with
  | nil => exact Option.or_none.symm
  | cons first rest ih =>
      rw [List.foldl_cons, ih, get?_addHeader, Option.or_assoc, ← Assoc.get?_append]
      rfl

/-- A header has the name that its parameter is sent under. -/
theorem name_headerValue (p : Parameter) : (headerValue p).map Prod.fst = p.headerName? := by
  unfold headerValue Parameter.headerName?
  cases p.kind with
  | plain => rfl
  | header name => rfl
  | authHeader name token scheme => cases scheme <;> rfl

theorem keys_headerValues (parameters : List Parameter) :
    Assoc.keys (parameters.filterMap headerValue) = parameters.filterMap (·.headerName?) := by
  rw [Assoc.keys, List.map_filterMap]
  exact congrArg (List.filterMap · parameters) (funext name_headerValue)

/-- Each parameter that is sent in a header is among those that the client takes. -/
theorem mem_headerParameters_iff {op : Operation} {p : Parameter} :
    p ∈ headerParameters op ↔ p ∈ op.parameters ∧ p.headerName?.isSome := by
  have either : p.headerName?.isSome = (p.isAuth || isHeader p) := by
    unfold Parameter.headerName? Parameter.isAuth isHeader
    cases p.kind <;> rfl
  rw [headerParameters, Operation.authParameters, List.mem_append, List.mem_filter,
    List.mem_filter, ← and_or_left, ← Bool.or_eq_true, either]

end Emit

/-- How an operation comes to its headers and its content type: its headers are made of its tokens,
in some order, and its parameters, and all requests but those that only get have a content type. -/
structure Operation.Announces (op : Operation) : Prop where
  headers : ∃ tokens : List Parameter, tokens.Perm op.authParameters ∧
    op.headers = Workspace.requestHeaders op.method tokens op.parameters
  consumes : op.consumes = none ↔ op.method = .get
  plain : ∀ p ∈ op.parameters, p.HasPlainWord

namespace Workspace

variable {w : Workspace}

theorem headers_of_operation {method : HttpMethod} {path id : String}
    {declared : Document.Operation} {shared auth : List Parameter} {u : Traced Notice Operation}
    (success : w.operation method path id declared shared auth = .ok u) :
    u.value.headers = requestHeaders u.value.method (w.ownAuth declared auth ++ auth)
      u.value.parameters ∧ (u.value.consumes = none ↔ u.value.method = .get) := by
  unfold operation at success
  simp only [Transform.bind_eq_ok_iff, Transform.tell_eq_ok_iff, Transform.pure_eq_ok_iff] at success
  obtain ⟨_, _, _, ⟨_, _, rfl, ⟨_, _, _, ⟨_, _, _, rfl, rfl⟩, rfl⟩, rfl⟩, rfl⟩ := success
  exact ⟨rfl, by simp⟩

theorem announces_of_operations {path : String} {item : PathItem}
    {t : Traced Diagnostic (List Operation)} (success : w.operations path item = .ok t)
    {op : Operation} (member : op ∈ t.value) : op.Announces := by
  obtain ⟨common, _, found, _, _, _, _, _, u, _, _, built, rfl⟩ :=
    exists_operation_of_operations success member
  obtain ⟨a, shared, common_eq, _⟩ := eq_of_sharedParameters found
  rw [common_eq] at built
  obtain ⟨headers, consumes⟩ := headers_of_operation built
  have declares : ∀ p ∈ a.value, p.isAuth = false := isAuth_of_parameters (by rw [shared]; rfl)
  have tokens := authParameters_of_operation declares
    (fun p inside => (AuthHeaders.isAuth_of_mem_collect p inside).1) built
  refine ⟨⟨_, ?_, headers⟩, consumes, fun p inside => ?_⟩
  · rw [tokens]
    exact List.perm_append_comm
  intro name token word kind
  have carries : p ∈ u.value.authParameters :=
    List.mem_filter.mpr ⟨inside, by rw [Parameter.isAuth, kind]⟩
  rw [tokens] at carries
  have plain : p.HasPlainWord := by
    rcases List.mem_append.mp carries with required | own
    · exact AuthHeaders.hasPlainWord_of_mem_collect p required
    · exact AuthHeaders.hasPlainWord_of_mem_collect p (List.mem_filter.mp own).1
  exact plain name token word kind

end Workspace

namespace Operation.Announces

variable {op : Operation}

theorem nodup_headers (announces : op.Announces) : op.headers.Nodup := by
  obtain ⟨tokens, _, headers⟩ := announces.headers
  rw [headers]
  exact nodup_foldl_addName List.nodup_nil

/-- The headers are a content type, where there is something to send, and those of parameters. -/
theorem mem_headers_iff (announces : op.Announces) {name : String} :
    name ∈ op.headers ↔
      (name = contentTypeHeader ∧ op.method.carriesBody ∧ op.parameters ≠ []) ∨
        ∃ p ∈ op.parameters, p.headerName? = some name := by
  obtain ⟨tokens, same, headers⟩ := announces.headers
  have content : name ∈ (if op.method.carriesBody && !op.parameters.isEmpty then
        [contentTypeHeader] else []) ↔
      name = contentTypeHeader ∧ op.method.carriesBody ∧ op.parameters ≠ [] := by
    rw [List.mem_ite_nil_right, List.mem_singleton]
    simp [and_comm]
  rw [headers, Workspace.requestHeaders, mem_foldl_addName, List.mem_append, List.mem_append,
    content, or_assoc, List.mem_filterMap, List.mem_filterMap]
  simp only [List.not_mem_nil, false_or]
  refine or_congr_right ⟨?_, ?_⟩
  · rintro (⟨p, token, named⟩ | ⟨p, inside, named⟩)
    · exact ⟨p, (List.mem_filter.mp (same.mem_iff.mp token)).1, named⟩
    · refine ⟨p, inside, ?_⟩
      unfold Parameter.headerName?
      split at named
      · rename_i kind
        rw [kind]
        exact named
      · cases named
  · rintro ⟨p, inside, named⟩
    unfold Parameter.headerName? at named
    cases kind : p.kind with
    | plain =>
        rw [kind] at named
        cases named
    | header own =>
        rw [kind] at named
        exact Or.inr ⟨p, inside, by rw [kind]; exact named⟩
    | authHeader own token scheme =>
        refine Or.inl ⟨p, same.mem_iff.mpr (List.mem_filter.mpr ⟨inside, ?_⟩), ?_⟩
        · rw [Parameter.isAuth, kind]
        · rw [Parameter.headerName?, kind]
          rw [kind] at named
          exact named

end Operation.Announces

namespace Emit

variable {op : Operation}

theorem mem_keys_contentTypeOf_iff {name : String} :
    name ∈ Assoc.keys (contentTypeOf op) ↔
      name = contentTypeHeader ∧ contentTypeHeader ∈ op.headers ∧ isMultipart op = false ∧
        op.consumes ≠ none := by
  unfold contentTypeOf
  split
  · rename_i declared
    rw [Bool.and_eq_true, List.contains_iff_mem, Bool.not_eq_true'] at declared
    cases op.consumes <;> simp [Assoc.keys, declared]
  · rename_i absent
    rw [Bool.and_eq_true, List.contains_iff_mem, Bool.not_eq_true', not_and] at absent
    constructor
    · intro member
      cases member
    · rintro ⟨_, declared, single, _⟩
      exact absurd single (absent declared)

theorem keys_headersOf :
    Assoc.keys (headersOf op) =
      (Assoc.keys (contentTypeOf op) ++ (headerParameters op).filterMap (·.headerName?)).foldl
        addName [] := by
  rw [headersOf, keys_foldl_addHeader, ← keys_headerValues, Assoc.keys, Assoc.keys,
    List.map_append]
  rfl

theorem mem_keys_headersOf_iff {name : String} :
    name ∈ Assoc.keys (headersOf op) ↔
      name ∈ Assoc.keys (contentTypeOf op) ∨ ∃ p ∈ op.parameters, p.headerName? = some name := by
  rw [keys_headersOf, mem_foldl_addName, List.mem_append, List.mem_filterMap]
  simp only [List.not_mem_nil, false_or, mem_headerParameters_iff]
  refine or_congr_right (exists_congr fun p => ?_)
  rw [and_assoc]
  refine and_congr_right fun _ => and_iff_right_of_imp fun named => ?_
  rw [named]
  rfl

theorem exists_content_of_headerValue {p : Parameter} (plain : p.HasPlainWord)
    {header : String × String} (made : headerValue p = some header) :
    ∃ content : HeaderContent, content.written = header.2 := by
  cases kind : p.kind with
  | plain => simp only [headerValue, kind, reduceCtorEq] at made
  | header name =>
      simp only [headerValue, kind, Option.some.injEq] at made
      exact ⟨.parameter p, by rw [← made, HeaderContent.written]⟩
  | authHeader name token scheme =>
      cases scheme with
      | none =>
          simp only [headerValue, kind, Option.some.injEq] at made
          exact ⟨.parameter p, by rw [← made, HeaderContent.written]⟩
      | some word =>
          simp only [headerValue, kind, Option.some.injEq] at made
          exact ⟨.token word (plain name token word kind) p, by rw [← made, HeaderContent.written]⟩

theorem mem_of_mem_foldl_addHeader {found headers : List (String × String)}
    {header : String × String} (member : header ∈ found.foldl addHeader headers) :
    header ∈ headers ∨ header ∈ found := by
  induction found generalizing headers with
  | nil => exact Or.inl member
  | cons first rest ih =>
      rcases ih member with earlier | later
      · unfold addHeader at earlier
        split at earlier
        · exact Or.inl earlier
        · rcases List.mem_append.mp earlier with old | new
          · exact Or.inl old
          · exact Or.inr (List.mem_cons.mpr (Or.inl (List.mem_singleton.mp new)))
      · exact Or.inr (List.mem_cons_of_mem first later)

theorem exists_content (plain : ∀ p ∈ op.parameters, p.HasPlainWord)
    {header : String × String} (member : header ∈ headersOf op) :
    ∃ content : HeaderContent, content.written = header.2 := by
  rcases mem_of_mem_foldl_addHeader member with none | given
  · cases none
  rcases List.mem_append.mp given with type | sent
  · unfold contentTypeOf at type
    split at type
    · obtain ⟨consumes, _, same⟩ := List.mem_map.mp type
      exact ⟨.constant consumes, by rw [← same, HeaderContent.written]⟩
    · cases type
  · obtain ⟨p, inside, made⟩ := List.mem_filterMap.mp sent
    exact exists_content_of_headerValue (plain p (mem_headerParameters_iff.mp inside).1) made

theorem exists_fields {headers : List (String × String)}
    (each : ∀ header ∈ headers, ∃ content : HeaderContent, content.written = header.2) :
    ∃ fields : List (String × HeaderContent),
      (fields.map fun field => (field.1, field.2.written)) = headers := by
  induction headers with
  | nil => exact ⟨[], rfl⟩
  | cons header rest ih =>
      obtain ⟨⟨content, written⟩, others⟩ := List.forall_mem_cons.mp each
      obtain ⟨fields, same⟩ := ih others
      exact ⟨(header.1, content) :: fields, by rw [List.map_cons, same, written]⟩

/-- The text of the function that makes the headers tells them. -/
theorem makesHeaders_headersFunction (plain : ∀ p ∈ op.parameters, p.HasPlainWord) :
    MakesHeaders (headersFunction op) (headersOf op) := by
  obtain ⟨fields, same⟩ := exists_fields fun _ => exists_content plain
  have text : headersFunction op =
      HeadersMaker.function
        ⟨if (headersOf op).isEmpty then [] else headerParameters op, fields⟩ := by
    unfold headersFunction HeadersMaker.function HeadersMaker.object
    simp only [HeadersMaker.headers, same, ← List.isEmpty_iff]
    split
    · rfl
    · rfl
  refine ⟨⟨_, text⟩, fun m made => ?_⟩
  rw [text] at made
  exact (HeadersMaker.headers_eq_of_function_eq made).symm.trans same

end Emit

/-- The headers that an operation declares are those of its parameters and, where a body is sent with
something in it, the content type, each once. The function that the client is written with makes an
object of the same headers, also each once, without the content type of a form of several parts that
no parameter is sent in. -/
theorem declared_headers_are_sent {w : Workspace} {path : String} {item : PathItem}
    {t : Traced Diagnostic (List Operation)} {op : Operation}
    (success : w.operations path item = .ok t) (member : op ∈ t.value) :
    op.headers.Nodup ∧
      (∀ name, name ∈ op.headers ↔
        (name = contentTypeHeader ∧ op.method.carriesBody ∧ op.parameters ≠ []) ∨
          ∃ p ∈ op.parameters, p.headerName? = some name) ∧
      Emit.MakesHeaders (Emit.headersFunction op) (Emit.headersOf op) ∧
      (Assoc.keys (Emit.headersOf op)).Nodup ∧
      ∀ name, name ∈ Assoc.keys (Emit.headersOf op) ↔
        name ∈ op.headers ∧
          ¬ (name = contentTypeHeader ∧ op.consumes = some Emit.multipart ∧
            ∀ p ∈ op.parameters, p.headerName? ≠ some contentTypeHeader) := by
  have announces := Workspace.announces_of_operations success member
  refine ⟨announces.nodup_headers, fun name => announces.mem_headers_iff,
    Emit.makesHeaders_headersFunction announces.plain, ?_, fun name => ?_⟩
  · rw [Emit.keys_headersOf]
    exact nodup_foldl_addName List.nodup_nil
  have several : op.consumes = some Emit.multipart ↔ Emit.isMultipart op = true := by
    rw [Emit.isMultipart, beq_iff_eq]
  rw [Emit.mem_keys_headersOf_iff, Emit.mem_keys_contentTypeOf_iff, several]
  constructor
  · rintro (⟨rfl, declared, single, _⟩ | ⟨p, inside, named⟩)
    · exact ⟨declared, fun left => by rw [single] at left; cases left.2.1⟩
    · exact ⟨announces.mem_headers_iff.mpr (Or.inr ⟨p, inside, named⟩),
        fun left => left.2.2 p inside (named.trans (congrArg some left.1))⟩
  · rintro ⟨declared, kept⟩
    rcases announces.mem_headers_iff.mp declared with ⟨rfl, carries, _⟩ | sent
    · by_cases form : Emit.isMultipart op = true
      · refine Or.inr (by_contra fun none => kept ⟨rfl, form, fun p inside named => ?_⟩)
        exact none ⟨p, inside, named⟩
      · refine Or.inl ⟨rfl, declared, by simpa using form, fun absent => ?_⟩
        rw [announces.consumes.mp absent] at carries
        cases carries
    · exact Or.inr sent

/-- An upload with a header of its own, in a document that requires a key. -/
def Sample.uploadItem : PathItem :=
  { summary := none, description := none, servers := none, path? := none, parameters := []
    entries :=
      [("post", .obj
        [("operationId", .str "addPhoto"),
         ("security", .arr [.obj [("token", .arr [])]]),
         ("consumes", .arr [.str "multipart/form-data"]),
         ("parameters", .arr
           [.obj [("name", .str "X-Trace"), ("in", .str "header"), ("type", .str "string")],
            .obj [("name", .str "photo"), ("in", .str "formData"), ("type", .str "file")]]),
         ("responses", .obj [])])] }

/-- Of the headers of an upload the content type is declared, but not sent. -/
theorem declared_headers_are_sent_upload :
    ∃ t op, Sample.secured.operations "/photos" Sample.uploadItem = .ok t ∧ op ∈ t.value ∧
      op.headers = ["Content-Type", "Authorization", "X-Key", "X-Trace"] ∧
      Assoc.keys (Emit.headersOf op) = ["X-Key", "Authorization", "X-Trace"] ∧
      Emit.headersFunction op =
        "(\x7b [\"key\"]: key, [\"token\"]: token, [\"X-Trace\"]: xTrace \x7d) => (\x7b " ++
          "\"X-Key\": key, \"Authorization\": `Bearer $\x7btoken\x7d`, \"X-Trace\": xTrace \x7d)" ∧
      Emit.MakesHeaders (Emit.headersFunction op) (Emit.headersOf op) ∧
      op.headers.Nodup ∧
      ∀ name, name ∈ Assoc.keys (Emit.headersOf op) ↔
        name ∈ op.headers ∧
          ¬ (name = contentTypeHeader ∧ op.consumes = some Emit.multipart ∧
            ∀ p ∈ op.parameters, p.headerName? ≠ some contentTypeHeader) := by
  obtain ⟨t, success, facts⟩ := exists_ok_of_map
    (x := Sample.secured.operations "/photos" Sample.uploadItem)
    (f := fun t => t.value.map fun op =>
      (op.headers, Assoc.keys (Emit.headersOf op), Emit.headersFunction op))
    (b := [(["Content-Type", "Authorization", "X-Key", "X-Trace"],
      ["X-Key", "Authorization", "X-Trace"],
      "(\x7b [\"key\"]: key, [\"token\"]: token, [\"X-Trace\"]: xTrace \x7d) => (\x7b " ++
        "\"X-Key\": key, \"Authorization\": `Bearer $\x7btoken\x7d`, \"X-Trace\": xTrace \x7d)")])
    (by decide +kernel)
  obtain ⟨op, made, lists⟩ := List.map_eq_singleton_iff.mp facts
  obtain ⟨declared, rest⟩ := Prod.mk.inj lists
  obtain ⟨sent, text⟩ := Prod.mk.inj rest
  have member : op ∈ t.value := by
    rw [made]
    exact List.mem_cons_self
  obtain ⟨once, _, makes, _, agree⟩ := declared_headers_are_sent success member
  exact ⟨t, op, success, member, declared, sent, text, makes, once, agree⟩

end ApiCodec

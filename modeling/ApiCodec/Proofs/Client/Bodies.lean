import ApiCodec.Proofs.Client.Headers

set_option autoImplicit false

namespace ApiCodec

open Document

namespace Emit

/-- How the body of a request is made of its parameters. -/
inductive RequestBody
  | form (parts : List Parameter)
  | json (body : Parameter)
  | empty

namespace RequestBody

/-- The body of an operation's requests. -/
def of (op : Operation) : RequestBody :=
  let parts := op.parameters.filter isFormPart
  if !parts.isEmpty || isMultipart op then .form parts
  else
    match op.bodyParameter? with
    | some body => .json body
    | none => .empty

/-- The function that makes a body. -/
def function : RequestBody → String
  | .form parts =>
      let appends := parts.map fun p =>
        " fd.append(" ++ literal p.name ++ ", " ++ variableOf p ++ ");"
      destructured parts ++ " => \x7b const fd = new FormData();" ++ "".intercalate appends ++
        " return fd; \x7d"
  | .json body => destructured [body] ++ " => JSON.stringify(" ++ variableOf body ++ ")"
  | .empty => "() => \"\x7b\x7d\""

/-- The character that the function of a body ends in. -/
def closing : RequestBody → Char
  | .form _ => '\x7d'
  | .json _ => ')'
  | .empty => '"'

theorem getLast?_function (body : RequestBody) :
    body.function.toList.getLast? = some body.closing := by
  cases body with
  | form parts =>
      rw [function, String.toList_append, List.getLast?_append]
      rfl
  | json body =>
      rw [function, String.toList_append, List.getLast?_append]
      rfl
  | empty => rfl

/-- The text of the function tells how the body is made. -/
theorem closing_eq_of_function_eq {a b : RequestBody} (same : a.function = b.function) :
    a.closing = b.closing := by
  have last := getLast?_function a
  rw [same, getLast?_function b] at last
  exact (Option.some.inj last).symm

end RequestBody

variable {op : Operation}

theorem bodyFunction_eq (op : Operation) : bodyFunction op = (RequestBody.of op).function := by
  unfold bodyFunction RequestBody.of
  simp only
  split
  · rfl
  · cases op.bodyParameter? <;> rfl

/-- An operation asks for a form: a parameter is a part of one, or its content type is that of forms
of several parts. -/
def AsksForm (op : Operation) : Prop := (∃ p ∈ op.parameters, isFormPart p) ∨ isMultipart op

theorem asksForm_iff :
    (!(op.parameters.filter isFormPart).isEmpty || isMultipart op) = true ↔ AsksForm op := by
  rw [Bool.or_eq_true, Bool.not_eq_true', List.isEmpty_eq_false_iff_exists_mem]
  simp only [List.mem_filter]
  rfl

namespace RequestBody

theorem of_asksForm (asks : AsksForm op) : of op = .form (op.parameters.filter isFormPart) :=
  if_pos (asksForm_iff.mpr asks)

theorem of_not_asksForm (other : ¬ AsksForm op) :
    of op = (op.bodyParameter?.map .json).getD .empty := by
  unfold of
  rw [if_neg (asksForm_iff.not.mpr other)]
  cases op.bodyParameter? <;> rfl

end RequestBody

/-- A form is made exactly if the operation asks for one. -/
theorem exists_form_iff :
    (∃ parts, bodyFunction op = (RequestBody.form parts).function) ↔ AsksForm op := by
  rw [bodyFunction_eq]
  constructor
  · rintro ⟨parts, form⟩
    have closing := RequestBody.closing_eq_of_function_eq form
    by_contra other
    rw [RequestBody.of_not_asksForm other] at closing
    cases found : op.bodyParameter? <;> rw [found] at closing <;> cases closing
  · intro asks
    exact ⟨_, congrArg _ (RequestBody.of_asksForm asks)⟩

/-- A body in JSON is made exactly if there is a parameter for the body and no form is made. -/
theorem exists_json_iff :
    (∃ p, bodyFunction op = (RequestBody.json p).function) ↔
      ¬ AsksForm op ∧ op.bodyParameter?.isSome := by
  rw [bodyFunction_eq]
  constructor
  · rintro ⟨p, json⟩
    have closing := RequestBody.closing_eq_of_function_eq json
    by_cases asks : AsksForm op
    · rw [RequestBody.of_asksForm asks] at closing
      cases closing
    · rw [RequestBody.of_not_asksForm asks] at closing
      refine ⟨asks, ?_⟩
      cases found : op.bodyParameter? with
      | none =>
          rw [found] at closing
          cases closing
      | some body => rfl
  · rintro ⟨other, given⟩
    obtain ⟨body, found⟩ := Option.isSome_iff_exists.mp given
    refine ⟨body, ?_⟩
    rw [RequestBody.of_not_asksForm other, found]
    rfl

/-- The content type that the client sends, of an operation that has one to send. -/
theorem get?_contentTypeOf (declared : contentTypeHeader ∈ op.headers)
    (single : isMultipart op = false) :
    Assoc.get? contentTypeHeader (contentTypeOf op) = op.consumes.map literal := by
  unfold contentTypeOf
  rw [if_pos (by rw [Bool.and_eq_true, List.contains_iff_mem]; exact ⟨declared, by rw [single]; rfl⟩)]
  cases op.consumes <;> rfl

end Emit

namespace Operation.Announces

variable {op : Operation}

/-- A request with parameters and a body has a content type. -/
theorem content_declared (announces : op.Announces) (carries : op.method.carriesBody)
    (some : op.parameters ≠ []) :
    contentTypeHeader ∈ op.headers ∧ ∃ consumes, op.consumes = Option.some consumes := by
  refine ⟨announces.mem_headers_iff.mpr (Or.inl ⟨rfl, carries, some⟩), ?_⟩
  rw [← Option.ne_none_iff_exists']
  intro absent
  rw [announces.consumes.mp absent] at carries
  cases carries

/-- Only tokens are sent as a content type where no parameter is declared to be. -/
theorem sent_by_token_iff (undeclared : ∀ p ∈ op.parameters, p.kind ≠ .header contentTypeHeader) :
    (∃ p ∈ op.parameters, p.headerName? = some contentTypeHeader) ↔
      ∃ p ∈ op.authParameters, p.headerName? = some contentTypeHeader := by
  refine exists_congr fun p => ?_
  rw [authParameters, List.mem_filter, and_assoc]
  refine and_congr_right fun inside => (and_iff_right_of_imp fun named => ?_).symm
  unfold Parameter.headerName? at named
  unfold Parameter.isAuth
  cases kind : p.kind with
  | plain =>
      rw [kind] at named
      cases named
  | header name =>
      rw [kind] at named
      exact absurd (kind.trans (congrArg _ (Option.some.inj named))) (undeclared p inside)
  | authHeader name token scheme => rfl

end Operation.Announces

/-- How the body of a request and its content type fit together, as the two functions make them that
the client is written with, where no parameter is declared to be sent as the content type. A form
goes without a content type, as it has to, exactly if the content type of the operation is that of
forms of several parts and no token is sent in its place; with any other content type a form is sent
under it. A body in JSON is sent under the content type of the operation. -/
theorem content_type_fits_body_iff {w : Workspace} {path : String} {item : PathItem}
    {t : Traced Diagnostic (List Operation)} {op : Operation}
    (success : w.operations path item = .ok t) (member : op ∈ t.value)
    (carries : op.method.carriesBody)
    (undeclared : ∀ p ∈ op.parameters, p.kind ≠ .header contentTypeHeader) :
    Emit.MakesHeaders (Emit.headersFunction op) (Emit.headersOf op) ∧
      (∀ parts, Emit.bodyFunction op = (Emit.RequestBody.form parts).function →
        (contentTypeHeader ∉ Assoc.keys (Emit.headersOf op) ↔
          op.consumes = some Emit.multipart ∧
            ∀ p ∈ op.authParameters, p.headerName? ≠ some contentTypeHeader)) ∧
      ∀ p, Emit.bodyFunction op = (Emit.RequestBody.json p).function →
        ∃ consumes, op.consumes = some consumes ∧
          Assoc.get? contentTypeHeader (Emit.headersOf op) = some (Emit.literal consumes) := by
  have announces := Workspace.announces_of_operations success member
  refine ⟨Emit.makesHeaders_headersFunction announces.plain, ?_, ?_⟩
  · intro parts form
    have several : op.consumes = some Emit.multipart ↔ Emit.isMultipart op = true := by
      rw [Emit.isMultipart, beq_iff_eq]
    have set : contentTypeHeader ∈ Assoc.keys (Emit.contentTypeOf op) ↔
        Emit.isMultipart op = false := by
      rw [Emit.mem_keys_contentTypeOf_iff]
      refine ⟨fun sent => sent.2.2.1, fun single => ?_⟩
      rcases Emit.exists_form_iff.mp ⟨parts, form⟩ with ⟨p, inside, _⟩ | multipart
      · obtain ⟨declared, consumes, given⟩ :=
          announces.content_declared carries (List.ne_nil_of_mem inside)
        exact ⟨rfl, declared, single, by rw [given]; exact Option.some_ne_none _⟩
      · rw [single] at multipart
        cases multipart
    rw [Emit.mem_keys_headersOf_iff, set, Operation.Announces.sent_by_token_iff undeclared, several,
      not_or, Bool.not_eq_false, not_exists]
    simp only [not_and]
  · intro p json
    obtain ⟨other, found⟩ := Emit.exists_json_iff.mp ⟨p, json⟩
    obtain ⟨body, found⟩ := Option.isSome_iff_exists.mp found
    have single : Emit.isMultipart op = false := by simpa using (not_or.mp other).2
    obtain ⟨declared, consumes, given⟩ := announces.content_declared carries
      (List.ne_nil_of_mem (List.mem_of_find?_eq_some found))
    refine ⟨consumes, given, ?_⟩
    rw [Emit.headersOf, Emit.get?_foldl_addHeader, Assoc.get?_append,
      Emit.get?_contentTypeOf declared single, given]
    rfl

namespace Sample

/-- A path to which a photo is posted, as a form or with a note in the place of the form. -/
def photoItem (consumes : List Json) (parameter : Json) : PathItem :=
  { summary := none, description := none, servers := none, path? := none, parameters := []
    entries :=
      [("post", .obj
        [("operationId", .str "addPhoto"), ("consumes", .arr consumes),
         ("parameters", .arr [parameter]), ("responses", .obj [])])] }

def photoPart : Json :=
  .obj [("name", .str "photo"), ("in", .str "formData"), ("type", .str "file")]

def noteBody : Json :=
  .obj [("name", .str "note"), ("in", .str "body"), ("schema", .obj [("type", .str "string")])]

theorem undeclared_of_single {op : Operation} {p : Parameter} (single : op.parameters = [p])
    (kind : p.kind = .plain) : ∀ p ∈ op.parameters, p.kind ≠ .header contentTypeHeader := by
  rw [single, List.forall_mem_singleton, kind]
  exact ParameterKind.noConfusion

/-- What a request sends of its parameters, and under which content type. -/
structure Sending where
  method : HttpMethod
  /-- How each parameter is sent, and whether as a part of a form. -/
  parameters : List (ParameterKind × Bool)
  consumes : Option String
  hasBody : Bool
  deriving DecidableEq

def Sending.of (op : Operation) : Sending :=
  { method := op.method
    parameters := op.parameters.map fun p => (p.kind, Emit.isFormPart p)
    consumes := op.consumes
    hasBody := op.bodyParameter?.isSome }

/-- What is sent of three posts, and under which headers. -/
theorem sendings :
    ((posts.operations "/photos" (photoItem [.str "multipart/form-data"] photoPart)).toOption.map
        fun t => t.value.map fun op => (Sending.of op, Emit.headersFunction op)) =
      some [(⟨.post, [(.plain, true)], some "multipart/form-data", false⟩, "() => (\x7b\x7d)")] ∧
    ((posts.operations "/photos" (photoItem [.str "text/json"] noteBody)).toOption.map
        fun t => t.value.map fun op => (Sending.of op, Emit.headersFunction op)) =
      some [(⟨.post, [(.plain, false)], some "text/json", true⟩,
        "() => (\x7b \"Content-Type\": \"text/json\" \x7d)")] ∧
    ((posts.operations "/photos" (photoItem [] photoPart)).toOption.map
        fun t => t.value.map fun op =>
          (Sending.of op, Emit.headersFunction op, Emit.headersOf op)) =
      some [(⟨.post, [(.plain, true)], some "application/json", false⟩,
        "() => (\x7b \"Content-Type\": \"application/json\" \x7d)",
        [("Content-Type", "\"application/json\"")])] := by
  decide +kernel

end Sample

/-- A form that is declared as one goes without a content type; a note goes under its own. -/
theorem content_type_fits_body_posted :
    (∃ t op,
      Sample.posts.operations "/photos"
        (Sample.photoItem [.str "multipart/form-data"] Sample.photoPart) = .ok t ∧ op ∈ t.value ∧
      (∃ parts, Emit.bodyFunction op = (Emit.RequestBody.form parts).function) ∧
      Emit.headersFunction op = "() => (\x7b\x7d)" ∧
      Emit.MakesHeaders (Emit.headersFunction op) (Emit.headersOf op) ∧
      contentTypeHeader ∉ Assoc.keys (Emit.headersOf op)) ∧
    ∃ t op,
      Sample.posts.operations "/photos" (Sample.photoItem [.str "text/json"] Sample.noteBody) =
        .ok t ∧ op ∈ t.value ∧
      (∃ p, Emit.bodyFunction op = (Emit.RequestBody.json p).function) ∧
      Emit.headersFunction op = "() => (\x7b \"Content-Type\": \"text/json\" \x7d)" ∧
      Emit.MakesHeaders (Emit.headersFunction op) (Emit.headersOf op) ∧
      Assoc.get? contentTypeHeader (Emit.headersOf op) = some (Emit.literal "text/json") := by
  constructor
  · obtain ⟨t, success, facts⟩ := exists_ok_of_map Sample.sendings.1
    obtain ⟨op, made, sends⟩ := List.map_eq_singleton_iff.mp facts
    simp only [Sample.Sending.of, Sample.Sending.mk.injEq, List.map_eq_singleton_iff,
      Prod.mk.injEq] at sends
    obtain ⟨⟨method, ⟨p, single, kind, _⟩, consumes, _⟩, text⟩ := sends
    have member : op ∈ t.value := by
      rw [made]
      exact List.mem_cons_self
    have undeclared := Sample.undeclared_of_single single kind
    have asks : Emit.AsksForm op := Or.inr (by rw [Emit.isMultipart, consumes]; rfl)
    obtain ⟨parts, form⟩ := Emit.exists_form_iff.mpr asks
    obtain ⟨makes, fits, _⟩ :=
      content_type_fits_body_iff success member (by rw [method]; rfl) undeclared
    refine ⟨t, op, success, member, ⟨parts, form⟩, text, makes,
      (fits parts form).mpr ⟨consumes, fun q token => ?_⟩⟩
    rw [Operation.authParameters, single, List.filter_cons_of_neg (by simp [Parameter.isAuth, kind])]
      at token
    cases token
  · obtain ⟨t, success, facts⟩ := exists_ok_of_map Sample.sendings.2.1
    obtain ⟨op, made, sends⟩ := List.map_eq_singleton_iff.mp facts
    simp only [Sample.Sending.of, Sample.Sending.mk.injEq, List.map_eq_singleton_iff,
      Prod.mk.injEq] at sends
    obtain ⟨⟨method, ⟨p, single, kind, noPart⟩, consumes, given⟩, text⟩ := sends
    have member : op ∈ t.value := by
      rw [made]
      exact List.mem_cons_self
    have undeclared := Sample.undeclared_of_single single kind
    have other : ¬ Emit.AsksForm op := by
      rintro (⟨q, inside, part⟩ | several)
      · rw [single, List.mem_singleton] at inside
        rw [inside, noPart] at part
        cases part
      · rw [Emit.isMultipart, consumes] at several
        cases several
    obtain ⟨body, json⟩ := Emit.exists_json_iff.mpr ⟨other, given⟩
    obtain ⟨makes, _, fits⟩ :=
      content_type_fits_body_iff success member (by rw [method]; rfl) undeclared
    obtain ⟨_, declared, sent⟩ := fits body json
    rw [consumes] at declared
    cases declared
    exact ⟨t, op, success, member, ⟨body, json⟩, text, makes, sent⟩

/-- A form whose operation declares no content type is sent under that of JSON. -/
theorem form_sent_as_json :
    ∃ t op, Sample.posts.operations "/photos" (Sample.photoItem [] Sample.photoPart) = .ok t ∧
      op ∈ t.value ∧ op.method.carriesBody ∧
      (∀ p ∈ op.parameters, p.kind ≠ .header contentTypeHeader) ∧
      (∃ parts, Emit.bodyFunction op = (Emit.RequestBody.form parts).function) ∧
      Emit.headersFunction op = "() => (\x7b \"Content-Type\": \"application/json\" \x7d)" ∧
      Assoc.get? contentTypeHeader (Emit.headersOf op) =
        some (Emit.literal "application/json") := by
  obtain ⟨t, success, facts⟩ := exists_ok_of_map Sample.sendings.2.2
  obtain ⟨op, made, sends⟩ := List.map_eq_singleton_iff.mp facts
  simp only [Sample.Sending.of, Sample.Sending.mk.injEq, List.map_eq_singleton_iff,
    Prod.mk.injEq] at sends
  obtain ⟨⟨method, ⟨p, single, kind, part⟩, _⟩, text, headers⟩ := sends
  refine ⟨t, op, success, by rw [made]; exact List.mem_cons_self, by rw [method]; rfl, ?_, ?_, text,
    ?_⟩
  · exact Sample.undeclared_of_single single kind
  · exact Emit.exists_form_iff.mpr (Or.inl ⟨p, by rw [single]; exact List.mem_cons_self, part⟩)
  · rw [headers]
    rfl

end ApiCodec

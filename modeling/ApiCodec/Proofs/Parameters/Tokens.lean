import ApiCodec.Proofs.Parameters.Overriding

set_option autoImplicit false

namespace ApiCodec

open Document

/-- The word before a token has no tick in it. -/
def Parameter.HasPlainWord (p : Parameter) : Prop :=
  ∀ name token word, p.kind = .authHeader name token (some word) → '\x60' ∉ word.toList

namespace AuthHeaders

variable {schemes : List (String × SecurityScheme)} {taken : List String}

theorem hasPlainWord_of_ofName {name : String} {p : Parameter}
    (success : ofName schemes name = .ok p) : p.HasPlainWord := by
  obtain ⟨_, _, scheme, made⟩ := exists_ofScheme_of_ofName success
  obtain ⟨_, _, _, kind, words⟩ := exists_authHeader_of_ofScheme made
  intro name token word given
  obtain ⟨_, _, rfl⟩ := ParameterKind.authHeader.inj (kind.symm.trans given)
  rcases words with absent | bearer | basic
  · cases absent
  · rw [Option.some.inj bearer]
    decide
  · rw [Option.some.inj basic]
    decide

theorem hasPlainWord_of_mem_collect {requirements : List SecurityRequirement} :
    ∀ p ∈ (collect schemes taken requirements).1, p.HasPlainWord :=
  forall_mem_collect hasPlainWord_of_ofName

def untaken (taken : List String) (parameters : List Parameter) : List Parameter :=
  parameters.filter fun p => !taken.contains p.name

theorem untaken_cons (p : Parameter) (parameters : List Parameter) :
    untaken taken (p :: parameters) =
      if taken.contains p.name then untaken taken parameters
      else p :: untaken taken parameters := by
  unfold untaken
  rw [List.filter_cons]
  cases taken.contains p.name <;> rfl

theorem untaken_untaken (first second : List String) (parameters : List Parameter) :
    untaken first (untaken second parameters) = untaken (second ++ first) parameters := by
  unfold untaken
  rw [List.filter_filter]
  congr 1
  funext p
  rw [List.contains_append, Bool.not_or, Bool.and_comm]

/-- Only which names are taken counts. -/
theorem untaken_congr {first second : List String} (same : ∀ name, name ∈ first ↔ name ∈ second)
    (parameters : List Parameter) : untaken first parameters = untaken second parameters := by
  unfold untaken
  congr 1
  funext p
  simp only [List.contains_eq_mem, same]

/-- What a requirement with a first scheme adds. -/
theorem collect_cons (name : String) (scopes : List String) (others : SecurityRequirement)
    (rest : List SecurityRequirement) :
    (collect schemes taken (((name, scopes) :: others) :: rest)).1 =
      if taken.contains name then (collect schemes taken rest).1
      else
        match ofName schemes name with
        | .ok p => p :: (collect schemes (name :: taken) rest).1
        | .error _ => (collect schemes taken rest).1 := by
  rw [collect]
  simp only
  split
  · rfl
  · cases ofName schemes name <;> rfl

/-- Schemes that are taken are left out, and nothing else. -/
theorem collect_eq_untaken (taken : List String) (requirements : List SecurityRequirement) :
    (collect schemes taken requirements).1 =
      untaken taken (collect schemes [] requirements).1 := by
  induction requirements generalizing taken with
  | nil => rfl
  | cons requirement rest ih =>
      rcases requirement with _ | ⟨⟨name, scopes⟩, others⟩
      · exact ih taken
      · rw [collect_cons, collect_cons, List.contains_nil, if_neg Bool.false_ne_true]
        cases made : ofName schemes name with
        | error notice =>
            simp only
            rw [ite_self]
            exact ih taken
        | ok p =>
            have named := (exists_ofScheme_of_ofName made).1
            simp only
            rw [ih taken, ih [name], ih (name :: taken)]
            rw [untaken_cons, named, untaken_untaken, List.singleton_append]
            split
            · rename_i known
              have known : name ∈ taken := by simpa using known
              refine untaken_congr (fun other => ?_) _
              rw [List.mem_cons]
              exact ⟨Or.inr, fun either => either.elim (· ▸ known) id⟩
            · rfl

/-- The names of tokens are different, and not taken. -/
theorem nodup_collect (requirements : List SecurityRequirement) :
    ((collect schemes [] requirements).1.map (·.name)).Nodup := by
  induction requirements with
  | nil => exact List.nodup_nil
  | cons requirement rest ih =>
      rcases requirement with _ | ⟨⟨name, scopes⟩, others⟩
      · exact ih
      · rw [collect_cons, List.contains_nil, if_neg Bool.false_ne_true]
        cases made : ofName schemes name with
        | error notice => exact ih
        | ok p =>
            have named := (exists_ofScheme_of_ofName made).1
            simp only
            rw [collect_eq_untaken, List.map_cons, List.nodup_cons, named]
            refine ⟨fun again => ?_, ih.sublist (List.filter_sublist.map _)⟩
            obtain ⟨q, member, same⟩ := List.mem_map.mp again
            have fresh := (List.mem_filter.mp member).2
            simp [same] at fresh

/-- Requirements that follow others add the schemes that those do not. -/
theorem collect_append (first second : List SecurityRequirement) :
    (collect schemes taken (first ++ second)).1 =
      (collect schemes taken first).1 ++
        untaken (taken ++ (collect schemes taken first).1.map (·.name))
          (collect schemes [] second).1 := by
  induction first generalizing taken with
  | nil => simpa [collect] using collect_eq_untaken taken second
  | cons requirement rest ih =>
      rcases requirement with _ | ⟨⟨name, scopes⟩, others⟩
      · exact ih
      · rw [List.cons_append, collect_cons, collect_cons]
        split
        · exact ih
        · cases made : ofName schemes name with
          | error notice => exact ih
          | ok p =>
              have named := (exists_ofScheme_of_ofName made).1
              simp only
              rw [ih, List.cons_append, List.map_cons, named]
              congr 2
              refine untaken_congr (fun other => ?_) _
              simp only [List.mem_cons, List.mem_append]
              exact or_left_comm

end AuthHeaders

/-- Requirements that follow others add the tokens whose names those have not. -/
theorem authHeaders_append (schemes : List (String × SecurityScheme))
    (first second : List SecurityRequirement) :
    (authHeaders schemes (first ++ second)).1 =
      (authHeaders schemes first).1 ++
        (authHeaders schemes second).1.filter fun p =>
          !(authHeaders schemes first).1.any (·.name == p.name) := by
  unfold authHeaders
  rw [AuthHeaders.collect_append, List.nil_append, AuthHeaders.untaken]
  congr 2
  funext p
  rw [List.contains_map]
  congr 2
  funext q
  exact Bool.beq_comm

namespace Workspace

variable {w : Workspace}

/-- The tokens of an operation are those that all operations need, then its own. -/
theorem authParameters_of_operation {method : HttpMethod} {path id : String}
    {declared : Document.Operation} {shared auth : List Parameter} {u : Traced Notice Operation}
    (plain : ∀ p ∈ shared, p.isAuth = false) (tokens : ∀ p ∈ auth, p.isAuth)
    (success : w.operation method path id declared shared auth = .ok u) :
    u.value.authParameters = auth ++ w.ownAuth declared auth := by
  obtain ⟨own, body, ownFound, bodyFound, _, _, parameters⟩ := parameters_of_operation success
  have kept : (keptParameters shared (ownParameters own body)).filter (·.isAuth) = [] := by
    rw [List.filter_eq_nil_iff]
    intro p member
    simp [plain p (mem_keptParameters_iff.mp member).1]
  have mine : (ownParameters own body).filter (·.isAuth) = [] := by
    rw [List.filter_eq_nil_iff]
    intro p member
    rcases List.mem_append.mp (perm_ownParameters.mem_iff.mp member) with member | member
    · simp [isAuth_of_parameters ownFound p member]
    · simp [(location_of_requestBody bodyFound p member).2]
  have all : ∀ p ∈ auth ++ w.ownAuth declared auth, p.isAuth :=
    List.forall_mem_append.mpr ⟨tokens, fun p member => (isAuth_ownAuth p member).1⟩
  rw [Operation.authParameters, parameters, List.filter_append, List.filter_append, kept, mine,
    List.filter_eq_self.mpr all, List.nil_append, List.append_nil]

end Workspace

/-- Requirements compose: those that follow others add the tokens whose names are not there yet, so
no two tokens have one name. The tokens of an operation are those of the requirements of the
document followed by its own; each scheme is added once, and those of the document come first. -/
theorem auth_headers_compose :
    (∀ schemes first second,
      (authHeaders schemes (first ++ second)).1 =
        (authHeaders schemes first).1 ++
          (authHeaders schemes second).1.filter fun p =>
            !(authHeaders schemes first).1.any (·.name == p.name)) ∧
      (∀ schemes requirements, ((authHeaders schemes requirements).1.map (·.name)).Nodup) ∧
      ∀ (w : Workspace) path item t, w.operations path item = .ok t →
        ∃ declared, item.operations = .ok declared ∧
          List.Forall₂
            (fun entry op =>
              op.authParameters = (authHeaders w.catalog.schemes
                (w.catalog.security ++ entry.2.security.getD [])).1 ∧
              (op.authParameters.map (·.name)).Nodup ∧
              (authHeaders w.catalog.schemes w.catalog.security).1 <+: op.authParameters)
            (declared.filter Workspace.isKept) t.value := by
  refine ⟨authHeaders_append, fun schemes => AuthHeaders.nodup_collect, ?_⟩
  intro w path item t success
  obtain ⟨common, declared, found, shared, read, each, values, _⟩ :=
    Workspace.comes_of_operations success
  refine ⟨declared, read, ?_⟩
  obtain ⟨a, sharedFound, common_eq, _⟩ := Workspace.eq_of_sharedParameters shared
  have plain : ∀ p ∈ a.value, p.isAuth = false :=
    Workspace.isAuth_of_parameters (by rw [sharedFound]; rfl)
  rw [values]
  refine (Workspace.kept_of_comes each).imp ?_
  rintro entry _ ⟨method, id, u, _, _, built, rfl⟩
  rw [common_eq] at built
  have tokens : u.value.authParameters = (authHeaders w.catalog.schemes
      (w.catalog.security ++ entry.2.security.getD [])).1 := by
    rw [Workspace.authParameters_of_operation plain
      (fun p member => (AuthHeaders.isAuth_of_mem_collect p member).1) built, authHeaders_append]
    rfl
  refine ⟨tokens, ?_, ?_⟩
  · rw [tokens]
    exact AuthHeaders.nodup_collect _
  · rw [tokens, authHeaders_append]
    exact List.prefix_append _ _

namespace Sample

/-- A scheme whose key is sent in some place, or an authorization of the second kind. -/
def scheme (type : SchemeType) (location : Option KeyLocation) : SecurityScheme :=
  { type, location, name := some "X-Key", description := none, scheme := none, bearerFormat := none
    flow := none, flows := none, openIdConnectUrl := none, authScheme := none }

/-- A document that requires a key, beside a scheme that no header carries. -/
def secured : Workspace :=
  .ofDocument
    (.swagger
      { version := "2.0", info := .empty, host := none, basePath := none, schemes := []
        consumes := [], produces := [], paths := [], definitions := [], parameters := []
        responses := [], tags := []
        securityDefinitions :=
          [("key", scheme .apiKey (some .header)), ("session", scheme .apiKey (some .cookie)),
           ("token", scheme .oauth2 none)]
        security := [[("key", [])]] })
    []

/-- An operation with requirements of its own: one that is skipped, one of two schemes, one that the
document has, and none at all. -/
def securedItem : PathItem :=
  { summary := none, description := none, servers := none, path? := none, parameters := []
    entries :=
      [("get", .obj
        [("operationId", .str "listPets"),
         ("security", .arr
           [.obj [("session", .arr [])], .obj [("token", .arr []), ("key", .arr [])],
            .obj [("key", .arr [])], .obj []])])] }

end Sample

/-- An operation whose own requirements add one token to that of the document. -/
theorem auth_headers_compose_secured :
    ∃ t declared, Sample.secured.operations "/pets" Sample.securedItem = .ok t ∧
      (t.value.map fun op => op.authParameters.map (·.name)) = [["key", "token"]] ∧
      Sample.securedItem.operations = .ok declared ∧
      List.Forall₂
        (fun entry op => op.authParameters = (authHeaders Sample.secured.catalog.schemes
          (Sample.secured.catalog.security ++ entry.2.security.getD [])).1)
        (declared.filter Workspace.isKept) t.value := by
  obtain ⟨t, success, names⟩ := exists_ok_of_map
    (x := Sample.secured.operations "/pets" Sample.securedItem)
    (f := fun t => t.value.map fun op => op.authParameters.map (·.name))
    (b := [["key", "token"]]) (by decide +kernel)
  obtain ⟨_, _, composed⟩ := auth_headers_compose
  obtain ⟨declared, read, each⟩ := composed Sample.secured "/pets" Sample.securedItem t success
  exact ⟨t, declared, success, names, read, each.imp fun _ _ facts => facts.1⟩

end ApiCodec

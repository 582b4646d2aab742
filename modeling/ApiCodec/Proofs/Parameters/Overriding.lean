import ApiCodec.Proofs.Dialect.Operations
import ApiCodec.Proofs.Flatten.Run
import ApiCodec.Proofs.Parameters.Entries

set_option autoImplicit false

namespace ApiCodec

open Document

namespace AuthHeaders

variable {schemes : List (String × SecurityScheme)}

/-- A token comes as it is, or behind one of two words. -/
theorem exists_authHeader_of_ofScheme {scheme : SecurityScheme} {kind : ParameterKind}
    (success : ofScheme scheme = .ok kind) :
    ∃ header token word, kind = .authHeader header token word ∧
      (word = none ∨ word = some "Bearer" ∨ word = some "Basic") := by
  unfold ofScheme at success
  split at success
  · unfold ofApiKey at success
    split at success
    · cases success
    · split at success
      · exact ⟨_, _, _, (Except.ok.inj success).symm, Or.inr (Or.inl rfl)⟩
      · split at success
        · exact ⟨_, _, _, (Except.ok.inj success).symm, Or.inl rfl⟩
        · cases success
  · exact ⟨_, _, _, (Except.ok.inj success).symm, Or.inr (Or.inr rfl)⟩
  · split at success
    · exact ⟨_, _, _, (Except.ok.inj success).symm, Or.inr (Or.inl rfl)⟩
    · exact ⟨_, _, _, (Except.ok.inj success).symm, Or.inr (Or.inr rfl)⟩
    · cases success
  · exact ⟨_, _, _, (Except.ok.inj success).symm, Or.inr (Or.inl rfl)⟩
  · exact ⟨_, _, _, (Except.ok.inj success).symm, Or.inr (Or.inl rfl)⟩
  · cases success

theorem exists_ofScheme_of_ofName {name : String} {p : Parameter}
    (success : ofName schemes name = .ok p) :
    p.name = name ∧ p.location = .header ∧ ∃ scheme, ofScheme scheme = .ok p.kind := by
  unfold ofName at success
  split at success
  · cases success
  · split at success
    · rename_i made
      cases Except.ok.inj success
      exact ⟨rfl, rfl, _, made⟩
    · cases success

theorem isAuth_of_ofName {name : String} {p : Parameter} (success : ofName schemes name = .ok p) :
    p.isAuth ∧ p.location = .header := by
  obtain ⟨_, location, scheme, made⟩ := exists_ofScheme_of_ofName success
  obtain ⟨_, _, _, kind, _⟩ := exists_authHeader_of_ofScheme made
  exact ⟨by rw [Parameter.isAuth, kind], location⟩

/-- What is collected for requirements has all that is made for a scheme. -/
theorem forall_mem_collect {P : Parameter → Prop}
    (each : ∀ {name : String} {p : Parameter}, ofName schemes name = .ok p → P p)
    {taken : List String} {requirements : List SecurityRequirement} :
    ∀ p ∈ (collect schemes taken requirements).1, P p := by
  induction requirements generalizing taken with
  | nil => exact fun p member => nomatch member
  | cons requirement rest ih =>
      cases requirement with
      | nil => exact ih
      | cons first others =>
          unfold collect
          simp only
          split
          · exact ih
          · split
            · rename_i made
              exact List.forall_mem_cons.mpr ⟨each made, ih⟩
            · exact ih

theorem isAuth_of_mem_collect {taken : List String} {requirements : List SecurityRequirement} :
    ∀ p ∈ (collect schemes taken requirements).1, p.isAuth ∧ p.location = .header :=
  forall_mem_collect isAuth_of_ofName

end AuthHeaders

namespace Workspace

variable {w : Workspace}

theorem isAuth_ownAuth {op : Document.Operation} {auth : List Parameter} :
    ∀ p ∈ w.ownAuth op auth, p.isAuth ∧ p.location = .header :=
  fun p member => AuthHeaders.isAuth_of_mem_collect p (List.mem_filter.mp member).1

/-- Declared parameters carry no tokens. -/
theorem isAuth_of_parameters {subject : String} {nodes : List ParameterNode}
    {found : List Parameter} (success : (w.parameters subject nodes).outcome = some found) :
    ∀ p ∈ found, p.isAuth = false := by
  induction nodes generalizing found with
  | nil =>
      cases Option.some.inj success
      exact fun p member => nomatch member
  | cons node rest ih =>
      rw [outcome_parameters_cons] at success
      obtain ⟨first, own, more⟩ := Option.bind_eq_some_iff.mp success
      obtain ⟨others, later, rfl⟩ := Option.map_eq_some_iff.mp more
      refine List.forall_mem_append.mpr ⟨?_, ih later⟩
      obtain ⟨target, _, typed⟩ := Option.bind_eq_some_iff.mp own
      cases target with
      | none =>
          cases Option.some.inj typed
          exact fun p member => nomatch member
      | some target =>
          obtain ⟨p, made, rfl⟩ := Option.map_eq_some_iff.mp typed
          obtain ⟨type, rfl⟩ := exists_ofDeclared_of_typedParameter made
          rw [List.forall_mem_singleton, ofDeclared, Parameter.isAuth]
          by_cases header : target.1.location = .header <;> simp [header]

/-- A request body is at most one parameter. -/
theorem eq_of_requestBody {op : Document.Operation} {body : List Parameter}
    (success : (w.requestBody op).outcome = some body) :
    body = [] ∨ ∃ required type, body = [bodyParameter required type] := by
  unfold requestBody at success
  split at success
  · exact Or.inl (Option.some.inj success).symm
  · exact Or.inl (Option.some.inj success).symm
  · split at success
    · exact Or.inl (Option.some.inj success).symm
    · split at success
      · exact Or.inr ⟨_, _, (Option.some.inj success).symm⟩
      · split at success
        · rw [Transform.outcome_bind] at success
          obtain ⟨type, _, made⟩ := Option.bind_eq_some_iff.mp success
          exact Or.inr ⟨_, type, (Option.some.inj made).symm⟩
        · exact Or.inl (Option.some.inj success).symm

/-- What an operation of a path item is made of: the parameters that its path declares, those that
it declares itself, and its request body as a parameter. -/
structure Declares (w : Workspace) (path : String) (item : PathItem) (op : Operation)
    (shared own body : List Parameter) : Prop where
  shared : (w.parameters path item.parameters).outcome = some shared
  entry : ∃ declared, item.operations = .ok declared ∧ ∃ entry ∈ declared,
    HttpMethod.ofName? entry.1 = some op.method ∧ entry.2.operationId = some op.id ∧
    (w.parameters op.id entry.2.parameters).outcome = some own ∧
    (w.requestBody entry.2).outcome = some body

def ownParameters (own body : List Parameter) : List Parameter :=
  own.filter (·.location != .body) ++ own.filter (·.location == .body) ++ body

/-- The parameters of a path that an operation keeps: those for which it has none of its own, and
all bodies. -/
def keptParameters (shared mine : List Parameter) : List Parameter :=
  shared.filter fun p => p.location == .body || !mine.any (sameParameter · p)

section

variable {shared own body : List Parameter}

theorem location_eq_of_same {p q : Parameter} (same : sameParameter q p) :
    q.location = p.location := by
  rw [sameParameter, Bool.and_eq_true] at same
  exact eq_of_beq same.2

/-- The bodies among an operation's own parameters play no part in what it keeps. -/
theorem keptParameters_eq (bodies : ∀ q ∈ body, q.location = .body) :
    keptParameters shared (ownParameters own body) =
      shared.filter fun p => !(own.filter (·.location != .body)).any (sameParameter · p) := by
  refine List.filter_congr fun p _ => ?_
  by_cases isBody : p.location = .body
  · have none : (own.filter (·.location != .body)).any (sameParameter · p) = false := by
      rw [List.any_eq_false]
      intro q member same
      have other := (List.mem_filter.mp member).2
      rw [location_eq_of_same same, isBody] at other
      cases other
    rw [none, isBody]
    rfl
  · have none : ∀ list : List Parameter, (∀ q ∈ list, q.location = .body) →
        list.any (sameParameter · p) = false := by
      intro list each
      rw [List.any_eq_false]
      intro q member same
      exact isBody ((location_eq_of_same same).symm.trans (each q member))
    have ownBodies := none (own.filter (·.location == .body)) fun q member => by
      simpa using (List.mem_filter.mp member).2
    rw [beq_eq_false_iff_ne.mpr isBody, Bool.false_or, ownParameters, List.any_append,
      List.any_append, ownBodies, none body bodies, Bool.or_false, Bool.or_false]

end

theorem location_of_requestBody {op : Document.Operation} {body : List Parameter}
    (success : (w.requestBody op).outcome = some body) :
    ∀ p ∈ body, p.location = .body ∧ p.isAuth = false := by
  rcases eq_of_requestBody success with rfl | ⟨required, type, rfl⟩
  · exact fun p member => nomatch member
  · exact List.forall_mem_singleton.mpr ⟨rfl, rfl⟩

theorem parameters_of_operation {method : HttpMethod} {path id : String}
    {declared : Document.Operation} {shared auth : List Parameter} {u : Traced Notice Operation}
    (success : w.operation method path id declared shared auth = .ok u) :
    ∃ own body, (w.parameters id declared.parameters).outcome = some own ∧
      (w.requestBody declared).outcome = some body ∧ u.value.method = method ∧ u.value.id = id ∧
      u.value.parameters = keptParameters shared (ownParameters own body) ++
        (auth ++ w.ownAuth declared auth) ++ ownParameters own body := by
  have interface := outcome_operation w method path id declared shared auth
  rw [success, Transform.outcome, Option.map_some] at interface
  obtain ⟨own, ownFound, rest⟩ := Option.bind_eq_some_iff.mp interface.symm
  obtain ⟨body, bodyFound, rest⟩ := Option.bind_eq_some_iff.mp rest
  obtain ⟨responses, _, same⟩ := Option.map_eq_some_iff.mp rest
  refine ⟨own, body, ownFound, bodyFound, (congrArg Operation.Interface.method same).symm,
    (congrArg Operation.Interface.id same).symm, ?_⟩
  have parameters := congrArg Operation.Interface.parameters same
  rw [keptParameters_eq fun q member => (location_of_requestBody bodyFound q member).1]
  rw [show u.value.parameters = u.value.interface.parameters from rfl, ← parameters]
  simp only [interfaceOf, apart, ownParameters, List.append_assoc]

theorem exists_declares_of_operations {path : String} {item : PathItem}
    {t : Traced Diagnostic (List Operation)} (success : w.operations path item = .ok t)
    {op : Operation} (member : op ∈ t.value) :
    ∃ shared own body tokens, w.Declares path item op shared own body ∧
      (∀ p ∈ tokens, p.isAuth ∧ p.location = .header) ∧
      op.parameters = keptParameters shared (ownParameters own body) ++ tokens ++
        ownParameters own body := by
  obtain ⟨common, declared, found, read, entry, inside, method, id, u, supported, identified, built,
    rfl⟩ := exists_operation_of_operations success member
  obtain ⟨own, body, ownFound, bodyFound, rfl, rfl, parameters⟩ := parameters_of_operation built
  obtain ⟨a, shared, common_eq, _⟩ := eq_of_sharedParameters found
  rw [common_eq] at parameters
  refine ⟨a.value, own, body, _,
    ⟨?_, declared, read, entry, inside, supported, identified, ownFound, bodyFound⟩, ?_, parameters⟩
  · rw [shared]
    rfl
  · exact List.forall_mem_append.mpr ⟨AuthHeaders.isAuth_of_mem_collect, isAuth_ownAuth⟩

/-- Two parameters stand for different values of a request. -/
def Differ (p q : Parameter) : Prop := ¬ sameParameter p q

theorem Differ.symm {p q : Parameter} (differ : Differ p q) : Differ q p := by
  unfold Differ sameParameter at *
  simp only [Bool.and_eq_true, beq_iff_eq, not_and] at *
  exact fun name location => differ name.symm location.symm

/-- No body of a path has the name of a body that the operation has of its own. -/
def BodiesApart (shared mine : List Parameter) : Prop :=
  ∀ p ∈ shared, p.location = .body → ∀ q ∈ mine, Differ q p

section

variable {shared own body mine : List Parameter}

theorem mem_keptParameters_iff {p : Parameter} :
    p ∈ keptParameters shared mine ↔
      p ∈ shared ∧ (p.location = .body ∨ ∀ q ∈ mine, Differ q p) := by
  rw [keptParameters, List.mem_filter, Bool.or_eq_true, beq_iff_eq, Bool.not_eq_true',
    List.any_eq_false]
  rfl

/-- What the path and the operation have in common is overridden, bodies apart. -/
theorem overridden_iff_bodiesApart :
    (∀ p ∈ shared, p ∈ keptParameters shared mine ↔ ∀ q ∈ mine, Differ q p) ↔
      BodiesApart shared mine := by
  constructor
  · intro overridden p member isBody
    exact (overridden p member).mp (mem_keptParameters_iff.mpr ⟨member, Or.inl isBody⟩)
  · intro apart p member
    rw [mem_keptParameters_iff]
    constructor
    · rintro ⟨_, isBody | different⟩
      · exact apart p member isBody
      · exact different
    · exact fun different => ⟨member, Or.inr different⟩

theorem keptParameters_differ_iff :
    (∀ p ∈ keptParameters shared mine, ∀ q ∈ mine, Differ p q) ↔ BodiesApart shared mine := by
  rw [← overridden_iff_bodiesApart]
  constructor
  · intro differ p member
    exact ⟨fun kept q own => (differ p kept q own).symm,
      fun different => mem_keptParameters_iff.mpr ⟨member, Or.inr different⟩⟩
  · intro overridden p kept q own
    exact ((overridden p (mem_keptParameters_iff.mp kept).1).mp kept q own).symm

theorem perm_ownParameters : (ownParameters own body).Perm (own ++ body) := by
  unfold ownParameters
  refine List.Perm.append_right body ?_
  have apart := List.filter_append_perm (fun p : Parameter => p.location != .body) own
  simpa [bne] using apart

/-- Where no list repeats a parameter, those that are kept and those of the operation itself are
different if bodies are apart. -/
theorem pairwise_differ_iff (once : shared.Pairwise Differ) (ownOnce : own.Pairwise Differ)
    (single : body.length ≤ 1) :
    (keptParameters shared (ownParameters own body) ++ ownParameters own body).Pairwise Differ ↔
      BodiesApart shared (ownParameters own body) ∧ ∀ p ∈ own, ∀ q ∈ body, Differ p q := by
  have kept : (keptParameters shared (ownParameters own body)).Pairwise Differ :=
    once.sublist List.filter_sublist
  have bodyOnce : body.Pairwise Differ := by
    rcases body with _ | ⟨q, _ | ⟨r, rest⟩⟩
    · exact List.Pairwise.nil
    · exact List.pairwise_singleton _ _
    · simp at single
  have mine : (ownParameters own body).Pairwise Differ ↔ ∀ p ∈ own, ∀ q ∈ body, Differ p q := by
    rw [perm_ownParameters.pairwise_iff Differ.symm, List.pairwise_append]
    exact ⟨fun all => all.2.2, fun cross => ⟨ownOnce, bodyOnce, cross⟩⟩
  rw [List.pairwise_append, mine, keptParameters_differ_iff]
  exact ⟨fun all => ⟨all.2.2, all.2.1⟩, fun all => ⟨kept, all.2, all.1⟩⟩

/-- All bodies of the path are kept. -/
theorem find?_keptParameters :
    (keptParameters shared mine).find? (·.location == .body) =
      shared.find? (·.location == .body) := by
  unfold keptParameters
  rw [List.find?_filter]
  congr 1
  funext p
  cases p.location == .body <;> simp

end

/-- Besides tokens, the parameters are those that are kept and those of the operation itself. -/
theorem filter_isAuth_of_declares {path : String} {item : PathItem} {op : Operation}
    {shared own body tokens : List Parameter} (declares : w.Declares path item op shared own body)
    (carry : ∀ p ∈ tokens, p.isAuth ∧ p.location = .header) :
    (keptParameters shared (ownParameters own body) ++ tokens ++ ownParameters own body).filter
        (!·.isAuth) =
      keptParameters shared (ownParameters own body) ++ ownParameters own body := by
  obtain ⟨_, _, entry, _, _, _, ownFound, bodyFound⟩ := declares.entry
  have kept : ∀ p ∈ keptParameters shared (ownParameters own body), p.isAuth = false :=
    fun p inside => isAuth_of_parameters declares.shared p (mem_keptParameters_iff.mp inside).1
  have mine : ∀ p ∈ ownParameters own body, p.isAuth = false := by
    intro p inside
    rcases List.mem_append.mp (perm_ownParameters.mem_iff.mp inside) with inside | inside
    · exact isAuth_of_parameters ownFound p inside
    · exact (location_of_requestBody bodyFound p inside).2
  have none : tokens.filter (!·.isAuth) = [] := by
    rw [List.filter_eq_nil_iff]
    intro p inside
    simp [(carry p inside).1]
  rw [List.filter_append, List.filter_append, none, List.filter_eq_self.mpr (by simpa using kept),
    List.filter_eq_self.mpr (by simpa using mine), List.append_nil]

/-- Which parameters an operation has besides tokens: those of its path that it does not override,
then its own. A parameter of the path is overridden by one of the operation with its name and
location, but a body never is; so all of them are overridden as they should, and no two parameters
have one name and location, exactly if no body of the path has the name of one of the operation's
own (and the operation has not two bodies of one name itself). The body of an operation is the first
of its path, and its own only if its path has none. -/
theorem path_parameters_overridden_iff {path : String} {item : PathItem}
    {t : Traced Diagnostic (List Operation)} {op : Operation}
    (success : w.operations path item = .ok t) (member : op ∈ t.value) :
    ∃ shared own body, w.Declares path item op shared own body ∧
      let mine := ownParameters own body
      let kept := keptParameters shared mine
      op.parameters.filter (!·.isAuth) = kept ++ mine ∧ mine.Perm (own ++ body) ∧
        ((∀ p ∈ shared, p ∈ kept ↔ ∀ q ∈ mine, Differ q p) ↔ BodiesApart shared mine) ∧
        (shared.Pairwise Differ → own.Pairwise Differ →
          ((op.parameters.filter (!·.isAuth)).Pairwise Differ ↔
            BodiesApart shared mine ∧ ∀ p ∈ own, ∀ q ∈ body, Differ p q)) ∧
        op.bodyParameter? =
          (shared.find? (·.location == .body)).or (mine.find? (·.location == .body)) := by
  obtain ⟨shared, own, body, tokens, declares, carry, parameters⟩ :=
    exists_declares_of_operations success member
  have plain := filter_isAuth_of_declares declares carry
  rw [← parameters] at plain
  refine ⟨shared, own, body, declares, plain, perm_ownParameters, overridden_iff_bodiesApart,
    ?_, ?_⟩
  · intro once ownOnce
    have single : body.length ≤ 1 := by
      obtain ⟨_, _, _, _, _, _, _, bodyFound⟩ := declares.entry
      rcases eq_of_requestBody bodyFound with rfl | ⟨_, _, rfl⟩ <;> simp
    rw [plain]
    exact pairwise_differ_iff once ownOnce single
  · have none : tokens.find? (·.location == .body) = none := by
      rw [List.find?_eq_none]
      intro p inside
      simp [(carry p inside).2]
    rw [Operation.bodyParameter?, parameters, List.find?_append, List.find?_append, none,
      Option.or_none, find?_keptParameters]

end Workspace

/-- A path with parameters that have to be given, and an operation with a parameter of the query and
a body that need not be. -/
def Sample.posting (parameters : List (String × ParameterLocation)) : PathItem :=
  { summary := none, description := none, servers := none, path? := none
    parameters := parameters.map fun (name, location) =>
      .inline
        { name, location, description := none, required := true, deprecated := none
          schema := none, types := some (.one .string), format := none, items := none
          values := [], default := none, limits := {}, style := none, explode := none }
    entries :=
      [("post", .obj
        [("operationId", .str "postNote"),
         ("parameters", .arr
           [.obj [("name", .str "limit"), ("in", .str "query"), ("type", .str "string")],
            .obj [("name", .str "note"), ("in", .str "body"), ("type", .str "string")]]),
         ("responses", .obj [])])] }

/-- A document without security requirements, around that path. -/
def Sample.posts : Workspace := .ofDocument (.ofDefinitions []) []

/-- A parameter of the path is overridden by that of the operation, and another is kept. -/
theorem path_parameters_overridden_posting :
    ∃ t op shared own body,
      Sample.posts.operations "/notes" (Sample.posting [("limit", .query), ("trace", .header)]) =
        .ok t ∧ t.value = [op] ∧ op.parameters.map (·.name) = ["trace", "limit", "note"] ∧
      (∀ p ∈ shared, p ∈ Workspace.keptParameters shared (Workspace.ownParameters own body) ↔
        ∀ q ∈ Workspace.ownParameters own body, Workspace.Differ q p) ∧
      op.bodyParameter? = (Workspace.ownParameters own body).find? (·.location == .body) := by
  obtain ⟨t, success, facts⟩ := exists_ok_of_map
    (x := Sample.posts.operations "/notes" (Sample.posting [("limit", .query), ("trace", .header)]))
    (f := fun t => t.value.map fun op => op.parameters.map (·.name))
    (b := [["trace", "limit", "note"]]) (by decide +kernel)
  obtain ⟨op, made, names⟩ := List.map_eq_singleton_iff.mp facts
  obtain ⟨shared, own, body, declares, _, _, overridden, _, found⟩ :=
    Workspace.path_parameters_overridden_iff success (by rw [made]; exact List.mem_cons_self)
  have noBody : ∀ p ∈ shared, p.location ≠ .body := by
    have locations : (Sample.posts.parameters "/notes"
        (Sample.posting [("limit", .query), ("trace", .header)]).parameters).outcome.map
          (fun found => found.all (·.location != .body)) = some true := by
      decide +kernel
    rw [declares.shared] at locations
    simpa using locations
  refine ⟨t, op, shared, own, body, success, made, names, overridden.mpr ?_, ?_⟩
  · exact fun p member isBody => absurd isBody (noBody p member)
  · have none : shared.find? (·.location == .body) = none := by
      simpa using noBody
    rw [found, none, Option.none_or]

/-- A body of the path is kept beside the body of the operation that has its name, and found before
it. -/
theorem path_body_kept :
    ∃ t op shared own body p q,
      Sample.posts.operations "/notes" (Sample.posting [("note", .body)]) = .ok t ∧
      t.value = [op] ∧ Sample.posts.Declares "/notes" (Sample.posting [("note", .body)]) op shared
        own body ∧
      p ∈ shared ∧ q ∈ Workspace.ownParameters own body ∧ ¬ Workspace.Differ q p ∧
      p ∈ op.parameters ∧ q ∈ op.parameters ∧ op.bodyParameter? = some p ∧
      p.required = true ∧ q.required = false := by
  obtain ⟨t, success, facts⟩ := exists_ok_of_map
    (x := Sample.posts.operations "/notes" (Sample.posting [("note", .body)]))
    (f := fun t => t.value.map fun op =>
      op.parameters.map fun p => (p.name, p.location, p.required))
    (b := [[("note", .body, true), ("limit", .query, false), ("note", .body, false)]])
    (by decide +kernel)
  obtain ⟨op, made, faces⟩ := List.map_eq_singleton_iff.mp facts
  obtain ⟨shared, own, body, tokens, declares, carry, parameters⟩ :=
    Workspace.exists_declares_of_operations success (by rw [made]; exact List.mem_cons_self)
  have single : (Sample.posts.parameters "/notes"
      (Sample.posting [("note", .body)]).parameters).outcome.map
        (List.map fun p => (p.name, p.location)) = some [("note", .body)] := by
    decide +kernel
  rw [declares.shared] at single
  obtain ⟨p, rfl, face⟩ := List.map_eq_singleton_iff.mp (Option.some.inj single)
  obtain ⟨name, isBody⟩ := Prod.mk.inj face
  have kept : Workspace.keptParameters [p] (Workspace.ownParameters own body) = [p] := by
    simp [Workspace.keptParameters, isBody]
  rw [kept, List.append_assoc, List.singleton_append] at parameters
  rw [parameters, List.map_cons] at faces
  obtain ⟨first, others⟩ := List.cons.inj faces
  have last : ("note", ParameterLocation.body, false) ∈
      (tokens ++ Workspace.ownParameters own body).map
        fun p => (p.name, p.location, p.required) := by
    rw [others]
    decide
  obtain ⟨q, inside, face'⟩ := List.mem_map.mp last
  simp only [Prod.mk.injEq] at first face'
  have mine : q ∈ Workspace.ownParameters own body := by
    refine (List.mem_append.mp inside).resolve_left fun token => ?_
    rw [(carry q token).2] at face'
    cases face'.2.1
  have same : Workspace.sameParameter q p := by
    simp [Workspace.sameParameter, face', first]
  refine ⟨t, op, [p], own, body, p, q, success, made, declares, List.mem_cons_self, mine,
    not_not.mpr same, ?_, ?_, ?_, first.2.2, face'.2.2⟩
  · rw [parameters]
    exact List.mem_cons_self
  · rw [parameters]
    exact List.mem_cons_of_mem _ inside
  · rw [Operation.bodyParameter?, parameters, List.find?_cons_of_pos (by simp [isBody])]

end ApiCodec

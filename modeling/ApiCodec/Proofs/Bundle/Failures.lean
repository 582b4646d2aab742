import ApiCodec.Proofs.Bundle.Lookups
import ApiCodec.Proofs.Parameters.Chains

set_option autoImplicit false

namespace ApiCodec

open Document Walk

namespace Workspace

/-- The parameters that building a path item follows: those that all its operations share, and those
of each operation that it keeps. What fails is said to be of the path or of the operation. -/
inductive Takes (item : PathItem) (path : String) : String → ParameterNode → Prop
  | shared {node : ParameterNode} (member : node ∈ item.parameters) : Takes item path path node
  | own {declared : List (String × Document.Operation)} {entry : String × Document.Operation}
      {method : HttpMethod} {id : String} {node : ParameterNode}
      (read : item.operations = .ok declared) (inside : entry ∈ declared)
      (supported : HttpMethod.ofName? entry.1 = some method)
      (identified : entry.2.operationId = some id) (member : node ∈ entry.2.parameters) :
      Takes item path id node

/-- Failures at a parameter that is followed, or at the entries of a path item. -/
inductive Fault (w : Workspace) : TransformError → Prop
  | parameter {path subject : String} {item : PathItem} {node : ParameterNode} {e : TransformError}
      (listed : (path, item) ∈ w.catalog.paths) (takes : Takes item path subject node)
      (failed : w.resolveParameter subject node = .error e) : Fault w e
  | entries {path : String} {item : PathItem} {cause : ShapeError}
      (listed : (path, item) ∈ w.catalog.paths) (unread : item.operations = .error cause) :
      Fault w (.parse (.shape w.catalog.dialect cause))

/-- If a step fails, it is for a fault, or where one of some schemas is brought to its form. -/
def FailsAt (w : Workspace) (sites : List Site) {ν α : Type} (t : Transform ν α) : Prop :=
  ∀ e, t = .error e →
    w.Fault e ∨ ∃ site ∈ sites, w.sources.normalize site.base site.node = .error e

namespace FailsAt

variable {w : Workspace} {sites others : List Site} {ν α β : Type}

theorem ok {a : Traced ν α} : w.FailsAt sites (.ok a : Transform ν α) := by
  intro e failed
  cases failed

theorem pure {a : α} : w.FailsAt sites (pure a : Transform ν α) := ok

theorem mono {t : Transform ν α} (fails : w.FailsAt sites t) (subset : sites ⊆ others) :
    w.FailsAt others t := by
  intro e failed
  rcases fails e failed with fault | ⟨site, member, same⟩
  · exact Or.inl fault
  · exact Or.inr ⟨site, subset member, same⟩

theorem bind {t : Transform ν α} {next : α → Transform ν β} (first : w.FailsAt sites t)
    (later : ∀ a, t = .ok a → w.FailsAt sites (next a.value)) : w.FailsAt sites (t >>= next) := by
  intro e failed
  rcases Transform.bind_eq_error_iff.mp failed with failed | ⟨a, success, failed⟩
  · exact first e failed
  · exact later a success e failed

theorem append {t : Transform ν α} {next : α → Transform ν β} (first : w.FailsAt sites t)
    (later : ∀ a, t = .ok a → w.FailsAt others (next a.value)) :
    w.FailsAt (sites ++ others) (t >>= next) :=
  bind (first.mono (List.subset_append_left _ _)) fun a success =>
    (later a success).mono (List.subset_append_right _ _)

theorem bind_pure {t : Transform ν α} {f : α → β} (fails : w.FailsAt sites t) :
    w.FailsAt sites (do return f (← t)) :=
  bind fails fun _ _ => pure

theorem about {subject : String} {t : Transform Notice α} (fails : w.FailsAt sites t) :
    w.FailsAt sites (t.about subject) :=
  fun e failed => fails e (Transform.about_eq_error_iff.mp failed)

theorem normalize (base : Option String) (node : SchemaNode) :
    w.FailsAt [⟨base, node⟩] (w.sources.normalize base node) :=
  fun _ failed => Or.inr ⟨_, List.mem_singleton.mpr rfl, failed⟩

end FailsAt

variable {w : Workspace}

theorem typeRef_failsAt (base : Option String) (node : SchemaNode) :
    w.FailsAt [⟨base, node⟩] (w.typeRef base node) := by
  refine .bind (.normalize base node) fun a _ => ?_
  split
  · exact .pure
  · split <;> exact .pure

theorem typedParameter_failsAt (declared : Document.Parameter) (base : Option String) :
    w.FailsAt (declared.effectiveSchema?.toList.map (Site.mk base))
      (w.typedParameter declared base) := by
  unfold typedParameter
  cases declared.effectiveSchema? with
  | some node => exact .bind_pure (typeRef_failsAt base node)
  | none => exact .ok

theorem parameterSites_cons {subject : String} {node : ParameterNode} {rest : List ParameterNode}
    {a : Traced Notice (Option (Document.Parameter × Option String))}
    (resolved : w.resolveParameter subject node = .ok a) :
    w.parameterSites subject (node :: rest) =
      (match a.value with
        | some (declared, base) => declared.effectiveSchema?.toList.map (Site.mk base)
        | none => []) ++ w.parameterSites subject rest := by
  unfold parameterSites
  rw [List.flatMap_cons, resolved]
  obtain ⟨_ | ⟨declared, base⟩, notes, promoted⟩ := a <;> rfl

theorem parameters_failsAt {path subject : String} {item : PathItem}
    (listed : (path, item) ∈ w.catalog.paths) (nodes : List ParameterNode)
    (taken : ∀ node ∈ nodes, Takes item path subject node) :
    w.FailsAt (w.parameterSites subject nodes) (w.parameters subject nodes) := by
  induction nodes with
  | nil => exact .pure
  | cons node rest ih =>
      obtain ⟨takes, others⟩ := List.forall_mem_cons.mp taken
      unfold parameters
      refine .bind (fun e failed => Or.inl (.parameter listed takes failed)) fun a resolved => ?_
      rw [parameterSites_cons resolved]
      cases a.value with
      | none => exact ih others
      | some found =>
          obtain ⟨declared, base⟩ := found
          exact .append (typedParameter_failsAt declared base) fun _ _ => .bind_pure (ih others)

theorem requestBody_failsAt (op : Document.Operation) :
    w.FailsAt (w.bodySites op) (w.requestBody op) := by
  unfold requestBody bodySites
  cases w.catalog.requestBody op with
  | error cause => exact .ok
  | ok found =>
      cases found with
      | none => exact .pure
      | some body =>
          cases content : body.content with
          | nil => simp only [content]; exact .pure
          | cons first rest =>
              obtain ⟨contentType, media⟩ := first
              simp only [content]
              split
              · exact .pure
              · cases media.schema with
                | some node => exact .bind_pure (typeRef_failsAt none node)
                | none => exact .ok

theorem responseType_failsAt (status : String) (response : Document.Response) :
    w.FailsAt
      (match w.catalog.responseSchema? response with
        | some (_, .ref path) => [⟨none, .ref path⟩]
        | _ => [])
      (w.responseType status response) := by
  unfold responseType
  cases w.catalog.responseSchema? response with
  | none => exact .pure
  | some found =>
      obtain ⟨contentType, node⟩ := found
      cases node with
      | ref path =>
          refine .bind (.normalize none (.ref path)) fun a _ => ?_
          cases a.value with
          | ref name => exact .pure
          | inline definition => exact .pure
      | inline schema =>
          simp only
          split <;> exact .pure

theorem responses_failsAt (responses : List (String × ResponseNode)) :
    w.FailsAt (w.responseSites responses) (w.responses responses) := by
  induction responses with
  | nil => exact .pure
  | cons entry rest ih =>
      obtain ⟨status, node⟩ := entry
      have sites : w.responseSites ((status, node) :: rest) =
          w.responseSites [(status, node)] ++ w.responseSites rest := by
        simp [responseSites]
      rw [sites]
      unfold Workspace.responses
      cases known : w.catalog.response node with
      | error cause =>
          exact .bind .ok fun _ _ => ih.mono (List.subset_append_right _ _)
      | ok declared =>
          refine .append ?_ fun _ _ => .bind_pure ih
          simp only [responseSites, List.flatMap_cons, List.flatMap_nil, List.append_nil, known]
          exact responseType_failsAt status declared

theorem operation_failsAt {path : String} {item : PathItem}
    (listed : (path, item) ∈ w.catalog.paths) (method : HttpMethod) {id : String}
    (op : Document.Operation) (shared auth : List Parameter)
    (taken : ∀ node ∈ op.parameters, Takes item path id node) :
    w.FailsAt (w.operationSites id op) (w.operation method path id op shared auth) := by
  unfold operation operationSites
  refine .append (parameters_failsAt listed op.parameters taken) fun a _ => ?_
  refine .bind .ok fun _ _ => ?_
  refine .append (requestBody_failsAt op) fun _ _ => ?_
  exact .bind_pure (responses_failsAt op.responses)

theorem entry_failsAt {path : String} {item : PathItem}
    {declared : List (String × Document.Operation)} {key : String} {op : Document.Operation}
    (listed : (path, item) ∈ w.catalog.paths) (read : item.operations = .ok declared)
    (inside : (key, op) ∈ declared) (shared auth : List Parameter) :
    w.FailsAt (w.entrySites key op) (w.entry path shared auth key op) := by
  unfold entry entrySites
  cases supported : HttpMethod.ofName? key with
  | none => exact .ok
  | some method =>
      cases identified : op.operationId with
      | none => exact .ok
      | some id =>
          exact .bind_pure (operation_failsAt listed method op shared auth
            fun _ member => .own read inside supported identified member)

theorem entries_failsAt {path : String} {item : PathItem}
    {declared : List (String × Document.Operation)} (listed : (path, item) ∈ w.catalog.paths)
    (read : item.operations = .ok declared) (shared auth : List Parameter)
    (part : List (String × Document.Operation)) (subset : part ⊆ declared) :
    w.FailsAt (part.flatMap fun (key, op) => w.entrySites key op)
      (w.entries path shared auth part) := by
  induction part with
  | nil => exact .pure
  | cons first rest ih =>
      obtain ⟨key, op⟩ := first
      obtain ⟨inside, others⟩ := List.cons_subset.mp subset
      unfold entries
      rw [List.flatMap_cons]
      exact .append (entry_failsAt listed read inside shared auth).about
        fun _ _ => .bind_pure (ih others)

theorem sharedParameters_failsAt {path : String} {item : PathItem}
    (listed : (path, item) ∈ w.catalog.paths) :
    w.FailsAt (w.parameterSites path item.parameters) (w.sharedParameters path item) := by
  have own := parameters_failsAt listed item.parameters fun _ member => .shared member
  refine .bind .ok fun _ _ => .bind own fun _ _ => ?_
  exact .bind .ok fun _ _ => .pure

theorem operations_failsAt {path : String} {item : PathItem}
    (listed : (path, item) ∈ w.catalog.paths) :
    w.FailsAt (w.pathSites path item) (w.operations path item) := by
  unfold operations pathSites
  refine .append (sharedParameters_failsAt listed).about fun _ _ => ?_
  cases read : item.operations with
  | error cause =>
      intro e failed
      cases Except.error.inj failed
      exact Or.inl (.entries listed read)
  | ok declared => exact entries_failsAt listed read _ _ declared (List.Subset.refl _)

theorem allOperations_failsAt (paths : List (String × PathItem)) (subset : paths ⊆ w.catalog.paths) :
    w.FailsAt (paths.flatMap fun (path, item) => w.pathSites path item)
      (w.allOperations paths) := by
  induction paths with
  | nil => exact .pure
  | cons first rest ih =>
      obtain ⟨path, item⟩ := first
      obtain ⟨listed, others⟩ := List.cons_subset.mp subset
      unfold allOperations
      rw [List.flatMap_cons]
      exact .append (operations_failsAt listed) fun _ _ => .bind_pure (ih others)

theorem not_missing_of_parameterTarget {p : Pointer} {e : TransformError}
    (failed : w.parameterTarget p = .error e) : ¬ e.Missing := by
  unfold parameterTarget at failed
  split at failed
  · split at failed
    · cases failed
    · cases failed
    · rename_i e' other loaded
      cases Except.error.inj failed
      rcases Sources.error_of_load loaded with ⟨cause, _, rfl⟩ | ⟨cause, rfl⟩
      · exact absurd rfl (other cause)
      · exact TransformError.not_missing_parse cause
  · cases failed

theorem not_missing_of_resolveParameter {subject : String} {node : ParameterNode}
    {e : TransformError} (failed : w.resolveParameter subject node = .error e) : ¬ e.Missing := by
  cases node with
  | inline parameter => cases failed
  | ref path =>
      rcases strays_of_followParameter failed with ⟨_, _, _, _, rfl⟩ | ⟨_, target⟩
      · rintro ⟨file, same | ⟨id, same⟩⟩
        · cases same
        · cases same
      · exact not_missing_of_parameterTarget target

/-- For want of a file operations fail at their schemas alone. -/
theorem Fault.not_missing {e : TransformError} (fault : w.Fault e) : ¬ e.Missing := by
  cases fault with
  | parameter _ _ failed => exact not_missing_of_resolveParameter failed
  | entries _ _ => exact TransformError.not_missing_parse _

theorem exists_error_of_parameterTarget {p : Pointer} {t : Traced Notice (Option ParameterNode)}
    (external : p.isExternal) (success : w.parameterTarget p = .ok t) (absent : t.value = none) :
    ∃ cause, w.sources.fragments.lookup p = .error cause := by
  unfold parameterTarget at success
  rw [if_pos external] at success
  split at success
  · cases Transform.value_eq_ok_iff.mp success
    cases absent
  · rename_i cause failed
    rcases Sources.error_of_load failed with ⟨_, sought, _⟩ | ⟨_, other⟩
    · exact ⟨_, sought⟩
    · cases other
  · exact absurd success Transform.fail_ne_ok

/-- Why a parameter is left out for want of a target: the document or the file does not hold it, or
its file is not loaded. -/
theorem exists_chains_of_parameterMissing {subject : String} {steps : Nat} {base : Option String}
    {path raw : String} {t : Traced Notice (Option (Document.Parameter × Option String))}
    (success : w.followParameter subject steps base path = .ok t)
    (noted : .parameterMissing raw ∈ t.notes) :
    ∃ p, w.Chains base path p ∧
      (p.isExternal → ∃ cause, w.sources.fragments.lookup p = .error cause) := by
  induction steps generalizing base path t with
  | zero =>
      unfold followParameter at success
      cases eq_of_noted success
      simp at noted
  | succ steps ih =>
      unfold followParameter at success
      split at success
      · cases eq_of_noted success
        simp at noted
      · rename_i parsed pointed
        have points := Pointer.within_of_parse base pointed
        simp only at success
        split at success
        · rename_i kind
          obtain ⟨a, b, target, next, rfl⟩ := Transform.bind_eq_ok_iff.mp success
          rw [eq_of_parameterTarget target, List.nil_append] at noted
          split at next
          · cases Transform.pure_eq_ok_iff.mp next
            cases noted
          · rename_i later given
            obtain ⟨p, chained, why⟩ := ih next noted
            exact ⟨p, .next points kind target given chained, why⟩
          · rename_i absent
            refine ⟨_, .here points kind, fun external => ?_⟩
            exact exists_error_of_parameterTarget external target absent
        · exact absurd success Transform.fail_ne_ok
        · cases eq_of_noted success
          simp at noted

end Workspace

/-- The work on a queue fails where a target that it takes up fails. -/
theorem Backlog.exists_of_failure {b last : Backlog} {e : TransformError} (reached : b.Reaches last)
    (running : b.failure = none) (failed : last.failure = some e) :
    ∃ m p rest, b.Reaches m ∧ m.failure = none ∧ m.queue = p :: rest ∧ ¬ m.sources.isPublished p ∧
      (m.sources.publish p).materialize p = .error e := by
  rcases reached.cases_tail with rfl | ⟨m, before, stepped⟩
  · rw [running] at failed
    cases failed
  · unfold step at stepped
    split at stepped
    · rename_i p rest active queued
      cases Option.some.inj stepped
      split at failed
      · exact absurd (active.symm.trans failed) (by simp)
      · rename_i absent
        refine ⟨m, p, rest, before, active, queued, absent, ?_⟩
        unfold take at failed
        simp only at failed
        split at failed
        · rename_i e' materialized
          cases Option.some.inj failed
          exact materialized
        · cases failed
    · cases stepped

namespace Workspace

variable {w : Workspace}

theorem exists_looksUp_of_normalizeTopLevel {name : String} {node : SchemaNode} {e : TransformError}
    (declared : (name, node) ∈ w.catalog.definitions)
    (failed : w.sources.normalizeTopLevel node = .error e) (missing : e.Missing) :
    ∃ p, w.LooksUp p ∧ ¬ w.sources.fragments.Has p := by
  cases node with
  | ref path =>
      obtain ⟨p, points, external, followed⟩ :=
        (resolve_eq_error (Transform.map_eq_error_iff.mp failed)).resolve_left fun malformed => by
          obtain ⟨cause, parsed, rfl⟩ := malformed
          rw [Pointer.error_of_parse parsed] at missing
          exact TransformError.not_missing_reference (by simp) missing
      have materialized := Transform.map_eq_error_iff.mp followed
      rcases Sources.exists_seeks_of_materialize materialized missing with
        absent | ⟨q, sought, absent⟩
      · exact ⟨p, .walk (.definition declared)
          ⟨_, path, [], .refl, rfl, rfl, points, external⟩, absent⟩
      · exact ⟨q, .walk (.target declared points external) sought, absent⟩
  | inline schema =>
      have failed' : w.sources.normalize none (.inline schema) = .error e :=
        Transform.bind_eq_error_iff.mpr (Or.inl failed)
      obtain ⟨p, sought, absent⟩ := Sources.exists_seeks_of_normalize failed' missing
      exact ⟨p, .walk (.definition declared) sought, absent⟩

theorem exists_of_topLevel {s : Sources} {definitions : List (String × SchemaNode)}
    {e : TransformError} (failed : topLevel s definitions = .error e) :
    ∃ entry ∈ definitions, s.normalizeTopLevel entry.2 = .error e := by
  induction definitions with
  | nil => cases failed
  | cons first rest ih =>
      obtain ⟨name, node⟩ := first
      unfold topLevel at failed
      rcases Transform.bind_eq_error_iff.mp failed with own | ⟨_, _, later⟩
      · exact ⟨_, List.mem_cons_self, Transform.about_eq_error_iff.mp own⟩
      · rcases Transform.bind_eq_error_iff.mp later with others | ⟨_, _, none⟩
        · obtain ⟨entry, member, same⟩ := ih others
          exact ⟨entry, List.mem_cons_of_mem _ member, same⟩
        · cases none

theorem exists_looksUp_of_parts {e : TransformError} (failed : w.parts = .error e)
    (missing : e.Missing) : ∃ p, w.LooksUp p ∧ ¬ w.sources.fragments.Has p := by
  rcases Transform.bind_eq_error_iff.mp failed with top | ⟨_, _, later⟩
  · obtain ⟨⟨name, node⟩, declared, failed⟩ := exists_of_topLevel top
    exact exists_looksUp_of_normalizeTopLevel declared failed missing
  · rcases Transform.bind_eq_error_iff.mp later with operations | ⟨_, _, none⟩
    · obtain ⟨site, member, failed⟩ :=
        (allOperations_failsAt w.catalog.paths (List.Subset.refl _) e operations).resolve_left
          fun fault => fault.not_missing missing
      obtain ⟨p, sought, absent⟩ := Sources.exists_seeks_of_normalize failed missing
      exact ⟨p, .walk (.site member) sought, absent⟩
    · cases none

/-- What fails for want of a file has looked up a pointer into a file that is not loaded. -/
theorem exists_looksUp_of_assemble {e : TransformError} (failed : w.assemble = .error e)
    (missing : e.Missing) : ∃ p, w.LooksUp p ∧ ¬ w.sources.fragments.Has p := by
  unfold assemble at failed
  split at failed
  · rename_i cause parts
    cases Except.error.inj failed
    exact exists_looksUp_of_parts parts missing
  · rename_i parts made
    split at failed
    · rename_i cause published
      have cause_eq : cause = e := Except.error.inj failed
      obtain ⟨last, reached, _, outcome⟩ := Backlog.ends (.start w.sources parts.promoted) rfl
      have stopped : last.failure = some e := by
        simp only [Backlog.start, published, cause_eq] at outcome
        exact outcome
      obtain ⟨b, p, rest, reached, running, queued, absent, materialized⟩ :=
        Backlog.exists_of_failure reached rfl stopped
      have same : (b.sources.publish p).fragments = w.sources.fragments :=
        ((Backlog.apart_start _ _).reaches reached).fragments
      rw [← same]
      rcases Sources.exists_seeks_of_materialize materialized missing with gone | ⟨q, sought, gone⟩
      · exact ⟨p, .promoted made reached running queued absent, gone⟩
      · exact ⟨q, .walk (.promoted made reached running queued absent) sought, gone⟩
    · cases failed

end Workspace

end ApiCodec

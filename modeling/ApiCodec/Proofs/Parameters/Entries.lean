import ApiCodec.Proofs.Flatten.Sites

set_option autoImplicit false

namespace ApiCodec.Workspace

open Document

variable {w : Workspace} {path : String}

section

variable {shared auth : List Parameter}

/-- What an entry of a path item comes to: an operation, or a notice of why there is none. -/
inductive Comes (w : Workspace) (path : String) (shared auth : List Parameter)
    (entry : String × Document.Operation) : Traced Notice (List Operation) → Prop
  | unsupported (unknown : HttpMethod.ofName? entry.1 = none) :
      Comes w path shared auth entry ⟨[], [.unsupportedMethod entry.1], []⟩
  | anonymous {method : HttpMethod} (supported : HttpMethod.ofName? entry.1 = some method)
      (absent : entry.2.operationId = none) :
      Comes w path shared auth entry ⟨[], [.noOperationId], []⟩
  | made {method : HttpMethod} {id : String} {u : Traced Notice Operation}
      (supported : HttpMethod.ofName? entry.1 = some method)
      (identified : entry.2.operationId = some id)
      (built : w.operation method path id entry.2 shared auth = .ok u) :
      Comes w path shared auth entry ⟨[u.value], u.notes, u.promoted⟩

theorem comes_of_entry {entry : String × Document.Operation} {t : Traced Notice (List Operation)}
    (success : w.entry path shared auth entry.1 entry.2 = .ok t) :
    w.Comes path shared auth entry t := by
  unfold Workspace.entry at success
  split at success
  · rename_i unknown
    rw [eq_of_noted success]
    exact .unsupported unknown
  · rename_i method supported
    split at success
    · rename_i absent
      rw [eq_of_noted success]
      exact .anonymous supported absent
    · rename_i id identified
      simp only [Transform.bind_eq_ok_iff, Transform.pure_eq_ok_iff] at success
      obtain ⟨u, _, built, rfl, rfl⟩ := success
      simpa using Comes.made supported identified built

/-- Whether an entry becomes an operation: its method is supported and it has an id. -/
def isKept (entry : String × Document.Operation) : Bool :=
  (HttpMethod.ofName? entry.1).isSome && entry.2.operationId.isSome

/-- The operations are those of the entries that are kept, in order. -/
theorem kept_of_comes {declared : List (String × Document.Operation)}
    {found : List (Traced Notice (List Operation))}
    (each : List.Forall₂ (w.Comes path shared auth) declared found) :
    List.Forall₂
      (fun entry op => ∃ method id u, HttpMethod.ofName? entry.1 = some method ∧
        entry.2.operationId = some id ∧ w.operation method path id entry.2 shared auth = .ok u ∧
        u.value = op)
      (declared.filter isKept) (found.flatMap (·.value)) := by
  induction each with
  | nil => exact .nil
  | cons comes _ ih =>
      rw [List.filter_cons, List.flatMap_cons]
      cases comes with
      | unsupported unknown => simpa [isKept, unknown] using ih
      | anonymous supported absent => simpa [isKept, absent] using ih
      | made supported identified built =>
          rw [if_pos (by simp [isKept, supported, identified])]
          exact .cons ⟨_, _, _, supported, identified, built, rfl⟩ ih

/-- What notices about an entry are said of. -/
def entrySubject (path key : String) : String := Text.upper key ++ " " ++ path

/-- The entries of a path item come to operations and notices one after the other. -/
theorem comes_of_entries {declared : List (String × Document.Operation)}
    {t : Traced Diagnostic (List Operation)}
    (success : w.entries path shared auth declared = .ok t) :
    ∃ found, List.Forall₂ (w.Comes path shared auth) declared found ∧
      t.value = found.flatMap (·.value) ∧
      t.notes = (declared.zip found).flatMap fun pair =>
        pair.2.notes.map (Diagnostic.mk (entrySubject path pair.1.1)) := by
  induction declared generalizing t with
  | nil =>
      cases Transform.pure_eq_ok_iff.mp success
      exact ⟨[], .nil, rfl, rfl⟩
  | cons first rest ih =>
      obtain ⟨key, declaredOp⟩ := first
      unfold entries at success
      simp only [Transform.bind_eq_ok_iff, Transform.about_eq_ok_iff, Transform.pure_eq_ok_iff]
        at success
      obtain ⟨_, _, ⟨a, own, rfl⟩, ⟨b, _, others, rfl, rfl⟩, rfl⟩ := success
      obtain ⟨found, each, values, notes⟩ := ih others
      refine ⟨a :: found, .cons (comes_of_entry own) each, ?_, ?_⟩
      · simp only [values, List.flatMap_cons]
      · simp only [notes, List.append_nil, List.zip_cons_cons, List.flatMap_cons, entrySubject]

end

/-- What all operations of a path share: its own parameters, and the tokens that the document
requires. -/
theorem eq_of_sharedParameters {item : PathItem}
    {t : Traced Notice (List Parameter × List Parameter)}
    (success : w.sharedParameters path item = .ok t) :
    ∃ u, w.parameters path item.parameters = .ok u ∧
      t.value = (u.value, (authHeaders w.catalog.schemes w.catalog.security).1) ∧
      t.notes = item.path?.toList.map .pathItemReference ++
        (u.notes ++ (authHeaders w.catalog.schemes w.catalog.security).2) := by
  unfold sharedParameters at success
  simp only [Transform.bind_eq_ok_iff, Transform.tell_eq_ok_iff, Transform.pure_eq_ok_iff] at success
  obtain ⟨_, _, rfl, ⟨u, _, shared, ⟨_, _, rfl, rfl, rfl⟩, rfl⟩, rfl⟩ := success
  exact ⟨u, shared, rfl, by simp⟩

/-- What a path item comes to: the parameters that all its operations share, and its entries. -/
theorem comes_of_operations {item : PathItem} {t : Traced Diagnostic (List Operation)}
    (success : w.operations path item = .ok t) :
    ∃ common declared found, w.sharedParameters path item = .ok common ∧
      item.operations = .ok declared ∧
      List.Forall₂ (w.Comes path common.value.1 common.value.2) declared found ∧
      t.value = found.flatMap (·.value) ∧
      t.notes = common.notes.map (Diagnostic.mk path) ++
        (declared.zip found).flatMap fun pair =>
          pair.2.notes.map (Diagnostic.mk (entrySubject path pair.1.1)) := by
  unfold operations at success
  simp only [Transform.bind_eq_ok_iff, Transform.about_eq_ok_iff] at success
  obtain ⟨_, b, ⟨common, found, rfl⟩, next, rfl⟩ := success
  cases read : item.operations with
  | error cause =>
      rw [read] at next
      exact absurd next Transform.fail_ne_ok
  | ok declared =>
      rw [read] at next
      obtain ⟨each, fates, values, notes⟩ := comes_of_entries next
      exact ⟨common, declared, each, found, rfl, fates, values, by rw [notes]⟩

/-- Every operation of a path item is built from one of its entries. -/
theorem exists_operation_of_operations {item : PathItem} {t : Traced Diagnostic (List Operation)}
    (success : w.operations path item = .ok t) {op : Operation} (member : op ∈ t.value) :
    ∃ common declared, w.sharedParameters path item = .ok common ∧
      item.operations = .ok declared ∧
      ∃ entry ∈ declared, ∃ method id u, HttpMethod.ofName? entry.1 = some method ∧
        entry.2.operationId = some id ∧
        w.operation method path id entry.2 common.value.1 common.value.2 = .ok u ∧
        u.value = op := by
  obtain ⟨common, declared, found, shared, read, each, values, _⟩ := comes_of_operations success
  rw [values] at member
  obtain ⟨made, fate, member⟩ := List.mem_flatMap.mp member
  obtain ⟨entry, paired⟩ := exists_mem_zip_right each fate
  have comes := List.forall₂_iff_zip.mp each |>.2 paired
  refine ⟨common, declared, shared, read, entry, (List.of_mem_zip paired).1, ?_⟩
  cases comes with
  | unsupported unknown => cases member
  | anonymous supported absent => cases member
  | made supported identified built =>
      exact ⟨_, _, _, supported, identified, built, (List.mem_singleton.mp member).symm⟩

/-- The operations of a document are those of its path items. -/
theorem exists_operations_of_allOperations {paths : List (String × PathItem)}
    {t : Traced Diagnostic (List Operation)} (success : w.allOperations paths = .ok t)
    {path : String} {item : PathItem} (member : (path, item) ∈ paths) :
    ∃ u, w.operations path item = .ok u := by
  induction paths generalizing t with
  | nil => cases member
  | cons first rest ih =>
      unfold allOperations at success
      simp only [Transform.bind_eq_ok_iff, Transform.pure_eq_ok_iff] at success
      obtain ⟨a, _, own, ⟨b, _, others, rfl, rfl⟩, rfl⟩ := success
      rcases List.mem_cons.mp member with rfl | member
      · exact ⟨a, own⟩
      · exact ih others member

end ApiCodec.Workspace

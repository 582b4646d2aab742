import ApiCodec.Proofs.Flatten.Closure
import ApiCodec.Proofs.Parameters.Entries
import ApiCodec.Emit.Generate

set_option autoImplicit false

namespace ApiCodec

open Document

namespace Workspace

variable {w : Workspace} {holds : Operation → Prop}

/-- What every operation has when it is built, all operations of a document have. -/
theorem forall_of_allOperations {paths : List (String × PathItem)}
    {t : Traced Diagnostic (List Operation)}
    (built : ∀ method path id op shared auth t,
      w.operation method path id op shared auth = .ok t → holds t.value)
    (success : w.allOperations paths = .ok t) : ∀ made ∈ t.value, holds made := by
  induction paths generalizing t with
  | nil =>
      cases Transform.pure_eq_ok_iff.mp success
      intro made member
      cases member
  | cons first rest ih =>
      obtain ⟨path, item⟩ := first
      unfold allOperations at success
      simp only [Transform.bind_eq_ok_iff, Transform.pure_eq_ok_iff] at success
      obtain ⟨a, _, own, ⟨b, _, others, rfl, rfl⟩, rfl⟩ := success
      intro made member
      rcases List.mem_append.mp member with member | member
      · obtain ⟨_, _, _, _, _, _, _, _, _, _, _, success, rfl⟩ :=
          exists_operation_of_operations own member
        exact built _ _ _ _ _ _ _ success
      · exact ih others made member

theorem forall_of_assemble {a : Assembly}
    (built : ∀ method path id op shared auth t,
      w.operation method path id op shared auth = .ok t → holds t.value)
    (success : w.assemble = .ok a) : ∀ made ∈ a.operations, holds made := by
  unfold assemble at success
  split at success
  · cases success
  · rename_i parts found
    split at success
    · cases success
    · cases Except.ok.inj success
      unfold Workspace.parts at found
      simp only [Transform.bind_eq_ok_iff, Transform.pure_eq_ok_iff] at found
      obtain ⟨_, _, _, ⟨c, _, operations, rfl, rfl⟩, rfl⟩ := found
      exact forall_of_allOperations built operations

/-- An operation lists the definitions that its parameters and responses use. -/
theorem importedTypes_of_operation {method : HttpMethod} {path id : String}
    {op : Document.Operation} {shared auth : List Parameter} {t : Traced Notice Operation}
    (success : w.operation method path id op shared auth = .ok t) :
    t.value.importedTypes = usedNames t.value.parameters t.value.responses := by
  unfold operation at success
  simp only [Transform.bind_eq_ok_iff, Transform.tell_eq_ok_iff, Transform.pure_eq_ok_iff]
    at success
  obtain ⟨a, _, _, ⟨_, _, rfl, ⟨b, _, _, ⟨c, _, _, rfl, rfl⟩, rfl⟩, rfl⟩, rfl⟩ := success
  rfl

end Workspace

def Model.ReportsNoUnknown (model : Model) : Prop :=
  ∀ diagnostic ∈ model.diagnostics, ∀ name, diagnostic.notice ≠ .unknownDefinition name

namespace Assembly

variable {a : Assembly}

theorem nodup_keys_definitions (declared : (Assoc.keys a.declared).Nodup) :
    (Assoc.keys a.definitions).Nodup := by
  unfold definitions
  generalize a.declared = table at declared
  induction a.published generalizing table with
  | nil => exact declared
  | cons p rest ih => exact ih _ (Assoc.nodup_keys_insert declared)

/-- A name that is no definition is reported. -/
theorem mem_unknownNames {definitions : Definitions} {subject name : String} {names : List String}
    (used : name ∈ names) (unknown : name ∉ Assoc.keys definitions) :
    ⟨subject, .unknownDefinition name⟩ ∈ unknownNames definitions subject names := by
  have absent : Assoc.has name definitions = false := by
    rw [← Bool.not_eq_true, Assoc.has_iff]
    exact unknown
  exact List.mem_map.mpr ⟨name, List.mem_filter.mpr ⟨used, by simp [absent]⟩, rfl⟩

end Assembly

/-- Whatever a model names is a definition, and each name stands for one. -/
structure Model.Closed (model : Model) : Prop where
  keys : (Assoc.keys model.definitions).Nodup
  definitions : ∀ entry ∈ model.definitions, ∀ name ∈ entry.2.names,
    name ∈ Assoc.keys model.definitions
  operations : ∀ op ∈ model.operations,
    ∀ name ∈ Workspace.usedNames op.parameters op.responses,
    name ∈ Assoc.keys model.definitions

/-- A model is made of the assembly of its document. -/
theorem Model.exists_assembly {document : Document} {fragments : Fragments} {model : Model}
    (built : Model.ofDocument document fragments = .ok model) :
    ∃ a, (Workspace.ofDocument document fragments).assemble = .ok a ∧
      ofAssembly (Workspace.ofDocument document fragments).catalog.info a = model := by
  unfold ofDocument at built
  cases success : (Workspace.ofDocument document fragments).assemble with
  | error e =>
      simp only [success, Except.map] at built
      cases built
  | ok a =>
      simp only [success, Except.map, Except.ok.injEq] at built
      exact ⟨a, rfl, built⟩

/-- The definitions of a model have different names if none is declared twice. -/
theorem Model.nodup_keys_of_ofDocument {document : Document} {fragments : Fragments} {model : Model}
    (keys : (Assoc.keys (Catalog.ofDocument document).definitions).Nodup)
    (built : Model.ofDocument document fragments = .ok model) :
    (Assoc.keys model.definitions).Nodup := by
  obtain ⟨a, success, rfl⟩ := Model.exists_assembly built
  apply Assembly.nodup_keys_definitions
  rw [(Workspace.assembled_of_assemble success).keys_declared]
  exact keys

/-- A model that reports no unknown name is closed. -/
theorem Model.closed_of_ofDocument {document : Document} {fragments : Fragments} {model : Model}
    (keys : (Assoc.keys (Catalog.ofDocument document).definitions).Nodup)
    (built : Model.ofDocument document fragments = .ok model) (known : model.ReportsNoUnknown) :
    model.Closed := by
  have distinct := Model.nodup_keys_of_ofDocument keys built
  obtain ⟨a, success, rfl⟩ := Model.exists_assembly built
  have lists : ∀ op ∈ a.operations,
      op.importedTypes = Workspace.usedNames op.parameters op.responses :=
    Workspace.forall_of_assemble
      (fun _ _ _ _ _ _ _ made => Workspace.importedTypes_of_operation made) success
  have reported : ∀ subject name,
      (⟨subject, .unknownDefinition name⟩ : Diagnostic) ∉
        danglingNames a.definitions a.operations := by
    intro subject name member
    exact known _ (List.mem_append_right _ member) name rfl
  refine ⟨distinct, ?_, ?_⟩
  · intro entry member name named
    by_contra unknown
    exact reported entry.1 name (List.mem_append_left _ (List.mem_flatMap.mpr
      ⟨entry, member, Assembly.mem_unknownNames named unknown⟩))
  · intro op member name used
    by_contra unknown
    rw [← lists op member] at used
    exact reported op.id name (List.mem_append_right _ (List.mem_flatMap.mpr
      ⟨op, member, Assembly.mem_unknownNames used unknown⟩))

end ApiCodec

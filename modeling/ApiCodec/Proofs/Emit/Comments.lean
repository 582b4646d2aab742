import ApiCodec.Proofs.Emit.Imports
import ApiCodec.Proofs.Emit.Marks

set_option autoImplicit false

namespace ApiCodec

namespace Emit

theorem leaves_definitionTemplate : allLeave .code definitionTemplate = some .code := by
  decide +kernel

theorem leaves_clientTemplate : allLeave .code clientTemplate = some .code := by
  decide +kernel

theorem leaves_requestTypesHead :
    allLeave .code (requestTypesHead ++ [importLines]) = some .code := by
  decide +kernel

/-- What follows the id of an operation ends the comment that the id stands in. -/
theorem leaves_operationPieces : allLeave .otherStar (operationPieces.drop 2) = some .code := by
  decide +kernel

/-- An operation with its comments. All else in them being escaped, it comes down to the id. -/
theorem after_operationPieces (outer : Scope) (r : RequestType) :
    Zone.code.after (marksAll (r.scope outer) operationPieces) =
      if Text.contains "*/" r.operation.id then none else some .code := by
  let banner := "\n/****************************************************************\n * "
  let scope := r.scope outer
  let id := r.operation.id
  have parts : marksAll scope operationPieces =
      marksOf .template banner ++ (marksOf .value id ++ marksAll scope (operationPieces.drop 2)) :=
    rfl
  have begun : Zone.code.after (marksOf .template banner) = some .comment := by decide +kernel
  have contained : Text.contains "*/" id = Text.endsComment false id.toList := by
    simp [Text.contains, Text.endsComment_eq]
  obtain ⟨last, run⟩ : ∃ last, Zone.comment.after (marksOf .value id) =
      if Text.endsComment false id.toList then none else some (.inside last) :=
    Zone.after_inside Origin.noConfusion false id.toList
  rw [parts, Zone.after_append, begun, Option.bind_some, Zone.after_append, run, contained]
  cases Text.endsComment false id.toList with
  | true => rfl
  | false =>
      obtain ⟨real, more, covered⟩ := after_marksAll (operationPieces.drop 2) scope
        (Zone.covers_inside last) leaves_operationPieces
      rw [Zone.covers_code.mp covered] at more
      exact more

/-- Operations one after the other, as far as their ids let the comments be closed. -/
theorem after_operations (outer : Scope) (types : List RequestType) :
    Zone.code.after (types.flatMap fun r => marksAll (r.scope outer) operationPieces) =
      if types.any (Text.contains "*/" ·.operation.id) then none else some .code := by
  induction types with
  | nil => rfl
  | cons r rest ih =>
      rw [List.flatMap_cons, Zone.after_append, after_operationPieces, List.any_cons]
      cases Text.contains "*/" r.operation.id with
      | true => rfl
      | false => exact ih

/-- A generated file as a template and what the template sees. -/
structure Rendering where
  path : String
  template : List Piece
  scope : Scope

namespace Rendering

def marks (r : Rendering) : List Mark := marksAll r.scope r.template

def file (r : Rendering) : GeneratedFile :=
  { path := r.path, content := String.ofList (r.marks.map Mark.char) }

/-- Nothing but an end mark of the template ends a comment, and every comment is ended. -/
def Closed (r : Rendering) : Prop :=
  ∃ zone ∈ [Zone.code, .slash], Zone.code.after r.marks = some zone

theorem closed_of_after {r : Rendering} (run : Zone.code.after r.marks = some .code) : r.Closed :=
  ⟨.code, List.mem_cons_self, run⟩

theorem file_eq (r : Rendering) :
    r.file = { path := r.path, content := writtenAll r.scope r.template } := by
  simp [file, marks, chars_marksAll]

end Rendering

def definitionRendering (o : Options) (definitions : Definitions) (entry : String × Definition) :
    Rendering :=
  { path := definitionPath entry.1
    template := definitionTemplate
    scope := (DefinitionModule.of o definitions entry.1 entry.2).scope definitions }

def requestTypesRendering (o : Options) (model : Model) : Rendering :=
  { path := requestTypesFile
    template := requestTypesTemplate
    scope := requestTypesScope model.definitions (model.operations.map (RequestType.of o)) }

def clientRendering (o : Options) (model : Model) : Rendering :=
  { path := clientFile
    template := clientTemplate
    scope := clientScope model.info.basePath (clientOperations o model.operations) }

/-- The generated files by their templates. -/
def renderings (model : Model) (options : Options) : List Rendering :=
  let o := options.normalized
  (model.definitions.filter fun entry => entry.2.importFrom.isNone).map
      (definitionRendering o model.definitions) ++
    (if o.requestTypes then [requestTypesRendering o model] else []) ++
    if o.client then [clientRendering o model] else []

theorem files_renderings (model : Model) (options : Options) :
    (renderings model options).map Rendering.file = (sources model options).map Source.file := by
  have ofDefinitions : ∀ entry : String × Definition,
      (definitionRendering options.normalized model.definitions entry).file =
        ((DefinitionModule.of options.normalized model.definitions entry.1 entry.2).source
          model.definitions).file := by
    intro entry
    rw [Rendering.file_eq]
    exact congrArg _ (DefinitionModule.written_definitionTemplate _ _)
  have ofRequestTypes : (requestTypesRendering options.normalized model).file =
      (requestTypesSource model.definitions
        (model.operations.map (RequestType.of options.normalized))).file := by
    rw [Rendering.file_eq]
    exact congrArg _ (written_requestTypesTemplate _ _)
  have ofClient : (clientRendering options.normalized model).file =
      (clientSource model.info.basePath
        (clientOperations options.normalized model.operations)).file := by
    rw [Rendering.file_eq]
    exact congrArg _ (written_clientTemplate _ _)
  simp only [renderings, sources, definitionSources, requestTypesSources, clientSources,
    List.map_append, List.map_map, Function.comp_def, ofDefinitions]
  congr 1
  · congr 1
    split
    · simp [ofRequestTypes]
    · rfl
  · split
    · simp [ofClient]
    · rfl

theorem closed_definitionRendering (o : Options) (definitions : Definitions)
    (entry : String × Definition) : (definitionRendering o definitions entry).Closed :=
  Rendering.closed_of_after (after_marksAll_code leaves_definitionTemplate _)

theorem closed_clientRendering (o : Options) (model : Model) : (clientRendering o model).Closed :=
  Rendering.closed_of_after (after_marksAll_code leaves_clientTemplate _)

theorem marks_requestTypesRendering (o : Options) (model : Model) :
    let types := model.operations.map (RequestType.of o)
    let scope := requestTypesScope model.definitions types
    (requestTypesRendering o model).marks =
      marksAll scope (requestTypesHead ++ [importLines]) ++
        types.flatMap fun r => marksAll (r.scope scope) operationPieces := by
  intro types scope
  have template : requestTypesTemplate =
      (requestTypesHead ++ [importLines]) ++ [.each "op" (at1 "operations") operationPieces] := rfl
  have each : (Piece.each "op" (at1 "operations") operationPieces).marks scope =
      types.flatMap fun r => marksAll (r.scope scope) operationPieces := by
    simp only [Piece.marks, find?_at1, operations_requestTypesScope, scope, itemsOf,
      Option.getD_some, List.flatMap_map]
    rfl
  rw [← each, ← List.append_nil (Piece.marks _ _)]
  exact (congrArg (marksAll scope) template).trans (marksAll_append _ _ _)

/-- The comments of request types are closed by ids that have no end mark. -/
theorem closed_requestTypesRendering_iff (o : Options) (model : Model) :
    (requestTypesRendering o model).Closed ↔
      ∀ op ∈ model.operations, Text.contains "*/" op.id = false := by
  let types := model.operations.map (RequestType.of o)
  let scope := requestTypesScope model.definitions types
  have run : Zone.code.after (requestTypesRendering o model).marks =
      if types.any (Text.contains "*/" ·.operation.id) then none else some .code := by
    rw [marks_requestTypesRendering, Zone.after_append,
      after_marksAll_code leaves_requestTypesHead, Option.bind_some]
    exact after_operations scope types
  have ids : types.any (Text.contains "*/" ·.operation.id) =
      model.operations.any (Text.contains "*/" ·.id) := by
    simp only [types, List.any_map]
    rfl
  rw [Rendering.Closed, run, ids]
  cases ends : model.operations.any (Text.contains "*/" ·.id) with
  | true =>
      obtain ⟨op, member, ends⟩ := List.any_eq_true.mp ends
      simp only [if_true, reduceCtorEq, and_false, exists_false, false_iff]
      intro none
      exact Bool.false_ne_true ((none op member).symm.trans ends)
  | false =>
      simp only [List.any_eq_false, Bool.not_eq_true] at ends
      simpa using ends

end Emit

open Emit

/-- The comments of generated files. No escaped value has an end mark, and each line that one begins
is led by a star. The comments of a file are closed, except that the ids of operations stand in
those of request types as they are: these are closed if and only if no id has an end mark. -/
theorem comments_closed_iff {model : Model} {options : Options} {files : List GeneratedFile}
    (generated : generate model options = .ok files) :
    files = (renderings model options).map Rendering.file ∧
      (∀ r ∈ renderings model options, LinesLed r.marks ∧
        (r.Closed ↔
          (r.path = requestTypesFile →
            ∀ op ∈ model.operations, Text.contains "*/" op.id = false))) ∧
      ∀ text, Text.contains "*/" (commentText text) = false := by
  have files_eq := (generate_eq_ok_iff.mp generated).2.trans (files_renderings model options).symm
  refine ⟨files_eq, fun r member => ⟨linesLed_marksAll r.scope r.template, ?_⟩,
    contains_commentText⟩
  have elsewhere : r.Closed → r.path ≠ requestTypesFile →
      (r.Closed ↔ (r.path = requestTypesFile →
        ∀ op ∈ model.operations, Text.contains "*/" op.id = false)) :=
    fun closed other => ⟨fun _ here => absurd here other, fun _ => closed⟩
  simp only [renderings, List.mem_append] at member
  rcases member with (definition | requestTypes) | client
  · obtain ⟨entry, _, rfl⟩ := List.mem_map.mp definition
    have plain : '/' ∉ requestTypesFile.toList := by decide
    exact elsewhere (closed_definitionRendering _ _ _) (definitionPath_ne_of_notMem plain).symm
  · rw [List.mem_ite_nil_right, List.mem_singleton] at requestTypes
    obtain ⟨_, rfl⟩ := requestTypes
    exact (closed_requestTypesRendering_iff _ _).trans ⟨fun none _ => none, fun none => none rfl⟩
  · rw [List.mem_ite_nil_right, List.mem_singleton] at client
    obtain ⟨_, rfl⟩ := client
    have other : clientFile ≠ requestTypesFile := by decide
    exact elsewhere (closed_clientRendering _ _) other

namespace Sample

/-- A definition and an operation whose texts would end comments. -/
def noted (id : String) : Model :=
  { info := { basePath := none, version := "1", title := "Notes" }
    definitions :=
      [("Note", { Definition.ofType .string with description := some "A note **/ and\n*/ more" })]
    operations :=
      [{ method := .get, path := "/note", id, name := CodeName.of id
         summary := some "/*/ Gets it.\n/", description := none, tags := [], deprecated := true
         parameters := [], responses := [], headers := [], importedTypes := [], consumes := none
         produces := "application/json" }]
    diagnostics := [] }

def everything : Options := { client := true }

theorem generate_noted (id : String) :
    generate (noted id) everything = .ok ((sources (noted id) everything).map Source.file) :=
  generate_eq_ok_iff.mpr ⟨fun _ => ⟨.inl rfl, .inl rfl⟩, rfl⟩

end Sample

/-- The comments around such texts are closed. -/
theorem comments_closed_noted :
    ∃ files, generate (Sample.noted "getNote") Sample.everything = .ok files ∧
      files = (renderings (Sample.noted "getNote") Sample.everything).map Rendering.file ∧
      ∀ r ∈ renderings (Sample.noted "getNote") Sample.everything,
        LinesLed r.marks ∧ r.Closed := by
  obtain ⟨files_eq, read, _⟩ := comments_closed_iff (Sample.generate_noted "getNote")
  refine ⟨_, Sample.generate_noted "getNote", files_eq, fun r member => ?_⟩
  obtain ⟨led, closed⟩ := read r member
  refine ⟨led, closed.mpr fun _ op inside => ?_⟩
  rw [List.mem_singleton.mp inside]
  decide

/-- An id ends the comment that it stands in. -/
theorem comment_left_early :
    ∃ files, generate (Sample.noted "get*/Note") Sample.everything = .ok files ∧
      files = (renderings (Sample.noted "get*/Note") Sample.everything).map Rendering.file ∧
      ∃ r ∈ renderings (Sample.noted "get*/Note") Sample.everything,
        r.path = requestTypesFile ∧ ¬ r.Closed := by
  let model := Sample.noted "get*/Note"
  let o := Sample.everything.normalized
  have listed : requestTypesRendering o model ∈ renderings model Sample.everything :=
    List.mem_append_left _ (List.mem_append_right _ List.mem_cons_self)
  refine ⟨_, Sample.generate_noted _, (files_renderings _ _).symm, _, listed, rfl,
    fun closed => ?_⟩
  have none := (closed_requestTypesRendering_iff o model).mp closed _ List.mem_cons_self
  exact absurd none (by decide)

end ApiCodec

import ApiCodec.Emit.Generate
import ApiCodec.Proofs.Emit.Rendering

set_option autoImplicit false

namespace ApiCodec.Emit

inductive Import
  | line (name source : String)
  | block (names : List String) (source : String)
  deriving DecidableEq, Repr

namespace Import

def names : Import → List String
  | .line name _ => [name]
  | .block names _ => names

/-- The module that they come from. -/
def source : Import → String
  | .line _ source => source
  | .block _ source => source

def text : Import → String
  | .line name source => "import \x7b " ++ name ++ " \x7d from \"" ++ source ++ "\";\n"
  | .block names source =>
      "import \x7b\n" ++ String.join (names.map fun name => "  " ++ name ++ ",\n") ++
        "\x7d from \"" ++ source ++ "\";\n"

/-- The import of a definition: from the module of its hint, or else from the file of its name,
`leading` being the way to it. -/
def ofDefinition (definitions : Definitions) (leading name : String) : Import :=
  let hint := (Assoc.get? name definitions).bind (·.importFrom)
  .line name (hint.getD (leading ++ name))

end Import

/-- A statement with the values in their places. -/
structure Declaration where
  lead : String
  exported : Bool
  kind : DeclarationKind
  name : String
  rest : String
  deriving DecidableEq, Repr

def Declaration.text (d : Declaration) : String :=
  d.lead ++ d.kind.words d.exported ++ d.name ++ d.rest

def Statement.declaration (scope : Scope) (s : Statement) : Declaration :=
  { lead := writtenAll scope s.lead
    exported := s.exported
    kind := s.kind
    name := writtenAll scope s.name
    rest := writtenAll scope s.rest }

def declarationsOf (scope : Scope) (statements : List Statement) : List Declaration :=
  statements.map (Statement.declaration scope)

def textOf (declarations : List Declaration) : String :=
  String.join (declarations.map Declaration.text)

theorem textOf_append (declarations others : List Declaration) :
    textOf (declarations ++ others) = textOf declarations ++ textOf others := by
  simp only [textOf, List.map_append, String.join_append]

theorem textOf_flatMap {α : Type} (declare : α → List Declaration) (items : List α) :
    textOf (items.flatMap declare) = String.join (items.map fun item => textOf (declare item)) := by
  induction items with
  | nil => rfl
  | cons item rest ih =>
      simp only [List.flatMap_cons, textOf_append, List.map_cons, String.join_cons, ih]

def namesWhere (test : Declaration → Bool) (declarations : List Declaration) : List String :=
  (declarations.filter test).map (·.name)

theorem namesWhere_append (test : Declaration → Bool) (declarations others : List Declaration) :
    namesWhere test (declarations ++ others) =
      namesWhere test declarations ++ namesWhere test others := by
  simp only [namesWhere, List.filter_append, List.map_append]

theorem namesWhere_flatMap {α : Type} (test : Declaration → Bool) (declare : α → List Declaration)
    (items : List α) :
    namesWhere test (items.flatMap declare) =
      items.flatMap fun item => namesWhere test (declare item) := by
  induction items with
  | nil => rfl
  | cons item rest ih => simp only [List.flatMap_cons, namesWhere_append, ih]

/-- Whether a statement passes a test does not depend on the values in it. -/
theorem namesWhere_declarationsOf {test : Declaration → Bool} {passes : Statement → Bool}
    {scope : Scope} (same : ∀ s : Statement, test (s.declaration scope) = passes s)
    (statements : List Statement) :
    namesWhere test (declarationsOf scope statements) =
      ((statements.filter passes).map (·.name)).map (writtenAll scope) := by
  have passing : test ∘ Statement.declaration scope = passes := funext same
  simp only [namesWhere, declarationsOf, List.filter_map, passing, List.map_map]
  rfl

theorem writtenAll_pieces (scope : Scope) (s : Statement) :
    writtenAll scope s.pieces = (s.declaration scope).text := by
  simp only [Statement.pieces, writtenAll_append, writtenAll_cons, written_text, Declaration.text,
    Statement.declaration, String.append_assoc]

/-- Statements are written as what they declare. -/
theorem writtenAll_all (scope : Scope) (statements : List Statement) :
    writtenAll scope (Statement.all statements) = textOf (declarationsOf scope statements) := by
  induction statements with
  | nil => rfl
  | cons s rest ih =>
      have more : textOf (declarationsOf scope (s :: rest)) =
          (s.declaration scope).text ++ textOf (declarationsOf scope rest) := by
        simp only [textOf, declarationsOf, List.map_cons, String.join_cons]
      rw [more, ← ih, ← writtenAll_pieces, ← writtenAll_append]
      rfl

/-- A generated file: its head, its imports and its declarations. -/
structure Source where
  path : String
  head : String
  imports : List Import
  /-- What parts the imports from the declarations. -/
  gap : String
  declarations : List Declaration

namespace Source

def text (s : Source) : String :=
  s.head ++ String.join (s.imports.map Import.text) ++ s.gap ++ textOf s.declarations

def file (s : Source) : GeneratedFile := { path := s.path, content := s.text }

/-- The names that other files can import. -/
def exports (s : Source) : List String := namesWhere (·.exported) s.declarations

/-- The names that stand for values at the top of the file. A type goes by the name of its codec. -/
def identifiers (s : Source) : List String :=
  s.imports.flatMap Import.names ++ namesWhere (fun d => d.kind != .type) s.declarations

end Source

/-- Import lines are those of the definitions they name. -/
theorem written_importLines {scope : Scope} {definitions : Definitions} {leading : String}
    {names : NameSet}
    (imports : Assoc.get? "imports" scope = some (importLinesOf definitions leading names)) :
    importLines.written scope =
      String.join ((names.map (Import.ofDefinition definitions leading)).map Import.text) := by
  simp only [importLines, Piece.written, find?_at1, imports, importLinesOf, itemsOf,
    Option.getD_some, List.map_map]
  congr 1
  apply List.map_congr_left
  intro name _
  simp [Function.comp, importLine, Import.ofDefinition, Import.text, fieldAt, Piece.written,
    Assoc.get?, fieldOf, Json.field?, valueText, String.append_assoc]

theorem listed_importLines {scope : Scope} {definitions : Definitions} {leading : String}
    {names : NameSet}
    (imports : Assoc.get? "imports" scope = some (importLinesOf definitions leading names)) :
    importLines.Listed scope := by
  simp [importLines, Piece.Listed, fieldAt, imports, importLinesOf, itemsOf]

def ModuleKind.statements : ModuleKind → List Statement
  | .object => objectStatements
  | .recursive => recursiveStatements
  | .plain => plainStatements

namespace DefinitionModule

variable (definitions : Definitions) (m : DefinitionModule)

/-- What the template of a module sees. -/
def scope : Scope := scopeOf (m.toJson definitions)

def aliasScope (entry : String × String) : Scope :=
  ("alias", .obj [("name", .str entry.1), ("codec", .str entry.2)]) :: m.scope definitions

/-- The aliases, and after them the definition itself. -/
def declarations : List Declaration :=
  m.context.aliases.flatMap (fun entry =>
      declarationsOf (m.aliasScope definitions entry) aliasStatements) ++
    declarationsOf (m.scope definitions) m.kind.statements

def source : Source :=
  { path := definitionsDir ++ "/" ++ m.name ++ ".ts"
    head := writtenAll (m.scope definitions) definitionHead
    imports := m.context.imports.map (Import.ofDefinition definitions "./")
    gap := "\n"
    declarations := m.declarations definitions }

theorem imports_scope :
    Assoc.get? "imports" (m.scope definitions) =
      some (importLinesOf definitions "./" m.context.imports) := rfl

theorem kind_scope : Assoc.get? "kind" (m.scope definitions) = some (.str m.kind.name) := rfl

theorem written_definitionBody :
    definitionBody.written (m.scope definitions) =
      textOf (declarationsOf (m.scope definitions) m.kind.statements) := by
  rw [← writtenAll_all]
  have kind := m.kind_scope definitions
  cases known : m.kind <;>
    simp [definitionBody, Piece.written, Test.eval, kind, known, ModuleKind.name, isText,
      ModuleKind.statements]

theorem listed_definitionBody : definitionBody.Listed (m.scope definitions) := by
  have kind := m.kind_scope definitions
  obtain ⟨required, known⟩ : ∃ items,
      Assoc.get? "required" (m.scope definitions) = some (.arr items) := ⟨_, rfl⟩
  obtain ⟨optional, alsoKnown⟩ : ∃ items,
      Assoc.get? "optional" (m.scope definitions) = some (.arr items) := ⟨_, rfl⟩
  cases which : m.kind <;>
    simp [definitionBody, Piece.Listed, Test.eval, kind, which, ModuleKind.name, isText,
      Statement.all, Statement.pieces, objectStatements, recursiveStatements, plainStatements,
      typeOfCodec, propertyLines, known, alsoKnown, itemsOf, fieldAt, valueAt]

theorem written_definitionAliases :
    definitionAliases.written (m.scope definitions) =
      textOf (m.context.aliases.flatMap fun entry =>
        declarationsOf (m.aliasScope definitions entry) aliasStatements) := by
  rw [textOf_flatMap]
  have found : Assoc.get? "aliases" (m.scope definitions) = some (.arr (m.context.aliases.map
    fun entry => .obj [("name", .str entry.1), ("codec", .str entry.2)])) := rfl
  simp only [definitionAliases, Piece.written, find?_at1, found, itemsOf, Option.getD_some,
    List.map_map, ← writtenAll_all]
  rfl

theorem listed_definitionAliases : definitionAliases.Listed (m.scope definitions) := by
  refine ⟨_, rfl, ?_⟩
  intro item _
  simp [Statement.all, Statement.pieces, aliasStatements, typeOfCodec, Piece.Listed, fieldAt]

theorem written_definitionTemplate :
    writtenAll (m.scope definitions) definitionTemplate = (m.source definitions).text := by
  have lines := written_importLines (m.imports_scope definitions)
  simp only [definitionTemplate, writtenAll_append, writtenAll_cons, writtenAll_nil, lines,
    written_definitionAliases, written_definitionBody, written_text, Source.text, source,
    declarations, textOf_append, String.append_empty, String.append_assoc]

theorem listed_definitionTemplate : AllListed (m.scope definitions) definitionTemplate := by
  have lines := listed_importLines (m.imports_scope definitions)
  have aliases := m.listed_definitionAliases definitions
  have body := m.listed_definitionBody definitions
  have head : AllListed (m.scope definitions) definitionHead := by
    simp [definitionHead, Piece.Listed]
  rw [definitionTemplate, allListed_append]
  exact ⟨head, lines, trivial, aliases, body, trivial⟩

end DefinitionModule

/-- The file of a definition is the text of its source. -/
theorem definitionFile_eq (o : Options) (definitions : Definitions) (name : String)
    (d : Definition) :
    definitionFile o definitions name d =
      .ok ((DefinitionModule.of o definitions name d).source definitions).file := by
  let m := DefinitionModule.of o definitions name d
  have rendered : render "definition.ts.j2" (m.toJson definitions) =
      .ok (writtenAll (m.scope definitions) definitionTemplate) :=
    render_of_listed rfl (m.listed_definitionTemplate definitions)
  rw [m.written_definitionTemplate] at rendered
  unfold definitionFile
  rw [rendered]
  rfl

namespace RequestType

/-- What the template of an operation sees. -/
def scope (outer : Scope) (r : RequestType) : Scope := ("op", r.toJson) :: outer

def statements (r : RequestType) : List Statement :=
  requestTypeStatement :: if r.decoder.isSome then decoderStatements else []

end RequestType

def requestTypesScope (definitions : Definitions) (types : List RequestType) : Scope :=
  [("requests_module", .str requestsModule),
   ("imports",
     importLinesOf definitions ("./" ++ definitionsDir ++ "/")
       (NameSet.ofList (types.flatMap RequestType.imports))),
   ("operations", .arr (types.map RequestType.toJson))]

def requestTypesSource (definitions : Definitions) (types : List RequestType) : Source :=
  let scope := requestTypesScope definitions types
  { path := requestTypesFile
    head := writtenAll scope requestTypesHead
    imports :=
      (NameSet.ofList (types.flatMap RequestType.imports)).map
        (Import.ofDefinition definitions ("./" ++ definitionsDir ++ "/"))
    gap := ""
    declarations := types.flatMap fun r => declarationsOf (r.scope scope) r.statements }

theorem decoder_scope (outer : Scope) (r : RequestType) :
    fieldOf (Assoc.get? "op" (r.scope outer)) "decoder" =
      some ((r.decoder.map OperationDecoder.toJson).getD .null) := rfl

theorem written_operationPieces (outer : Scope) (r : RequestType) :
    writtenAll (r.scope outer) operationPieces =
      textOf (declarationsOf (r.scope outer) r.statements) := by
  have decoder := decoder_scope outer r
  rw [← writtenAll_all, operationPieces, writtenAll_append]
  have split : Statement.all r.statements =
      requestTypeStatement.pieces ++
        Statement.all (if r.decoder.isSome then decoderStatements else []) := rfl
  rw [split, writtenAll_append]
  cases known : r.decoder <;>
    simp [Piece.written, Test.eval, decoder, known, OperationDecoder.toJson, isTrue, Statement.all]

theorem listed_operationPieces (outer : Scope) (r : RequestType) :
    AllListed (r.scope outer) operationPieces := by
  have decoder := decoder_scope outer r
  rw [operationPieces, allListed_append]
  refine ⟨?_, ?_, trivial⟩
  · simp [Piece.Listed, Statement.pieces, requestTypeStatement, operationComment, fieldAt]
  · cases known : r.decoder with
    | none => simp [Piece.Listed, Test.eval, decoder, known, isTrue]
    | some made =>
        simp [Piece.Listed, Test.eval, decoder, known, OperationDecoder.toJson, isTrue,
          Statement.all, Statement.pieces, decoderStatements, defaultResponsesStatement,
          responsesTypeStatement, decoderStatement, defaultDecoderStatement, fieldAt, innerAt,
          itemsOf]
        simp [fieldOf, Json.field?, Assoc.get?]

theorem imports_requestTypesScope (definitions : Definitions) (types : List RequestType) :
    Assoc.get? "imports" (requestTypesScope definitions types) =
      some (importLinesOf definitions ("./" ++ definitionsDir ++ "/")
        (NameSet.ofList (types.flatMap RequestType.imports))) := rfl

theorem operations_requestTypesScope (definitions : Definitions) (types : List RequestType) :
    Assoc.get? "operations" (requestTypesScope definitions types) =
      some (.arr (types.map RequestType.toJson)) := rfl

theorem listed_requestTypesTemplate (definitions : Definitions) (types : List RequestType) :
    AllListed (requestTypesScope definitions types) requestTypesTemplate := by
  let scope := requestTypesScope definitions types
  have each : (Piece.each "op" (at1 "operations") operationPieces).Listed scope := by
    refine ⟨_, by rw [find?_at1, operations_requestTypesScope]; rfl, ?_⟩
    intro item member
    obtain ⟨r, _, rfl⟩ := List.mem_map.mp member
    exact listed_operationPieces scope r
  have head : AllListed scope requestTypesHead := by
    simp [requestTypesHead, valueAt, Piece.Listed]
  rw [requestTypesTemplate, allListed_append]
  exact ⟨head, listed_importLines (imports_requestTypesScope definitions types), each, trivial⟩

theorem written_requestTypesTemplate (definitions : Definitions) (types : List RequestType) :
    writtenAll (requestTypesScope definitions types) requestTypesTemplate =
      (requestTypesSource definitions types).text := by
  let scope := requestTypesScope definitions types
  have lines := written_importLines (imports_requestTypesScope definitions types)
  have written : (Piece.each "op" (at1 "operations") operationPieces).written scope =
      textOf (types.flatMap fun r => declarationsOf (r.scope scope) r.statements) := by
    simp only [textOf_flatMap, ← written_operationPieces, Piece.written, find?_at1,
      operations_requestTypesScope, scope, itemsOf, Option.getD_some, List.map_map]
    rfl
  simp only [requestTypesTemplate, writtenAll_append, writtenAll_cons, writtenAll_nil, lines,
    written, Source.text, requestTypesSource, scope, String.append_empty, String.append_assoc]

/-- The module of request types is the text of its source. -/
theorem requestTypesModule_eq (o : Options) (definitions : Definitions)
    (operations : List Operation) :
    requestTypesModule o definitions operations =
      .ok (requestTypesSource definitions (operations.map (RequestType.of o))).text := by
  have listed := listed_requestTypesTemplate definitions (operations.map (RequestType.of o))
  rw [← written_requestTypesTemplate]
  exact render_of_listed rfl listed

/-- What the template of the client sees. -/
def clientScope (basePath : Option String) (operations : List Operation) : Scope :=
  [("requests_module", .str requestsModule), ("types_module", .str typesModule),
   ("request_imports", .ofStrings (operations.flatMap clientImports)),
   ("base_path", .str (literal (Text.trimEnd '/' (basePath.getD "")))),
   ("operations", .arr (operations.map clientOperationValue))]

def clientSource (basePath : Option String) (operations : List Operation) : Source :=
  let scope := clientScope basePath operations
  { path := clientFile
    head := writtenAll scope clientHead
    imports := [.block (operations.flatMap clientImports) "./requestTypes"]
    gap := "\n"
    declarations := declarationsOf scope clientStatements }

theorem request_imports_clientScope (basePath : Option String) (operations : List Operation) :
    Assoc.get? "request_imports" (clientScope basePath operations) =
      some (.ofStrings (operations.flatMap clientImports)) := rfl

theorem operations_clientScope (basePath : Option String) (operations : List Operation) :
    Assoc.get? "operations" (clientScope basePath operations) =
      some (.arr (operations.map clientOperationValue)) := rfl

theorem listed_clientTemplate (basePath : Option String) (operations : List Operation) :
    AllListed (clientScope basePath operations) clientTemplate := by
  have names := request_imports_clientScope basePath operations
  have each := operations_clientScope basePath operations
  simp [clientTemplate, Piece.Listed, clientHead, clientImportBlock, names, each, Statement.all,
    Statement.pieces, clientStatements, clientOperation, fieldAt, valueAt, itemsOf, Json.ofStrings]

theorem written_clientTemplate (basePath : Option String) (operations : List Operation) :
    writtenAll (clientScope basePath operations) clientTemplate =
      (clientSource basePath operations).text := by
  let scope := clientScope basePath operations
  have names := request_imports_clientScope basePath operations
  have block : writtenAll scope clientImportBlock =
      (Import.block (operations.flatMap clientImports) "./requestTypes").text ++ "\n" := by
    simp [clientImportBlock, Piece.written, names, scope, itemsOf, Json.ofStrings, Import.text,
      valueAt, Function.comp_def, Assoc.get?, valueText, String.append_assoc]
  simp only [clientTemplate, writtenAll_append, writtenAll_all, block, Source.text, clientSource,
    scope, List.map_cons, List.map_nil, String.join_cons, String.join_nil, String.append_empty,
    String.append_assoc]

/-- The module of the client is the text of its source. -/
theorem clientModule_eq (o : Options) (basePath : Option String) (operations : List Operation) :
    clientModule o basePath operations =
      .ok (clientSource basePath (clientOperations o operations)).text := by
  have listed := listed_clientTemplate basePath (clientOperations o operations)
  rw [← written_clientTemplate]
  exact render_of_listed rfl listed

/-- The modules of all definitions that do not come from modules of their own. -/
def definitionSources (o : Options) (definitions : Definitions) : List Source :=
  (definitions.filter fun entry => entry.2.importFrom.isNone).map fun entry =>
    (DefinitionModule.of o definitions entry.1 entry.2).source definitions

theorem definitionFiles_eq (o : Options) (definitions : Definitions) :
    definitionFiles o definitions = .ok ((definitionSources o definitions).map Source.file) := by
  unfold definitionFiles definitionSources
  rw [List.map_map]
  induction definitions.filter fun entry => entry.2.importFrom.isNone with
  | nil => rfl
  | cons entry rest ih =>
      obtain ⟨name, d⟩ := entry
      rw [List.mapM_cons, ih]
      simp only [definitionFile_eq]
      rfl

def requestTypesSources (o : Options) (model : Model) : List Source :=
  if o.requestTypes then
    [requestTypesSource model.definitions (model.operations.map (RequestType.of o))]
  else []

theorem requestTypesFiles_eq (o : Options) (model : Model) :
    requestTypesFiles o model = .ok ((requestTypesSources o model).map Source.file) := by
  unfold requestTypesFiles requestTypesSources
  rw [requestTypesModule_eq]
  split <;> rfl

/-- The module of the client, if it is asked for. -/
def clientSources (o : Options) (model : Model) : List Source :=
  if o.client then [clientSource model.info.basePath (clientOperations o model.operations)] else []

theorem clientFiles_eq (o : Options) (model : Model) :
    clientFiles o model = .ok ((clientSources o model).map Source.file) := by
  unfold clientFiles clientSources
  rw [clientModule_eq]
  split <;> rfl

end Emit

open Emit

/-- Whether a default type stands for no body, or is a definition. -/
def IsKnownType (definitions : Definitions) (type : String) : Prop :=
  type = absentType ∨ type ∈ Assoc.keys definitions

theorem checkDefaultType_eq_ok_iff (definitions : Definitions) (option type : String) :
    checkDefaultType definitions option type = .ok () ↔ IsKnownType definitions type := by
  have known : Assoc.has type definitions = true ↔ type ∈ Assoc.keys definitions := Assoc.has_iff
  unfold checkDefaultType IsKnownType
  by_cases absent : type = absentType
  · simp [absent]
  · by_cases has : Assoc.has type definitions <;> simp [absent, has, ← known]

theorem checkDefaultTypes_eq_ok_iff (definitions : Definitions) (o : Options) :
    checkDefaultTypes definitions o = .ok () ↔
      (o.requestTypes → IsKnownType definitions o.defaultSuccessType ∧
        IsKnownType definitions o.defaultErrorType) := by
  rw [← checkDefaultType_eq_ok_iff definitions "default_success_type",
    ← checkDefaultType_eq_ok_iff definitions "default_error_type"]
  unfold checkDefaultTypes
  cases o.requestTypes with
  | false => simp
  | true =>
      cases checkDefaultType definitions "default_success_type" o.defaultSuccessType with
      | error e => simp [bind, Except.bind]
      | ok _ => simp [bind, Except.bind]

/-- The generated files as what stands in them. -/
def sources (model : Model) (options : Options) : List Source :=
  let o := options.normalized
  definitionSources o model.definitions ++ requestTypesSources o model ++ clientSources o model

/-- Code is generated unless request types are asked for with default types that are not known, and
the files are the texts of the sources. -/
theorem generate_eq_ok_iff {model : Model} {options : Options} {files : List GeneratedFile} :
    generate model options = .ok files ↔
      (options.normalized.requestTypes →
        IsKnownType model.definitions options.defaultSuccessType ∧
          IsKnownType model.definitions options.defaultErrorType) ∧
      files = (sources model options).map Source.file := by
  have checked := checkDefaultTypes_eq_ok_iff model.definitions options.normalized
  have success : options.normalized.defaultSuccessType = options.defaultSuccessType := rfl
  have error : options.normalized.defaultErrorType = options.defaultErrorType := rfl
  rw [success, error] at checked
  rw [← checked]
  unfold generate sources
  simp only [definitionFiles_eq, requestTypesFiles_eq, clientFiles_eq, List.map_append]
  cases checkDefaultTypes model.definitions options.normalized with
  | error e => simp [bind, Except.bind]
  | ok _ => simp [bind, Except.bind, pure, Except.pure, eq_comm]

end ApiCodec

import ApiCodec.Proofs.Emit.Codecs
import ApiCodec.Proofs.Emit.Identifiers
import ApiCodec.Proofs.Emit.Known
import ApiCodec.Proofs.Emit.Resolution

set_option autoImplicit false

namespace ApiCodec

open Document

namespace Emit

theorem mem_exports_of_statement {scope : Scope} {s : Statement} {statements : List Statement}
    (member : s ∈ statements) (exported : s.exported) :
    writtenAll scope s.name ∈ namesWhere (·.exported) (declarationsOf scope statements) :=
  List.mem_map_of_mem (f := Declaration.name) (List.mem_filter.mpr
    ⟨List.mem_map_of_mem (f := Statement.declaration scope) member, exported⟩)

/-- The module of a definition exports it. -/
theorem name_mem_exports (definitions : Definitions) (m : DefinitionModule) :
    m.name ∈ (m.source definitions).exports := by
  have statement : ∃ s ∈ m.kind.statements, s.exported ∧ s.name = [valueAt "name"] := by
    cases m.kind
    · exact ⟨typeOfCodec (valueAt "name") "", by simp [ModuleKind.statements, objectStatements],
        rfl, rfl⟩
    · exact ⟨_, List.mem_cons_self, rfl, rfl⟩
    · exact ⟨typeOfCodec (valueAt "name") "", by simp [ModuleKind.statements, plainStatements],
        rfl, rfl⟩
  obtain ⟨s, member, exported, named⟩ := statement
  have name : writtenAll (m.scope definitions) s.name = m.name := by
    rw [named]
    exact String.append_empty
  have there : writtenAll (m.scope definitions) s.name ∈
      namesWhere (·.exported) (declarationsOf (m.scope definitions) m.kind.statements) :=
    mem_exports_of_statement member exported
  rw [name] at there
  simp only [Source.exports, DefinitionModule.source, DefinitionModule.declarations,
    namesWhere_append]
  exact List.mem_append_right _ there

/-- The module of request types exports the type of each request, and the default decoder of each
operation that has a decoder. -/
theorem exports_requestTypes (definitions : Definitions) {types : List RequestType}
    {r : RequestType} (member : r ∈ types) :
    r.operation.name.pascal ++ "T" ∈ (requestTypesSource definitions types).exports ∧
      (r.decoder.isSome →
        r.operation.name.camel ++ "DefaultDecoder" ∈
          (requestTypesSource definitions types).exports) := by
  let outer := requestTypesScope definitions types
  have pascal : (fieldAt "op" "pascal").written (r.scope outer) = r.operation.name.pascal := rfl
  have camel : (fieldAt "op" "camel").written (r.scope outer) = r.operation.name.camel := rfl
  have exported : ∀ s ∈ r.statements, s.exported →
      writtenAll (r.scope outer) s.name ∈ (requestTypesSource definitions types).exports := by
    intro s inside exported
    simp only [Source.exports, requestTypesSource, namesWhere_flatMap]
    exact List.mem_flatMap.mpr ⟨r, member, mem_exports_of_statement inside exported⟩
  constructor
  · have type := exported requestTypeStatement List.mem_cons_self rfl
    simpa [requestTypeStatement, pascal] using type
  · intro decoded
    have inside : defaultDecoderStatement ∈ r.statements := by
      simp [RequestType.statements, decoded, decoderStatements]
    have decoder := exported defaultDecoderStatement inside rfl
    simpa [defaultDecoderStatement, camel] using decoder

theorem within_gathered (o : Options) (definitions : Definitions) (name : String) (d : Definition) :
    (DefinitionModule.gathered o definitions name d).Within d.occurrences := by
  have codec : ∀ other ∈ (definitionCodec o d).imports, other ∈ d.occurrences :=
    fun other => mem_occurrences_of_definitionCodec o other d
  have type : ∀ other ∈ (definitionType o d).imports, other ∈ d.occurrences :=
    fun other => mem_occurrences_of_definitionType o
  unfold DefinitionModule.gathered
  split
  · apply within_hoistedProperties
    intro property member other named
    have occurs := mem_occurrences_of_nodeCodec o other property.2 named
    obtain ⟨_, _, _, properties, _, _, _, _, _, _, _, _, _, _⟩ := d
    simp only [Definition.occurrences, List.mem_append, propertyOccurrences_eq, List.mem_flatMap]
    exact Or.inl (Or.inl (Or.inl ⟨property, member, occurs⟩))
  · have empty := Context.within_empty d.occurrences
    split
    · apply empty.importAll
      intro other named
      rcases List.mem_append.mp named with named | named
      · exact type other named
      · exact codec other named
    · exact empty.importAll codec

/-- A module imports only what occurs in its definition. -/
theorem mem_occurrences_of_mem_imports {o : Options} {definitions : Definitions} {name : String}
    {d : Definition} {other : String}
    (imported : other ∈ (DefinitionModule.of o definitions name d).context.imports) :
    other ∈ d.occurrences := by
  rw [DefinitionModule.context_of] at imported
  exact within_gathered o definitions name d other (List.mem_filter.mp imported).1

/-- A parameter's type names only what occurs in it. -/
theorem mem_occurrences_of_parameterType {o : Options} {type : TypeRef} {name : String}
    (named : name ∈ (parameterType o type).imports) : name ∈ type.occurrences := by
  cases type with
  | named other => exact named
  | inline d => exact mem_occurrences_of_definitionType o named
  | file => cases named
  | binary => cases named

theorem exists_parameter_of_mem_imports {o : Options} {parameters : List Parameter} {name : String}
    (named : name ∈ (parametersType o parameters).imports) :
    ∃ p ∈ parameters, name ∈ p.type.occurrences := by
  unfold parametersType at named
  split at named
  · cases named
  · simp only [imports_mapText, imports_join, List.flatMap_map, List.mem_flatMap] at named
    obtain ⟨p, member, named⟩ := named
    exact ⟨p, member, mem_occurrences_of_parameterType named⟩

theorem exists_entry_of_mem_imports {entries : List DecoderEntry} {name : String}
    (named : name ∈ (responsesType entries).imports) :
    ∃ entry ∈ entries, entry.strategy.type? = some name := by
  unfold responsesType at named
  split at named
  · cases named
  · simp only [imports_mapText, imports_join, List.flatMap_map, List.mem_flatMap] at named
    obtain ⟨entry, member, named⟩ := named
    refine ⟨entry, member, ?_⟩
    cases strategy : entry.strategy <;> simp_all [payloadType, Strategy.type?]

/-- The type that a response is decoded to is the one that it names, or a default type that stands
for a body. -/
theorem type?_ofType {defaults : DefaultTypes} {type : ResponseType} {name : String}
    (decoded : (Strategy.ofType defaults type).type? = some name) :
    type.name? = some name ∨
      name ≠ absentType ∧ (name = defaults.success ∨ name = defaults.error) := by
  cases type with
  | named other => exact Or.inl decoded
  | binary => cases decoded
  | defaultSuccess =>
      by_cases absent : defaults.success = absentType
      · simp [Strategy.ofType, absent, Strategy.type?] at decoded
      · simp only [Strategy.ofType, absent, if_false, Strategy.type?, Option.some.injEq] at decoded
        exact Or.inr ⟨decoded ▸ absent, Or.inl decoded.symm⟩
  | defaultError =>
      by_cases absent : defaults.error = absentType
      · simp [Strategy.ofType, absent, Strategy.type?] at decoded
      · simp only [Strategy.ofType, absent, if_false, Strategy.type?, Option.some.injEq] at decoded
        exact Or.inr ⟨decoded ▸ absent, Or.inr decoded.symm⟩

/-- Request types import what their operation uses, and the default types that stand for a body. -/
theorem mem_imports_requestType {o : Options} {op : Operation} {name : String}
    (imported : name ∈ (RequestType.of o op).imports) :
    name ∈ Workspace.usedNames op.parameters op.responses ∨
      name ≠ absentType ∧ (name = o.defaultSuccessType ∨ name = o.defaultErrorType) := by
  rw [Workspace.mem_usedNames]
  rcases List.mem_append.mp imported with named | named
  · obtain ⟨p, member, occurs⟩ := exists_parameter_of_mem_imports named
    exact Or.inl (Or.inl (List.mem_flatMap.mpr ⟨p, member, occurs⟩))
  · obtain ⟨entry, member, decoded⟩ := exists_entry_of_mem_imports named
    obtain ⟨response, inside, made⟩ := List.mem_filterMap.mp member
    obtain ⟨status, _, rfl⟩ := Option.map_eq_some_iff.mp made
    rcases type?_ofType decoded with named | default
    · exact Or.inl (Or.inr (List.mem_filterMap.mpr ⟨response, inside, named⟩))
    · exact Or.inr default

/-- Whether an import from a path leads to a generated file that exports all its names. -/
def Import.Finds (i : Import) (path : String) (generated : List Source) : Prop :=
  ∃ t ∈ generated, t.path = i.target path ∧ ∀ name ∈ i.names, name ∈ t.exports

theorem definitionPath_ne_of_notMem {name path : String} (plain : '/' ∉ path.toList) :
    path ≠ definitionPath name := by
  rintro rfl
  rw [toList_definitionPath] at plain
  exact plain (List.mem_append_right _ List.mem_cons_self)

/-- The cases of a generated file. -/
theorem mem_sources_cases {model : Model} {options : Options} {s : Source}
    (member : s ∈ sources model options) :
    (∃ entry ∈ model.definitions, entry.2.importFrom = none ∧
        s = (DefinitionModule.of options.normalized model.definitions entry.1 entry.2).source
          model.definitions) ∨
      s = requestTypesSource model.definitions
          (model.operations.map (RequestType.of options.normalized)) ∧
        options.normalized.requestTypes ∨
      s = clientSource model.info.basePath
          (clientOperations options.normalized model.operations) ∧ options.client := by
  unfold sources at member
  simp only [List.mem_append] at member
  rcases member with (member | member) | member
  · obtain ⟨entry, inside, rfl⟩ := List.mem_map.mp member
    obtain ⟨inside, own⟩ := List.mem_filter.mp inside
    exact Or.inl ⟨entry, inside, by simpa using own, rfl⟩
  · unfold requestTypesSources at member
    split at member
    · rename_i asked
      exact Or.inr (Or.inl ⟨List.mem_singleton.mp member, asked⟩)
    · cases member
  · unfold clientSources at member
    split at member
    · rename_i asked
      exact Or.inr (Or.inr ⟨List.mem_singleton.mp member, asked⟩)
    · cases member

/-- A file at the path of a definition is that of a definition without a module of its own. -/
theorem exists_entry_of_path {model : Model} {options : Options} {s : Source} {name : String}
    (member : s ∈ sources model options) (path : s.path = definitionPath name) :
    ∃ entry ∈ model.definitions, entry.1 = name ∧ entry.2.importFrom = none := by
  rcases mem_sources_cases member with ⟨entry, inside, own, rfl⟩ | ⟨rfl, _⟩ | ⟨rfl, _⟩
  · exact ⟨entry, inside, definitionPath_injective path, own⟩
  · have plain : '/' ∉ requestTypesFile.toList := by decide
    exact absurd path (definitionPath_ne_of_notMem plain)
  · have plain : '/' ∉ clientFile.toList := by decide
    exact absurd path (definitionPath_ne_of_notMem plain)

/-- A definition without a module of its own has a file that exports it. -/
theorem exists_source_of_definition {model : Model} (options : Options) {name : String}
    {d : Definition} (found : Assoc.get? name model.definitions = some d)
    (own : d.importFrom = none) :
    ∃ t ∈ sources model options, t.path = definitionPath name ∧ name ∈ t.exports := by
  let m := DefinitionModule.of options.normalized model.definitions name d
  refine ⟨m.source model.definitions, ?_, rfl, name_mem_exports model.definitions m⟩
  have inside : m.source model.definitions ∈
      definitionSources options.normalized model.definitions :=
    List.mem_map.mpr ⟨(name, d), List.mem_filter.mpr ⟨Assoc.mem_of_get? found, by simp [own]⟩, rfl⟩
  exact List.mem_append_left _ (List.mem_append_left _ inside)

/-- The import of a definition leads to its file, or it is from the module of its hint and there is
no such file. -/
theorem import_ofDefinition {model : Model} {options : Options} {path leading name source : String}
    (keys : (Assoc.keys model.definitions).Nodup) (known : name ∈ Assoc.keys model.definitions)
    (leads : (Import.line name (leading ++ name)).target path = definitionPath name)
    (imported : Import.ofDefinition model.definitions leading name = .line name source) :
    ∃ d, Assoc.get? name model.definitions = some d ∧
      (d.importFrom = none → (Import.line name source).Finds path (sources model options)) ∧
      ∀ hint, d.importFrom = some hint →
        source = hint ∧ ∀ s ∈ sources model options, s.path ≠ definitionPath name := by
  obtain ⟨d, found⟩ := Assoc.mem_keys_iff.mp known
  have imported : d.importFrom.getD (leading ++ name) = source := by
    simpa only [Import.ofDefinition, found, Option.bind_some, Import.line.injEq, true_and]
      using imported
  refine ⟨d, found, ?_, ?_⟩
  · intro own
    rw [own, Option.getD_none] at imported
    subst imported
    obtain ⟨t, there, path, exported⟩ := exists_source_of_definition options found own
    refine ⟨t, there, path.trans leads.symm, ?_⟩
    intro other member
    rw [List.mem_singleton.mp member]
    exact exported
  · intro hint hinted
    rw [hinted, Option.getD_some] at imported
    refine ⟨imported.symm, ?_⟩
    intro s there path
    obtain ⟨entry, inside, rfl, own⟩ := exists_entry_of_path there path
    have same := Assoc.get?_of_mem keys inside
    rw [found] at same
    cases Option.some.inj same
    rw [hinted] at own
    cases own

/-- The imports of generated files: of definitions, the way from the file being that to the file of
the definition, and the block of the client. -/
theorem mem_imports_cases {model : Model} {options : Options} (closed : model.Closed)
    (plain : ∀ name ∈ Assoc.keys model.definitions, '/' ∉ name.toList)
    (defaults : options.normalized.requestTypes →
      IsKnownType model.definitions options.defaultSuccessType ∧
        IsKnownType model.definitions options.defaultErrorType)
    {s : Source} {i : Import} (member : s ∈ sources model options) (imported : i ∈ s.imports) :
    (∃ leading, ∃ name ∈ Assoc.keys model.definitions,
      i = Import.ofDefinition model.definitions leading name ∧
        (Import.line name (leading ++ name)).target s.path = definitionPath name) ∨
      options.client ∧ s.path = clientFile ∧
        i = .block ((clientOperations options.normalized model.operations).flatMap clientImports)
          "./requestTypes" := by
  rcases mem_sources_cases member with ⟨entry, inside, _, rfl⟩ | ⟨rfl, asked⟩ | ⟨rfl, asked⟩
  · obtain ⟨name, named, rfl⟩ := List.mem_map.mp imported
    have known : name ∈ Assoc.keys model.definitions :=
      closed.definitions entry inside name
        (Definition.mem_names.mpr (mem_occurrences_of_mem_imports named))
    have from_ : '/' ∉ entry.1.toList := plain entry.1 (List.mem_map_of_mem inside)
    exact Or.inl ⟨"./", name, known, rfl, target_from_definition (plain name known) from_⟩
  · obtain ⟨name, named, rfl⟩ := List.mem_map.mp imported
    obtain ⟨r, there, named⟩ := List.mem_flatMap.mp (NameSet.mem_ofList.mp named)
    obtain ⟨op, inside, rfl⟩ := List.mem_map.mp there
    have known : name ∈ Assoc.keys model.definitions := by
      rcases mem_imports_requestType named with used | ⟨present, rfl | rfl⟩
      · exact closed.operations op inside name used
      · exact (defaults asked).1.resolve_left present
      · exact (defaults asked).2.resolve_left present
    exact Or.inl ⟨"./" ++ definitionsDir ++ "/", name, known, rfl,
      target_from_requestTypes (plain name known)⟩
  · exact Or.inr ⟨asked, rfl, List.mem_singleton.mp imported⟩

/-- The block of the client finds the request types, which export all of it. -/
theorem clientImports_find {model : Model} {options : Options} (asked : options.client) :
    (Import.block ((clientOperations options.normalized model.operations).flatMap clientImports)
      "./requestTypes").Finds clientFile (sources model options) := by
  have requested : options.normalized.requestTypes := by simp [Options.normalized, asked]
  have decoded : options.normalized.responseDecoders := by simp [Options.normalized, asked]
  let types := model.operations.map (RequestType.of options.normalized)
  refine ⟨requestTypesSource model.definitions types, ?_, (target_from_client _).symm, ?_⟩
  · have inside : requestTypesSource model.definitions types ∈
        requestTypesSources options.normalized model := by
      simp [requestTypesSources, requested, types]
    exact List.mem_append_left _ (List.mem_append_right _ inside)
  · intro name member
    obtain ⟨op, inside, named⟩ := List.mem_flatMap.mp member
    obtain ⟨inside, planned⟩ := List.mem_filter.mp inside
    have there : RequestType.of options.normalized op ∈ types := List.mem_map_of_mem inside
    obtain ⟨type, decoder⟩ := exports_requestTypes model.definitions there
    have hasDecoder : (RequestType.of options.normalized op).decoder.isSome := by
      simp [RequestType.of, decoded, planned]
    simp only [clientImports, List.mem_cons, List.not_mem_nil, or_false] at named
    rcases named with rfl | rfl
    · exact type
    · exact decoder hasDecoder

end Emit

open Emit

/-- What a generated file imports is there. Let the document declare no definition twice, no name be
reported as unknown and no name of a definition hold a slash. Then a definition without a module of
its own is imported from a generated file that exports it, one with a hint from the module of the
hint, and no file is generated for it; and the names that the client imports are exported by the
request types, which are generated. -/
theorem imports_closed {document : Document} {fragments : Fragments} {model : Model}
    {options : Options} {files : List GeneratedFile}
    (keys : (Assoc.keys (Catalog.ofDocument document).definitions).Nodup)
    (built : Model.ofDocument document fragments = .ok model) (known : model.ReportsNoUnknown)
    (plain : ∀ name ∈ Assoc.keys model.definitions, '/' ∉ name.toList)
    (success : generate model options = .ok files) :
    files = (sources model options).map Source.file ∧
      (∀ s ∈ sources model options, ∀ name source, Import.line name source ∈ s.imports →
        ∃ d, Assoc.get? name model.definitions = some d ∧
          (d.importFrom = none →
            (Import.line name source).Finds s.path (sources model options)) ∧
          ∀ hint, d.importFrom = some hint →
            source = hint ∧ ∀ file ∈ files, file.path ≠ definitionPath name) ∧
      ∀ s ∈ sources model options, ∀ names source, Import.block names source ∈ s.imports →
        s.path = clientFile ∧ (Import.block names source).target s.path = requestTypesFile ∧
          (Import.block names source).Finds s.path (sources model options) := by
  have closed := Model.closed_of_ofDocument keys built known
  obtain ⟨defaults, rfl⟩ := generate_eq_ok_iff.mp success
  refine ⟨rfl, ?_, ?_⟩
  · intro s member name source imported
    rcases mem_imports_cases closed plain defaults member imported with
      ⟨leading, other, there, same, leads⟩ | ⟨_, _, same⟩
    · obtain rfl : name = other := (Import.line.inj same).1
      obtain ⟨d, found, own, hinted⟩ := import_ofDefinition closed.keys there leads same.symm
      refine ⟨d, found, own, fun hint known => ⟨(hinted hint known).1, ?_⟩⟩
      intro file generated
      obtain ⟨t, inside, rfl⟩ := List.mem_map.mp generated
      exact (hinted hint known).2 t inside
    · cases same
  · intro s member names source imported
    rcases mem_imports_cases closed plain defaults member imported with
      ⟨leading, other, _, same, _⟩ | ⟨asked, path, same⟩
    · cases same
    · rw [same, path]
      exact ⟨rfl, target_from_client _, clientImports_find asked⟩

/-- A path with one operation, which answers with a definition or with an error. -/
def Sample.storePath : PathItem :=
  { summary := none, description := none, parameters := [], servers := none, path? := none
    entries :=
      [("get", .obj
        [("operationId", .str "listPets"),
         ("responses", .obj
           [("200", .obj
              [("description", .str ""), ("schema", Json.reference "#/definitions/Pet")]),
            ("404", .obj [("description", .str "")])])])] }

/-- A document with a definition that refers to another, which comes from a module of its own. -/
def Sample.store : Document :=
  .swagger
    { version := "2.0", info := .empty, host := none, basePath := none, schemes := []
      consumes := [], produces := [], paths := [("/pets", Sample.storePath)]
      definitions :=
        [("Pet", .object [("tag", .ref "#/definitions/Tag")]),
         ("Tag", .inline
            { Schema.empty with types := some (.one .string), importFrom := some "tags" })]
      parameters := [], responses := [], securityDefinitions := [], security := [], tags := [] }

/-- A client, with the second definition for errors. -/
def Sample.storeOptions : Options := { client := true, defaultErrorType := "Tag" }

theorem imports_closed_store :
    ∃ model files, Model.ofDocument Sample.store [] = .ok model ∧ model.ReportsNoUnknown ∧
      (∀ name ∈ Assoc.keys model.definitions, '/' ∉ name.toList) ∧
      generate model Sample.storeOptions = .ok files ∧
      (Import.line "Pet" "./definitions/Pet").Finds requestTypesFile
        (sources model Sample.storeOptions) ∧
      (∀ file ∈ files, file.path ≠ definitionPath "Tag") ∧
      (Import.block ["ListPetsT", "listPetsDefaultDecoder"] "./requestTypes").Finds clientFile
        (sources model Sample.storeOptions) := by
  obtain ⟨model, built, facts⟩ := exists_ok_of_map (x := Model.ofDocument Sample.store [])
    (f := fun m => decide (m.diagnostics = [] ∧
      m.definitions.map (fun entry => (entry.1, entry.2.importFrom)) =
        [("Pet", none), ("Tag", some "tags")] ∧
      (requestTypesSources Sample.storeOptions.normalized m).map Source.imports =
        [[.line "Pet" "./definitions/Pet", .line "Tag" "tags"]] ∧
      (clientSources Sample.storeOptions.normalized m).map Source.imports =
        [[.block ["ListPetsT", "listPetsDefaultDecoder"] "./requestTypes"]]))
    (b := true) (by decide +kernel)
  obtain ⟨quiet, hints, requestTypes, client⟩ := of_decide_eq_true facts
  have names : Assoc.keys model.definitions = ["Pet", "Tag"] := by
    have first := congrArg (List.map Prod.fst) hints
    rw [List.map_map] at first
    exact first
  have hintOf : ∀ name d, Assoc.get? name model.definitions = some d →
      Assoc.get? name [("Pet", none), ("Tag", some "tags")] = some d.importFrom := by
    intro name d found
    rw [← hints, Assoc.get?_map, found]
    rfl
  have known : model.ReportsNoUnknown := by
    intro diagnostic member
    rw [quiet] at member
    cases member
  have plain : ∀ name ∈ Assoc.keys model.definitions, '/' ∉ name.toList := by
    rw [names]
    decide
  have success : generate model Sample.storeOptions =
      .ok ((sources model Sample.storeOptions).map Source.file) := by
    refine generate_eq_ok_iff.mpr ⟨fun _ => ⟨Or.inl rfl, Or.inr ?_⟩, rfl⟩
    rw [names]
    decide
  obtain ⟨_, lines, blocks⟩ := imports_closed (by decide) built known plain success
  obtain ⟨s, requested, imports⟩ := List.map_eq_singleton_iff.mp requestTypes
  have there : s ∈ sources model Sample.storeOptions := by
    simp [sources, requested]
  have petLine : Import.line "Pet" "./definitions/Pet" ∈ s.imports := by
    rw [imports]
    exact List.mem_cons_self
  have tagLine : Import.line "Tag" "tags" ∈ s.imports := by
    rw [imports]
    exact List.mem_cons_of_mem _ List.mem_cons_self
  obtain ⟨pet, foundPet, own, _⟩ := lines s there "Pet" "./definitions/Pet" petLine
  obtain ⟨tag, foundTag, _, away⟩ := lines s there "Tag" "tags" tagLine
  obtain ⟨t, clients, block⟩ := List.map_eq_singleton_iff.mp client
  have clientThere : t ∈ sources model Sample.storeOptions := by
    simp [sources, clients]
  obtain ⟨clientPath, _, finds⟩ := blocks t clientThere _ "./requestTypes"
    (by rw [block]; exact List.mem_cons_self)
  refine ⟨model, _, built, known, plain, success, ?_, ?_, ?_⟩
  · have path : s.path = requestTypesFile := congrArg Source.path
      (List.singleton_inj.mp requested.symm)
    rw [← path]
    exact own (Option.some.inj (hintOf "Pet" pet foundPet)).symm
  · exact (away "tags" (Option.some.inj (hintOf "Tag" tag foundTag)).symm).2
  · rw [← clientPath]
    exact finds

end ApiCodec

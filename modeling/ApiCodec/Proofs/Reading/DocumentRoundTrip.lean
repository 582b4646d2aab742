import ApiCodec.Proofs.Reading.SchemaRoundTrip

set_option autoImplicit false

namespace ApiCodec

open Document Shape

namespace Document

theorem OrRef.readsBack {α : Type} {union : String} {read : Json → Result α} {write : α → Json}
    (values : ∀ value, ReadsBack read write value)
    (plain : ∀ a, reference? (write a) = none) (value : Json) :
    ReadsBack (OrRef.read union read) (OrRef.write write) value := by
  intro node success
  unfold OrRef.read at success
  split at success
  · cases Except.ok.inj success
    rfl
  · split at success
    · rename_i a found
      cases Except.ok.inj success
      simp only [OrRef.read, OrRef.write, plain a, values value a found]
    · cases success

theorem OrRef.isNull_write {α : Type} {write : α → Json} (solid : ∀ a, (write a).isNull = false)
    (node : OrRef α) : (node.write write).isNull = false := by
  cases node with
  | ref path => rfl
  | inline a => exact solid a

theorem ParameterLocation.readsBack (value : Json) :
    ReadsBack (choice ParameterLocation.choices) (fun location => .str location.name) value := by
  intro location _
  cases location <;> rfl

theorem Parameter.readsBack (value : Json) : ReadsBack Parameter.read Parameter.write value := by
  intro p success
  obtain ⟨r, opened, _, name, location, _, required, deprecated, schema, _, _, items, values,
    default, _, _, explode⟩ := Parameter.read_eq_ok_iff.mp success
  have inside := Record.inside_of_record opened
  refine Parameter.read_eq_ok_iff.mpr
    ⟨.ofFields _ _ _, rfl, Record.ends_ofFields,
      Record.required_again inside (fun part _ => string_readsBack part) name ?_,
      Record.required_again inside (fun part _ => ParameterLocation.readsBack part) location ?_,
      Record.optionalString_ofFields ?_,
      Record.defaulted_again inside (fun part _ => bool_readsBack part) rfl required ?_,
      Record.optional_again inside (fun part _ => bool_readsBack part) (fun _ => rfl) deprecated ?_,
      Record.optional_again inside (fun part _ => SchemaNode.readsBack part)
        SchemaNode.isNull_write schema ?_,
      Record.optional_ofFields ?_ fun types _ => ⟨types.isNull_write, fun _ => types.read_write⟩,
      Record.optionalString_ofFields ?_,
      Record.optional_again inside (fun part _ => ItemsSchema.readsBack part)
        ItemsSchema.isNull_write items ?_,
      Record.list_again inside (fun part _ => any_readsBack part) values ?_,
      Record.optionalAny_again inside default ?_,
      Limits.gather_ofFields ?_,
      Record.optionalString_ofFields ?_,
      Record.optional_again inside (fun part _ => bool_readsBack part) (fun _ => rfl) explode ?_⟩
  all_goals
    simp [Assoc.get?_append, Limits.names, Limits.get?_write_of_notMem, writeItems_eq]

theorem Parameter.reference?_write (p : Parameter) : reference? p.write = none := by
  apply reference?_obj
  simp [Assoc.get?_append, Limits.names, Limits.get?_write_of_notMem, writeItems_eq]

theorem ParameterNode.readsBack (value : Json) :
    ReadsBack ParameterNode.read ParameterNode.write value :=
  OrRef.readsBack Parameter.readsBack Parameter.reference?_write value

theorem listOf_readsBack {α : Type} {read : Json → Result α} {write : α → Json}
    (items : ∀ value, ReadsBack read write value) (value : Json) :
    ReadsBack (fun v => listOf v fun w _ => read w) (fun as => .arr (as.map write)) value := by
  intro as success
  have again : ∀ a ∈ as, read (write a) = .ok a :=
    of_listOf success fun part _ a _ found => items part a found
  exact listOf_map fun a member _ => again a member

theorem mapOf_readsBack {α : Type} {read : Json → Result α} {write : α → Json}
    (values : ∀ value, ReadsBack read write value) (value : Json) :
    ReadsBack (fun v => mapOf v fun w _ => read w) (fun map => .obj (mapValues write map)) value := by
  intro map success
  have again : ∀ entry ∈ map, read (write entry.2) = .ok entry.2 :=
    of_mapOf success (P := fun a => read (write a) = .ok a) fun part _ a _ found => values part a found
  exact mapOf_mapValues (nodup_keys_mapOf success) fun entry member _ => again entry member

theorem Encoding.readsBack (value : Json) : ReadsBack Encoding.read Encoding.write value := by
  intro e success
  obtain ⟨r, opened, _, _, headers⟩ := Encoding.read_eq_ok_iff.mp success
  have inside := Record.inside_of_record opened
  refine Encoding.read_eq_ok_iff.mpr
    ⟨.ofFields _ _ _, rfl, Record.ends_ofFields,
      Record.optionalString_ofFields ?_,
      Record.map_again inside (fun part _ => any_readsBack part) headers ?_⟩
  all_goals simp [Assoc.get?_append]

theorem MediaType.readsBack (value : Json) : ReadsBack MediaType.read MediaType.write value := by
  intro m success
  obtain ⟨r, opened, _, schema, encoding, sample⟩ := MediaType.read_eq_ok_iff.mp success
  have inside := Record.inside_of_record opened
  refine MediaType.read_eq_ok_iff.mpr
    ⟨.ofFields _ _ _, rfl, Record.ends_ofFields,
      Record.optional_again inside (fun part _ => SchemaNode.readsBack part)
        SchemaNode.isNull_write schema ?_,
      Record.map_again inside (fun part _ => Encoding.readsBack part) encoding ?_,
      Record.optionalAny_again inside sample ?_⟩
  all_goals simp [Assoc.get?_append]

theorem Response.readsBack (value : Json) : ReadsBack Response.read Response.write value := by
  intro response success
  obtain ⟨r, opened, _, description, schema, content, headers⟩ :=
    Response.read_eq_ok_iff.mp success
  have inside := Record.inside_of_record opened
  refine Response.read_eq_ok_iff.mpr
    ⟨.ofFields _ _ _, rfl, Record.ends_ofFields,
      Record.defaulted_again inside (fun part _ => string_readsBack part) rfl description ?_,
      Record.optional_again inside (fun part _ => SchemaNode.readsBack part)
        SchemaNode.isNull_write schema ?_,
      Record.map_again inside (fun part _ => MediaType.readsBack part) content ?_,
      Record.map_again inside (fun part _ => any_readsBack part) headers ?_⟩
  all_goals simp [Assoc.get?_append]

theorem Response.reference?_write (response : Response) : reference? response.write = none := by
  apply reference?_obj
  simp [Assoc.get?_append]

theorem ResponseNode.readsBack (value : Json) :
    ReadsBack ResponseNode.read ResponseNode.write value :=
  OrRef.readsBack Response.readsBack Response.reference?_write value

theorem RequestBody.readsBack (value : Json) : ReadsBack RequestBody.read RequestBody.write value := by
  intro body success
  obtain ⟨r, opened, _, _, content, required⟩ := RequestBody.read_eq_ok_iff.mp success
  have inside := Record.inside_of_record opened
  refine RequestBody.read_eq_ok_iff.mpr
    ⟨.ofFields _ _ _, rfl, Record.ends_ofFields,
      Record.optionalString_ofFields ?_,
      Record.required_again inside (fun part _ => mapOf_readsBack MediaType.readsBack part)
        content ?_,
      Record.defaulted_again inside (fun part _ => bool_readsBack part) rfl required ?_⟩
  all_goals simp [Assoc.get?_append]

theorem RequestBody.reference?_write (body : RequestBody) : reference? body.write = none := by
  apply reference?_obj
  simp [Assoc.get?_append]

theorem RequestBodyNode.readsBack (value : Json) :
    ReadsBack RequestBodyNode.read RequestBodyNode.write value :=
  OrRef.readsBack RequestBody.readsBack RequestBody.reference?_write value

theorem Operation.readsBack (value : Json) : ReadsBack Operation.read Operation.write value := by
  intro op success
  obtain ⟨r, opened, _, _, _, _, _, parameters, requestBody, responses, _, _, deprecated, security⟩ :=
    Operation.read_eq_ok_iff.mp success
  have inside := Record.inside_of_record opened
  refine Operation.read_eq_ok_iff.mpr
    ⟨.ofFields _ _ _, rfl, Record.ends_ofFields,
      Record.optionalString_ofFields ?_, Record.optionalString_ofFields ?_,
      Record.optionalString_ofFields ?_, Record.strings_ofFields ?_,
      Record.list_again inside (fun part _ => ParameterNode.readsBack part) parameters ?_,
      Record.optional_again inside (fun part _ => RequestBodyNode.readsBack part)
        (OrRef.isNull_write fun _ => rfl) requestBody ?_,
      Record.map_again inside (fun part _ => ResponseNode.readsBack part) responses ?_,
      Record.strings_ofFields ?_, Record.strings_ofFields ?_,
      Record.optional_again inside (fun part _ => bool_readsBack part) (fun _ => rfl) deprecated ?_,
      Record.optional_again inside
        (fun part _ => listOf_readsBack SecurityRequirement.readsBack part) (fun _ => rfl)
        security ?_⟩
  all_goals simp [Assoc.get?_append]

def PathItem.declared (item : PathItem) : WrittenFields :=
  givenString "summary" item.summary ++
  givenString "description" item.description ++
  items "parameters" (item.parameters.map ParameterNode.write) ++
  given "servers" id item.servers ++
  givenString "$ref" item.path?

theorem PathItem.name_of_mem_declared {item : PathItem} {field : String × Json}
    (member : field ∈ item.declared) : field.1 ∈ PathItem.names := by
  simp only [declared, List.mem_append] at member
  rcases member with (((member | member) | member) | member) | member
  · simp [name_of_mem_given member, PathItem.names]
  · simp [name_of_mem_given member, PathItem.names]
  · simp [name_of_mem_items member, PathItem.names]
  · simp [name_of_mem_given member, PathItem.names]
  · simp [name_of_mem_given member, PathItem.names]

theorem PathItem.get?_write {item : PathItem}
    (foreign : ∀ entry ∈ item.entries, entry.1 ∉ PathItem.names)
    {name : String} (member : name ∈ PathItem.names) :
    Assoc.get? name (item.declared ++ item.entries) = Assoc.get? name item.declared := by
  have absent : Assoc.get? name item.entries = none := by
    refine Assoc.get?_eq_none_iff.mpr fun known => ?_
    obtain ⟨entry, inside, rfl⟩ := List.mem_map.mp known
    exact foreign entry inside member
  rw [Assoc.get?_append, absent, Option.or_none]

theorem PathItem.filter_write {item : PathItem}
    (foreign : ∀ entry ∈ item.entries, entry.1 ∉ PathItem.names) :
    (item.declared ++ item.entries).filter (fun field => !PathItem.names.contains field.1) =
      item.entries := by
  have none : item.declared.filter (fun field => !PathItem.names.contains field.1) = [] := by
    refine List.filter_eq_nil_iff.mpr fun field member => ?_
    simpa using name_of_mem_declared member
  have all : item.entries.filter (fun field => !PathItem.names.contains field.1) = item.entries := by
    refine List.filter_eq_self.mpr fun entry member => ?_
    simpa using foreign entry member
  rw [List.filter_append, none, all, List.nil_append]

theorem PathItem.readsBack (value : Json) : ReadsBack PathItem.read PathItem.write value := by
  intro item success
  obtain ⟨r, opened, _, _, _, parameters, servers, _, others⟩ := PathItem.read_eq_ok_iff.mp success
  have inside := Record.inside_of_openRecord opened
  have distinct : (Assoc.keys item.entries).Nodup := others ▸ Assoc.nodup_keys_ofList _
  have foreign : ∀ entry ∈ item.entries, entry.1 ∉ PathItem.names := by
    intro entry member
    rw [others] at member
    exact Record.notMem_names_of_mem_others opened (Assoc.mem_ofList member)
  have written : item.write = .obj (item.declared ++ item.entries) := rfl
  rw [written]
  refine PathItem.read_eq_ok_iff.mpr
    ⟨.ofFields _ _ _, rfl, Record.ends_ofFields,
      Record.optionalString_ofFields ?_, Record.optionalString_ofFields ?_,
      Record.list_again inside (fun part _ => ParameterNode.readsBack part) parameters ?_,
      Record.optionalAny_again inside servers ?_,
      Record.optionalString_ofFields ?_, ?_⟩
  case refine_6 =>
    rw [Record.others_ofFields, PathItem.filter_write foreign, Assoc.ofList_of_nodup distinct]
  all_goals
    rw [PathItem.get?_write foreign (by simp [PathItem.names])]
    simp [PathItem.declared, Assoc.get?_append]

theorem Components.readsBack (value : Json) : ReadsBack Components.read Components.write value := by
  intro c success
  obtain ⟨r, opened, _, schemas, responses, parameters, requestBodies, schemes⟩ :=
    Components.read_eq_ok_iff.mp success
  have inside := Record.inside_of_record opened
  refine Components.read_eq_ok_iff.mpr
    ⟨.ofFields _ _ _, rfl, Record.ends_ofFields,
      Record.map_again inside (fun part _ => SchemaNode.readsBack part) schemas ?_,
      Record.map_again inside (fun part _ => ResponseNode.readsBack part) responses ?_,
      Record.map_again inside (fun part _ => ParameterNode.readsBack part) parameters ?_,
      Record.map_again inside (fun part _ => RequestBodyNode.readsBack part) requestBodies ?_,
      Record.map_again inside (fun part _ => SecurityScheme.readsBack part) schemes ?_⟩
  all_goals simp [Assoc.get?_append]

theorem Swagger.readsBack (value : Json) : ReadsBack Swagger.read Swagger.write value := by
  intro d success
  obtain ⟨r, opened, _, version, info, _, _, _, _, _, paths, definitions, parameters, responses,
    schemes, security, tags⟩ := Swagger.read_eq_ok_iff.mp success
  have inside := Record.inside_of_record opened
  refine Swagger.read_eq_ok_iff.mpr
    ⟨.ofFields _ _ _, rfl, Record.ends_ofFields,
      Record.required_again inside (fun part _ => string_readsBack part) version ?_,
      Record.defaulted_again inside (fun part _ => Info.readsBack part) rfl info ?_,
      Record.optionalString_ofFields ?_, Record.optionalString_ofFields ?_,
      Record.strings_ofFields ?_, Record.strings_ofFields ?_, Record.strings_ofFields ?_,
      Record.map_again inside (fun part _ => PathItem.readsBack part) paths ?_,
      Record.map_again inside (fun part _ => SchemaNode.readsBack part) definitions ?_,
      Record.map_again inside (fun part _ => ParameterNode.readsBack part) parameters ?_,
      Record.map_again inside (fun part _ => ResponseNode.readsBack part) responses ?_,
      Record.map_again inside (fun part _ => SecurityScheme.readsBack part) schemes ?_,
      Record.list_again inside (fun part _ => SecurityRequirement.readsBack part) security ?_,
      Record.list_again inside (fun part _ => Tag.readsBack part) tags ?_⟩
  all_goals simp [Assoc.get?_append]

theorem OpenApi.readsBack (value : Json) : ReadsBack OpenApi.read OpenApi.write value := by
  intro d success
  obtain ⟨r, opened, _, version, info, servers, paths, components, tags, security⟩ :=
    OpenApi.read_eq_ok_iff.mp success
  have inside := Record.inside_of_record opened
  refine OpenApi.read_eq_ok_iff.mpr
    ⟨.ofFields _ _ _, rfl, Record.ends_ofFields,
      Record.required_again inside (fun part _ => string_readsBack part) version ?_,
      Record.defaulted_again inside (fun part _ => Info.readsBack part) rfl info ?_,
      Record.list_again inside (fun part _ => Server.readsBack part) servers ?_,
      Record.map_again inside (fun part _ => PathItem.readsBack part) paths ?_,
      Record.defaulted_again inside (fun part _ => Components.readsBack part) rfl components ?_,
      Record.list_again inside (fun part _ => Tag.readsBack part) tags ?_,
      Record.list_again inside (fun part _ => SecurityRequirement.readsBack part) security ?_⟩
  all_goals simp [Assoc.get?_append]

/-- A document whose dialect is told by a text is read as it stands. -/
theorem withTextMarker_of_str {dialect : Dialect} {fields : WrittenFields} {version : String}
    (marked : Assoc.get? dialect.marker fields = some (.str version)) :
    withTextMarker dialect (.obj fields) = .obj fields := by
  simp only [withTextMarker, marked]

theorem ofJson_write_swagger {d : Swagger} (again : Swagger.read d.write = .ok d) :
    Document.ofJson d.write = .ok (.swagger d) := by
  have marked : d.write.field? Dialect.swagger2.marker = some (.str d.version) := by
    simp [Swagger.write, Json.field?, Dialect.marker, Assoc.get?_append]
  have detected : detect? d.write = some .swagger2 := by
    simp [detect?, marked]
  have same : withTextMarker .swagger2 d.write = d.write := withTextMarker_of_str marked
  simp only [Document.ofJson, detected, same, again]

theorem ofJson_write_openApi {d : OpenApi} (again : OpenApi.read d.write = .ok d) :
    Document.ofJson d.write = .ok (.openApi d) := by
  have other : d.write.field? Dialect.swagger2.marker = none := by
    simp [OpenApi.write, Json.field?, Dialect.marker, Assoc.get?_append]
  have marked : d.write.field? Dialect.openApi3.marker = some (.str d.version) := by
    simp [OpenApi.write, Json.field?, Dialect.marker, Assoc.get?_append]
  have detected : detect? d.write = some .openApi3 := by
    simp [detect?, other, marked]
  have same : withTextMarker .openApi3 d.write = d.write := withTextMarker_of_str marked
  simp only [Document.ofJson, detected, same, again]

end Document

/-- A document that was read is read again from what it is written as, and so are the operations of
path items. -/
theorem document_roundTrip {value : Json} {document : Document}
    (success : Document.ofJson value = .ok document) :
    Document.ofJson document.toJson = .ok document ∧
      ∀ (item : PathItem) (operations : List (String × Document.Operation)),
        item.operations = .ok operations →
        ∀ entry ∈ operations, Operation.read entry.2.write = .ok entry.2 := by
  constructor
  · unfold Document.ofJson at success
    split at success
    · cases success
    · rename_i dialect _
      cases dialect with
      | swagger2 =>
          simp only at success
          split at success
          · rename_i doc found
            cases Except.ok.inj success
            exact ofJson_write_swagger (Swagger.readsBack _ doc found)
          · cases success
      | openApi3 =>
          simp only at success
          split at success
          · rename_i doc found
            cases Except.ok.inj success
            exact ofJson_write_openApi (OpenApi.readsBack _ doc found)
          · cases success
  · intro item operations read entry member
    obtain ⟨field, _, _, found⟩ := PathItem.exists_entry_of_mem_operations read member
    exact Operation.readsBack field.2 entry.2 found

/-- A document with records given as arrays, unions of every kind and fields that are null. -/
def Sample.shop : Json :=
  .obj
    [("swagger", .num (.int 2)),
     ("info", .arr [.str "Shop", .null, .str "1"]),
     ("host", .null),
     ("paths", .obj
       [("/items", .obj
          [("x-note", .null),
           ("parameters", .arr [.obj [("$ref", .str "#/parameters/Limit")]]),
           ("get", .obj
             [("operationId", .str "list"),
              ("security", .arr []),
              ("responses", .obj
                [("200", .obj [("schema", .obj [("$ref", .str "#/definitions/Items")])]),
                 ("404", .arr [.str "gone", .null, .obj [], .obj []])])])])]),
     ("definitions", .obj
       [("Items", .obj
          [("type", .arr [.str "array", .obj [("null", .null)]]),
           ("items", .arr [.obj [("minimum", .num (.int 0)), ("exclusiveMinimum", .bool true)]]),
           ("additionalProperties", .bool false),
           ("default", .null)])]),
     ("parameters", .obj
       [("Limit", .obj
          [("name", .str "limit"), ("in", .obj [("query", .null)]), ("type", .str "integer"),
           ("items", .obj [("x-one-of", .bool true)])])])]

theorem document_roundTrip_shop :
    ∃ document, Document.ofJson Sample.shop = .ok document ∧
      Document.ofJson document.toJson = .ok document ∧
      ∀ (item : PathItem) (operations : List (String × Document.Operation)),
        item.operations = .ok operations →
        ∀ entry ∈ operations, Operation.read entry.2.write = .ok entry.2 := by
  have read : (Document.ofJson Sample.shop).toOption.map (·.declaredVersion) = some "2" := by
    decide +kernel
  obtain ⟨document, success, _⟩ := exists_ok_of_map read
  exact ⟨document, success, document_roundTrip success⟩

end ApiCodec

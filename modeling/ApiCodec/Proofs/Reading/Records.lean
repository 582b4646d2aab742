import ApiCodec.Document.Basic
import ApiCodec.Proofs.Reading.Fields

set_option autoImplicit false

namespace ApiCodec.Document

open Shape

theorem Limits.gather_eq_ok_iff {whole : Json} {r : Record whole} {limits : Limits} :
    (Limits.gather r).run = .ok limits ↔
      (r.optional "minimum" fun v _ => float v).run = .ok limits.minimum ∧
      (r.optional "maximum" fun v _ => float v).run = .ok limits.maximum ∧
      (r.optional "exclusiveMinimum" fun v _ => ExclusiveLimit.read v).run =
        .ok limits.exclusiveMinimum ∧
      (r.optional "exclusiveMaximum" fun v _ => ExclusiveLimit.read v).run =
        .ok limits.exclusiveMaximum ∧
      (r.optional "minLength" fun v _ => count v).run = .ok limits.minLength ∧
      (r.optional "maxLength" fun v _ => count v).run = .ok limits.maxLength ∧
      (r.optionalString "pattern").run = .ok limits.pattern ∧
      (r.optional "minItems" fun v _ => count v).run = .ok limits.minItems ∧
      (r.optional "maxItems" fun v _ => count v).run = .ok limits.maxItems := by
  have gathered : (Limits.gather r).run = .ok limits ↔
      ∃ b, (Limits.gather r).run = .ok b ∧ b = limits := by simp
  rw [gathered]
  simp only [Limits.gather, Gather.exists_seq, Gather.exists_map]
  constructor
  · rintro ⟨_, minimum, _, maximum, _, exclusiveMinimum, _, exclusiveMaximum, _, minLength, _,
      maxLength, _, pattern, _, minItems, _, maxItems, rfl⟩
    exact ⟨minimum, maximum, exclusiveMinimum, exclusiveMaximum, minLength, maxLength, pattern,
      minItems, maxItems⟩
  · rintro ⟨minimum, maximum, exclusiveMinimum, exclusiveMaximum, minLength, maxLength, pattern,
      minItems, maxItems⟩
    exact ⟨_, minimum, _, maximum, _, exclusiveMinimum, _, exclusiveMaximum, _, minLength, _,
      maxLength, _, pattern, _, minItems, _, maxItems, rfl⟩

theorem Discriminator.read_eq_ok_iff {value : Json} {d : Discriminator} :
    Discriminator.read value = .ok d ↔
      ∃ r : Record value,
        record "Discriminator" ["propertyName", "mapping"] value = .ok r ∧ r.Ends ∧
        (r.required "propertyName" fun v _ => string v).run = .ok d.propertyName ∧
        (r.map "mapping" fun v _ => string v).run = .ok d.mapping := by
  simp only [Discriminator.read, Record.gathered_eq_ok_iff, Gather.exists_seq, Gather.exists_map]
  constructor
  · rintro ⟨r, opened, ends, _, propertyName, _, mapping, rfl⟩
    exact ⟨r, opened, ends, propertyName, mapping⟩
  · rintro ⟨r, opened, ends, propertyName, mapping⟩
    exact ⟨r, opened, ends, _, propertyName, _, mapping, rfl⟩

theorem Schema.readBy_eq_ok_iff {value : Json} {node : PartReader value SchemaNode}
    {schema : Schema} :
    Schema.readBy value node = .ok schema ↔
      ∃ r : Record value, record "Schema" Schema.names value = .ok r ∧ r.Ends ∧
        (r.optional "type" fun v _ => TypeSet.read v).run = .ok schema.types ∧
        (r.optionalString "format").run = .ok schema.format ∧
        (r.optionalString "title").run = .ok schema.title ∧
        (r.optionalString "description").run = .ok schema.description ∧
        (r.optional "default" fun v _ => any v).run = .ok schema.default ∧
        (r.optional "nullable" fun v _ => bool v).run = .ok schema.nullable ∧
        (r.map "properties" node).run = .ok schema.properties ∧
        (r.strings "required").run = .ok schema.required ∧
        (r.optional "additionalProperties" (AdditionalSchema.readBy node)).run =
          .ok schema.additional ∧
        (r.optional "items" (ItemsSchema.readBy node)).run = .ok schema.items ∧
        (r.list "allOf" node).run = .ok schema.allOf ∧
        (r.list "oneOf" node).run = .ok schema.oneOf ∧
        (r.list "anyOf" node).run = .ok schema.anyOf ∧
        (r.optional "discriminator" fun v _ => Discriminator.read v).run =
          .ok schema.discriminator ∧
        (r.list "enum" fun v _ => any v).run = .ok schema.values ∧
        (Limits.gather r).run = .ok schema.limits ∧
        (r.optional "example" fun v _ => any v).run = .ok schema.example? ∧
        (r.optional "x-one-of" fun v _ => bool v).run = .ok schema.disjoint ∧
        (r.list "x-extensible-enum" fun v _ => any v).run = .ok schema.extensibleValues ∧
        (r.optionalString "x-import").run = .ok schema.importFrom := by
  simp only [Schema.readBy, Record.gathered_eq_ok_iff, Gather.exists_seq, Gather.exists_map]
  constructor
  · rintro ⟨r, opened, ends, _, types, _, format, _, title, _, description, _, default, _, nullable,
      _, properties, _, required, _, additional, _, items, _, allOf, _, oneOf, _, anyOf, _,
      discriminator, _, values, _, limits, _, sample, _, disjoint, _, extensibleValues, _,
      importFrom, rfl⟩
    exact ⟨r, opened, ends, types, format, title, description, default, nullable, properties,
      required, additional, items, allOf, oneOf, anyOf, discriminator, values, limits, sample,
      disjoint, extensibleValues, importFrom⟩
  · rintro ⟨r, opened, ends, types, format, title, description, default, nullable, properties,
      required, additional, items, allOf, oneOf, anyOf, discriminator, values, limits, sample,
      disjoint, extensibleValues, importFrom⟩
    exact ⟨r, opened, ends, _, types, _, format, _, title, _, description, _, default, _, nullable,
      _, properties, _, required, _, additional, _, items, _, allOf, _, oneOf, _, anyOf, _,
      discriminator, _, values, _, limits, _, sample, _, disjoint, _, extensibleValues, _,
      importFrom, by cases schema; rfl⟩

theorem Parameter.read_eq_ok_iff {value : Json} {p : Parameter} :
    Parameter.read value = .ok p ↔
      ∃ r : Record value, record "Parameter" Parameter.names value = .ok r ∧ r.Ends ∧
        (r.required "name" fun v _ => string v).run = .ok p.name ∧
        (r.required "in" fun v _ => choice ParameterLocation.choices v).run = .ok p.location ∧
        (r.optionalString "description").run = .ok p.description ∧
        (r.defaulted "required" false fun v _ => bool v).run = .ok p.required ∧
        (r.optional "deprecated" fun v _ => bool v).run = .ok p.deprecated ∧
        (r.optional "schema" fun v _ => SchemaNode.read v).run = .ok p.schema ∧
        (r.optional "type" fun v _ => TypeSet.read v).run = .ok p.types ∧
        (r.optionalString "format").run = .ok p.format ∧
        (r.optional "items" fun v _ => ItemsSchema.read v).run = .ok p.items ∧
        (r.list "enum" fun v _ => any v).run = .ok p.values ∧
        (r.optional "default" fun v _ => any v).run = .ok p.default ∧
        (Limits.gather r).run = .ok p.limits ∧
        (r.optionalString "style").run = .ok p.style ∧
        (r.optional "explode" fun v _ => bool v).run = .ok p.explode := by
  simp only [Parameter.read, Record.gathered_eq_ok_iff, Gather.exists_seq, Gather.exists_map]
  constructor
  · rintro ⟨r, opened, ends, _, name, _, location, _, description, _, required, _, deprecated, _,
      schema, _, types, _, format, _, items, _, values, _, default, _, limits, _, style, _, explode,
      rfl⟩
    exact ⟨r, opened, ends, name, location, description, required, deprecated, schema, types,
      format, items, values, default, limits, style, explode⟩
  · rintro ⟨r, opened, ends, name, location, description, required, deprecated, schema, types,
      format, items, values, default, limits, style, explode⟩
    exact ⟨r, opened, ends, _, name, _, location, _, description, _, required, _, deprecated, _,
      schema, _, types, _, format, _, items, _, values, _, default, _, limits, _, style, _, explode,
      rfl⟩

theorem Encoding.read_eq_ok_iff {value : Json} {e : Encoding} :
    Encoding.read value = .ok e ↔
      ∃ r : Record value, record "Encoding" ["contentType", "headers"] value = .ok r ∧ r.Ends ∧
        (r.optionalString "contentType").run = .ok e.contentType ∧
        (r.map "headers" fun v _ => any v).run = .ok e.headers := by
  simp only [Encoding.read, Record.gathered_eq_ok_iff, Gather.exists_seq, Gather.exists_map]
  constructor
  · rintro ⟨r, opened, ends, _, contentType, _, headers, rfl⟩
    exact ⟨r, opened, ends, contentType, headers⟩
  · rintro ⟨r, opened, ends, contentType, headers⟩
    exact ⟨r, opened, ends, _, contentType, _, headers, rfl⟩

theorem MediaType.read_eq_ok_iff {value : Json} {m : MediaType} :
    MediaType.read value = .ok m ↔
      ∃ r : Record value,
        record "MediaType" ["schema", "encoding", "example"] value = .ok r ∧ r.Ends ∧
        (r.optional "schema" fun v _ => SchemaNode.read v).run = .ok m.schema ∧
        (r.map "encoding" fun v _ => Encoding.read v).run = .ok m.encoding ∧
        (r.optional "example" fun v _ => any v).run = .ok m.example? := by
  simp only [MediaType.read, Record.gathered_eq_ok_iff, Gather.exists_seq, Gather.exists_map]
  constructor
  · rintro ⟨r, opened, ends, _, schema, _, encoding, _, sample, rfl⟩
    exact ⟨r, opened, ends, schema, encoding, sample⟩
  · rintro ⟨r, opened, ends, schema, encoding, sample⟩
    exact ⟨r, opened, ends, _, schema, _, encoding, _, sample, rfl⟩

theorem Response.read_eq_ok_iff {value : Json} {response : Response} :
    Response.read value = .ok response ↔
      ∃ r : Record value,
        record "Response" ["description", "schema", "content", "headers"] value = .ok r ∧ r.Ends ∧
        (r.defaulted "description" "" fun v _ => string v).run = .ok response.description ∧
        (r.optional "schema" fun v _ => SchemaNode.read v).run = .ok response.schema ∧
        (r.map "content" fun v _ => MediaType.read v).run = .ok response.content ∧
        (r.map "headers" fun v _ => any v).run = .ok response.headers := by
  simp only [Response.read, Record.gathered_eq_ok_iff, Gather.exists_seq, Gather.exists_map]
  constructor
  · rintro ⟨r, opened, ends, _, description, _, schema, _, content, _, headers, rfl⟩
    exact ⟨r, opened, ends, description, schema, content, headers⟩
  · rintro ⟨r, opened, ends, description, schema, content, headers⟩
    exact ⟨r, opened, ends, _, description, _, schema, _, content, _, headers, rfl⟩

theorem RequestBody.read_eq_ok_iff {value : Json} {body : RequestBody} :
    RequestBody.read value = .ok body ↔
      ∃ r : Record value,
        record "RequestBody" ["description", "content", "required"] value = .ok r ∧ r.Ends ∧
        (r.optionalString "description").run = .ok body.description ∧
        (r.required "content" fun v _ => mapOf v fun w _ => MediaType.read w).run =
          .ok body.content ∧
        (r.defaulted "required" false fun v _ => bool v).run = .ok body.required := by
  simp only [RequestBody.read, Record.gathered_eq_ok_iff, Gather.exists_seq, Gather.exists_map]
  constructor
  · rintro ⟨r, opened, ends, _, description, _, content, _, required, rfl⟩
    exact ⟨r, opened, ends, description, content, required⟩
  · rintro ⟨r, opened, ends, description, content, required⟩
    exact ⟨r, opened, ends, _, description, _, content, _, required, rfl⟩

theorem ServerVariable.read_eq_ok_iff {value : Json} {v : ServerVariable} :
    ServerVariable.read value = .ok v ↔
      ∃ r : Record value,
        record "ServerVariable" ["default", "description", "enum"] value = .ok r ∧ r.Ends ∧
        (r.required "default" fun v _ => string v).run = .ok v.default ∧
        (r.optionalString "description").run = .ok v.description ∧
        (r.strings "enum").run = .ok v.values := by
  simp only [ServerVariable.read, Record.gathered_eq_ok_iff, Gather.exists_seq, Gather.exists_map]
  constructor
  · rintro ⟨r, opened, ends, _, default, _, description, _, values, rfl⟩
    exact ⟨r, opened, ends, default, description, values⟩
  · rintro ⟨r, opened, ends, default, description, values⟩
    exact ⟨r, opened, ends, _, default, _, description, _, values, rfl⟩

theorem Server.read_eq_ok_iff {value : Json} {s : Server} :
    Server.read value = .ok s ↔
      ∃ r : Record value,
        record "Server" ["url", "description", "variables"] value = .ok r ∧ r.Ends ∧
        (r.required "url" fun v _ => string v).run = .ok s.url ∧
        (r.optionalString "description").run = .ok s.description ∧
        (r.map "variables" fun v _ => ServerVariable.read v).run = .ok s.slots := by
  simp only [Server.read, Record.gathered_eq_ok_iff, Gather.exists_seq, Gather.exists_map]
  constructor
  · rintro ⟨r, opened, ends, _, url, _, description, _, slots, rfl⟩
    exact ⟨r, opened, ends, url, description, slots⟩
  · rintro ⟨r, opened, ends, url, description, slots⟩
    exact ⟨r, opened, ends, _, url, _, description, _, slots, rfl⟩

theorem SecurityScheme.read_eq_ok_iff {value : Json} {s : SecurityScheme} :
    SecurityScheme.read value = .ok s ↔
      ∃ r : Record value, record "SecurityScheme" SecurityScheme.names value = .ok r ∧ r.Ends ∧
        (r.required "type" fun v _ => choice SchemeType.choices v).run = .ok s.type ∧
        (r.optionalString "description").run = .ok s.description ∧
        (r.optionalString "name").run = .ok s.name ∧
        (r.optional "in" fun v _ => choice KeyLocation.choices v).run = .ok s.location ∧
        (r.optionalString "scheme").run = .ok s.scheme ∧
        (r.optionalString "bearerFormat").run = .ok s.bearerFormat ∧
        (r.optionalString "flow").run = .ok s.flow ∧
        (r.optional "flows" fun v _ => any v).run = .ok s.flows ∧
        (r.optionalString "openIdConnectUrl").run = .ok s.openIdConnectUrl ∧
        (r.optionalString "x-auth-scheme").run = .ok s.authScheme := by
  simp only [SecurityScheme.read, Record.gathered_eq_ok_iff, Gather.exists_seq, Gather.exists_map]
  constructor
  · rintro ⟨r, opened, ends, _, type, _, description, _, name, _, location, _, scheme, _,
      bearerFormat, _, flow, _, flows, _, openIdConnectUrl, _, authScheme, rfl⟩
    exact ⟨r, opened, ends, type, description, name, location, scheme, bearerFormat, flow, flows,
      openIdConnectUrl, authScheme⟩
  · rintro ⟨r, opened, ends, type, description, name, location, scheme, bearerFormat, flow, flows,
      openIdConnectUrl, authScheme⟩
    exact ⟨r, opened, ends, _, type, _, description, _, name, _, location, _, scheme, _,
      bearerFormat, _, flow, _, flows, _, openIdConnectUrl, _, authScheme, rfl⟩

theorem Operation.read_eq_ok_iff {value : Json} {op : Operation} :
    Operation.read value = .ok op ↔
      ∃ r : Record value, record "Operation" Operation.names value = .ok r ∧ r.Ends ∧
        (r.optionalString "operationId").run = .ok op.operationId ∧
        (r.optionalString "summary").run = .ok op.summary ∧
        (r.optionalString "description").run = .ok op.description ∧
        (r.strings "tags").run = .ok op.tags ∧
        (r.list "parameters" fun v _ => ParameterNode.read v).run = .ok op.parameters ∧
        (r.optional "requestBody" fun v _ => RequestBodyNode.read v).run = .ok op.requestBody ∧
        (r.map "responses" fun v _ => ResponseNode.read v).run = .ok op.responses ∧
        (r.strings "consumes").run = .ok op.consumes ∧
        (r.strings "produces").run = .ok op.produces ∧
        (r.optional "deprecated" fun v _ => bool v).run = .ok op.deprecated ∧
        (r.optional "security" fun v _ => listOf v fun w _ => SecurityRequirement.read w).run =
          .ok op.security := by
  simp only [Operation.read, Record.gathered_eq_ok_iff, Gather.exists_seq, Gather.exists_map]
  constructor
  · rintro ⟨r, opened, ends, _, operationId, _, summary, _, description, _, tags, _, parameters, _,
      requestBody, _, responses, _, consumes, _, produces, _, deprecated, _, security, rfl⟩
    exact ⟨r, opened, ends, operationId, summary, description, tags, parameters, requestBody,
      responses, consumes, produces, deprecated, security⟩
  · rintro ⟨r, opened, ends, operationId, summary, description, tags, parameters, requestBody,
      responses, consumes, produces, deprecated, security⟩
    exact ⟨r, opened, ends, _, operationId, _, summary, _, description, _, tags, _, parameters, _,
      requestBody, _, responses, _, consumes, _, produces, _, deprecated, _, security, rfl⟩

theorem PathItem.read_eq_ok_iff {value : Json} {item : PathItem} :
    PathItem.read value = .ok item ↔
      ∃ r : Record value, openRecord "PathItem" PathItem.names value = .ok r ∧ r.Ends ∧
        (r.optionalString "summary").run = .ok item.summary ∧
        (r.optionalString "description").run = .ok item.description ∧
        (r.list "parameters" fun v _ => ParameterNode.read v).run = .ok item.parameters ∧
        (r.optional "servers" fun v _ => any v).run = .ok item.servers ∧
        (r.optionalString "$ref").run = .ok item.path? ∧
        item.entries = Assoc.ofList r.others := by
  cases item
  simp only [PathItem.read, Record.gathered_eq_ok_iff, Gather.exists_seq, Gather.exists_map,
    Gather.exists_pure]
  constructor
  · rintro ⟨r, opened, ends, _, summary, _, description, _, parameters, _, servers, _, path, same⟩
    cases same
    exact ⟨r, opened, ends, summary, description, parameters, servers, path, rfl⟩
  · rintro ⟨r, opened, ends, summary, description, parameters, servers, path, rfl⟩
    exact ⟨r, opened, ends, _, summary, _, description, _, parameters, _, servers, _, path, rfl⟩

/-- The operations of a path item are read from its entries, in order; extensions are left out. -/
theorem PathItem.forall₂_of_operations {item : PathItem} {operations : List (String × Operation)}
    (success : item.operations = .ok operations) :
    List.Forall₂
      (fun entry operation => operation.1 = Text.lower entry.1 ∧
        Operation.read entry.2 = .ok operation.2)
      (item.entries.filter fun entry => !isExtension entry.1) operations := by
  have listed := collect_eq_ok_iff.mp success
  rw [← List.forall₂_eq_eq_eq, List.forall₂_map_left_iff, List.forall₂_map_right_iff] at listed
  refine listed.imp fun entry operation made => ?_
  obtain ⟨op, read, rfl⟩ := map_eq_ok_iff.mp made
  exact ⟨rfl, read⟩

/-- The operations of a path item are read from entries of it. -/
theorem PathItem.exists_entry_of_mem_operations {item : PathItem}
    {operations : List (String × Operation)} (success : item.operations = .ok operations)
    {operation : String × Operation} (member : operation ∈ operations) :
    ∃ entry ∈ item.entries, operation.1 = Text.lower entry.1 ∧
      Operation.read entry.2 = .ok operation.2 := by
  obtain ⟨entry, paired⟩ := exists_mem_zip_right (forall₂_of_operations success) member
  have inside := (List.mem_filter.mp (List.of_mem_zip paired).1).1
  exact ⟨entry, inside, (List.forall₂_iff_zip.mp (forall₂_of_operations success)).2 paired⟩

/-- If the operations of a path item are read, each of its entries is, but for its extensions. -/
theorem PathItem.exists_read_of_operations {item : PathItem} {operations : List (String × Operation)}
    (success : item.operations = .ok operations) {entry : String × Json}
    (member : entry ∈ item.entries) (plain : ¬ isExtension entry.1) :
    ∃ op, Operation.read entry.2 = .ok op := by
  obtain ⟨operation, _, _, read⟩ := exists_of_forall₂_left (forall₂_of_operations success)
    (List.mem_filter.mpr ⟨member, by simpa using plain⟩)
  exact ⟨operation.2, read⟩

/-- If the operations of a path item are not read, it is for one of its entries. -/
theorem PathItem.exists_entry_of_operations_eq_error {item : PathItem} {cause : ShapeError}
    (failed : item.operations = .error cause) :
    ∃ entry ∈ item.entries, ¬ isExtension entry.1 ∧ Operation.read entry.2 = .error cause := by
  obtain ⟨entry, inside, unread⟩ := List.mem_map.mp (mem_of_collect_eq_error failed)
  obtain ⟨member, plain⟩ := List.mem_filter.mp inside
  exact ⟨entry, member, by simpa using plain, map_eq_error_iff.mp unread⟩

theorem Info.read_eq_ok_iff {value : Json} {info : Info} :
    Info.read value = .ok info ↔
      ∃ r : Record value, record "Info" ["title", "description", "version"] value = .ok r ∧ r.Ends ∧
        (r.defaulted "title" "" fun v _ => string v).run = .ok info.title ∧
        (r.optionalString "description").run = .ok info.description ∧
        (r.defaulted "version" "" fun v _ => string v).run = .ok info.version := by
  simp only [Info.read, Record.gathered_eq_ok_iff, Gather.exists_seq, Gather.exists_map]
  constructor
  · rintro ⟨r, opened, ends, _, title, _, description, _, version, rfl⟩
    exact ⟨r, opened, ends, title, description, version⟩
  · rintro ⟨r, opened, ends, title, description, version⟩
    exact ⟨r, opened, ends, _, title, _, description, _, version, rfl⟩

theorem Tag.read_eq_ok_iff {value : Json} {tag : Tag} :
    Tag.read value = .ok tag ↔
      ∃ r : Record value, record "Tag" ["name", "description"] value = .ok r ∧ r.Ends ∧
        (r.required "name" fun v _ => string v).run = .ok tag.name ∧
        (r.optionalString "description").run = .ok tag.description := by
  simp only [Tag.read, Record.gathered_eq_ok_iff, Gather.exists_seq, Gather.exists_map]
  constructor
  · rintro ⟨r, opened, ends, _, name, _, description, rfl⟩
    exact ⟨r, opened, ends, name, description⟩
  · rintro ⟨r, opened, ends, name, description⟩
    exact ⟨r, opened, ends, _, name, _, description, rfl⟩

theorem Components.read_eq_ok_iff {value : Json} {c : Components} :
    Components.read value = .ok c ↔
      ∃ r : Record value, record "Components" Components.names value = .ok r ∧ r.Ends ∧
        (r.map "schemas" fun v _ => SchemaNode.read v).run = .ok c.schemas ∧
        (r.map "responses" fun v _ => ResponseNode.read v).run = .ok c.responses ∧
        (r.map "parameters" fun v _ => ParameterNode.read v).run = .ok c.parameters ∧
        (r.map "requestBodies" fun v _ => RequestBodyNode.read v).run = .ok c.requestBodies ∧
        (r.map "securitySchemes" fun v _ => SecurityScheme.read v).run = .ok c.securitySchemes := by
  simp only [Components.read, Record.gathered_eq_ok_iff, Gather.exists_seq, Gather.exists_map]
  constructor
  · rintro ⟨r, opened, ends, _, schemas, _, responses, _, parameters, _, requestBodies, _,
      securitySchemes, rfl⟩
    exact ⟨r, opened, ends, schemas, responses, parameters, requestBodies, securitySchemes⟩
  · rintro ⟨r, opened, ends, schemas, responses, parameters, requestBodies, securitySchemes⟩
    exact ⟨r, opened, ends, _, schemas, _, responses, _, parameters, _, requestBodies, _,
      securitySchemes, rfl⟩

theorem Swagger.read_eq_ok_iff {value : Json} {d : Swagger} :
    Swagger.read value = .ok d ↔
      ∃ r : Record value, record "SwaggerDocument" Swagger.names value = .ok r ∧ r.Ends ∧
        (r.required "swagger" fun v _ => string v).run = .ok d.version ∧
        (r.defaulted "info" Info.empty fun v _ => Info.read v).run = .ok d.info ∧
        (r.optionalString "host").run = .ok d.host ∧
        (r.optionalString "basePath").run = .ok d.basePath ∧
        (r.strings "schemes").run = .ok d.schemes ∧
        (r.strings "consumes").run = .ok d.consumes ∧
        (r.strings "produces").run = .ok d.produces ∧
        (r.map "paths" fun v _ => PathItem.read v).run = .ok d.paths ∧
        (r.map "definitions" fun v _ => SchemaNode.read v).run = .ok d.definitions ∧
        (r.map "parameters" fun v _ => ParameterNode.read v).run = .ok d.parameters ∧
        (r.map "responses" fun v _ => ResponseNode.read v).run = .ok d.responses ∧
        (r.map "securityDefinitions" fun v _ => SecurityScheme.read v).run =
          .ok d.securityDefinitions ∧
        (r.list "security" fun v _ => SecurityRequirement.read v).run = .ok d.security ∧
        (r.list "tags" fun v _ => Tag.read v).run = .ok d.tags := by
  simp only [Swagger.read, Record.gathered_eq_ok_iff, Gather.exists_seq, Gather.exists_map]
  constructor
  · rintro ⟨r, opened, ends, _, version, _, info, _, host, _, basePath, _, schemes, _, consumes, _,
      produces, _, paths, _, definitions, _, parameters, _, responses, _, securityDefinitions, _,
      security, _, tags, rfl⟩
    exact ⟨r, opened, ends, version, info, host, basePath, schemes, consumes, produces, paths,
      definitions, parameters, responses, securityDefinitions, security, tags⟩
  · rintro ⟨r, opened, ends, version, info, host, basePath, schemes, consumes, produces, paths,
      definitions, parameters, responses, securityDefinitions, security, tags⟩
    exact ⟨r, opened, ends, _, version, _, info, _, host, _, basePath, _, schemes, _, consumes, _,
      produces, _, paths, _, definitions, _, parameters, _, responses, _, securityDefinitions, _,
      security, _, tags, rfl⟩

theorem OpenApi.read_eq_ok_iff {value : Json} {d : OpenApi} :
    OpenApi.read value = .ok d ↔
      ∃ r : Record value, record "OpenApiDocument" OpenApi.names value = .ok r ∧ r.Ends ∧
        (r.required "openapi" fun v _ => string v).run = .ok d.version ∧
        (r.defaulted "info" Info.empty fun v _ => Info.read v).run = .ok d.info ∧
        (r.list "servers" fun v _ => Server.read v).run = .ok d.servers ∧
        (r.map "paths" fun v _ => PathItem.read v).run = .ok d.paths ∧
        (r.defaulted "components" Components.empty fun v _ => Components.read v).run =
          .ok d.components ∧
        (r.list "tags" fun v _ => Tag.read v).run = .ok d.tags ∧
        (r.list "security" fun v _ => SecurityRequirement.read v).run = .ok d.security := by
  simp only [OpenApi.read, Record.gathered_eq_ok_iff, Gather.exists_seq, Gather.exists_map]
  constructor
  · rintro ⟨r, opened, ends, _, version, _, info, _, servers, _, paths, _, components, _, tags, _,
      security, rfl⟩
    exact ⟨r, opened, ends, version, info, servers, paths, components, tags, security⟩
  · rintro ⟨r, opened, ends, version, info, servers, paths, components, tags, security⟩
    exact ⟨r, opened, ends, _, version, _, info, _, servers, _, paths, _, components, _, tags, _,
      security, rfl⟩

end ApiCodec.Document

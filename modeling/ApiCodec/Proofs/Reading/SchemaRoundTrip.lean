import ApiCodec.Proofs.Reading.Records
import ApiCodec.Proofs.Reading.Written

set_option autoImplicit false

namespace ApiCodec

open Document Shape

namespace Document

theorem string_readsBack (value : Json) : ReadsBack string Json.str value := fun _ _ => rfl

theorem bool_readsBack (value : Json) : ReadsBack bool Json.bool value := fun _ _ => rfl

theorem any_readsBack (value : Json) : ReadsBack any id value := fun _ _ => rfl

@[simp] theorem mapValues_id (fields : WrittenFields) : mapValues id fields = fields :=
  List.map_id fields

theorem SchemaType.read_name (type : SchemaType) : SchemaType.read (.str type.name) = .ok type := by
  cases type <;> rfl

theorem TypeSet.read_write (types : TypeSet) : TypeSet.read types.write = .ok types := by
  cases types with
  | one type =>
      apply union_of_ok
      rw [TypeSet.write, SchemaType.read_name]
      rfl
  | list types =>
      have each : listOf (.arr (types.map fun type => Json.str type.name))
          (fun v _ => SchemaType.read v) = .ok types :=
        listOf_map fun type _ _ => SchemaType.read_name type
      refine (union_of_error ⟨_, rfl⟩).trans (union_of_ok ?_)
      rw [TypeSet.write, each]
      rfl

theorem ExclusiveLimit.read_write (limit : ExclusiveLimit) :
    ExclusiveLimit.read limit.write = .ok limit := by
  cases limit <;> rfl

theorem TypeSet.isNull_write (types : TypeSet) : types.write.isNull = false := by
  cases types <;> rfl

theorem ExclusiveLimit.isNull_write (limit : ExclusiveLimit) : limit.write.isNull = false := by
  cases limit <;> rfl

theorem Limits.get?_write_of_notMem {limits : Limits} {key : String} (foreign : key ∉ Limits.names) :
    Assoc.get? key limits.write = none := by
  simp only [Limits.names, List.mem_cons, List.not_mem_nil, or_false, not_or] at foreign
  obtain ⟨h1, h2, h3, h4, h5, h6, h7, h8, h9⟩ := foreign
  simp [Limits.write, Assoc.get?_append, givenFloat, givenCount, Ne.symm, *]

theorem Limits.gather_ofFields {title : String} {names : List String}
    {fields : List (String × Json)} {limits : Limits}
    (same : ∀ name ∈ Limits.names, Assoc.get? name fields = Assoc.get? name limits.write) :
    (Limits.gather (Record.ofFields title names fields)).run = .ok limits := by
  simp [Limits.names, Limits.write, Assoc.get?_append, givenFloat, givenCount] at same
  obtain ⟨minimum, maximum, exclusiveMinimum, exclusiveMaximum, minLength, maxLength, pattern,
    minItems, maxItems⟩ := same
  exact Limits.gather_eq_ok_iff.mpr ⟨
    Record.optional_ofFields minimum fun _ _ => ⟨rfl, fun _ => rfl⟩,
    Record.optional_ofFields maximum fun _ _ => ⟨rfl, fun _ => rfl⟩,
    Record.optional_ofFields exclusiveMinimum fun limit _ =>
      ⟨limit.isNull_write, fun _ => limit.read_write⟩,
    Record.optional_ofFields exclusiveMaximum fun limit _ =>
      ⟨limit.isNull_write, fun _ => limit.read_write⟩,
    Record.optional_ofFields minLength fun _ _ => ⟨rfl, fun _ => rfl⟩,
    Record.optional_ofFields maxLength fun _ _ => ⟨rfl, fun _ => rfl⟩,
    Record.optionalString_ofFields pattern,
    Record.optional_ofFields minItems fun _ _ => ⟨rfl, fun _ => rfl⟩,
    Record.optional_ofFields maxItems fun _ _ => ⟨rfl, fun _ => rfl⟩⟩

theorem Discriminator.readsBack (value : Json) :
    ReadsBack Discriminator.read Discriminator.write value := by
  intro d success
  obtain ⟨r, opened, _, propertyName, mapping⟩ := Discriminator.read_eq_ok_iff.mp success
  have inside := Record.inside_of_record opened
  refine Discriminator.read_eq_ok_iff.mpr
    ⟨.ofFields _ _ _, rfl, Record.ends_ofFields,
      Record.required_again inside (fun part _ => string_readsBack part) propertyName ?_,
      Record.map_again inside (fun part _ => string_readsBack part) mapping ?_⟩
  all_goals simp [Assoc.get?_append]

theorem Info.readsBack (value : Json) : ReadsBack Info.read Info.write value := by
  intro info success
  obtain ⟨r, opened, _, title, _, version⟩ := Info.read_eq_ok_iff.mp success
  have inside := Record.inside_of_record opened
  refine Info.read_eq_ok_iff.mpr
    ⟨.ofFields _ _ _, rfl, Record.ends_ofFields,
      Record.defaulted_again inside (fun part _ => string_readsBack part) rfl title ?_,
      Record.optionalString_ofFields ?_,
      Record.defaulted_again inside (fun part _ => string_readsBack part) rfl version ?_⟩
  all_goals simp [Assoc.get?_append]

theorem Tag.readsBack (value : Json) : ReadsBack Tag.read Tag.write value := by
  intro tag success
  obtain ⟨r, opened, _, name, _⟩ := Tag.read_eq_ok_iff.mp success
  have inside := Record.inside_of_record opened
  refine Tag.read_eq_ok_iff.mpr
    ⟨.ofFields _ _ _, rfl, Record.ends_ofFields,
      Record.required_again inside (fun part _ => string_readsBack part) name ?_,
      Record.optionalString_ofFields ?_⟩
  all_goals simp [Assoc.get?_append]

theorem ServerVariable.readsBack (value : Json) :
    ReadsBack ServerVariable.read ServerVariable.write value := by
  intro v success
  obtain ⟨r, opened, _, default, _, _⟩ := ServerVariable.read_eq_ok_iff.mp success
  have inside := Record.inside_of_record opened
  refine ServerVariable.read_eq_ok_iff.mpr
    ⟨.ofFields _ _ _, rfl, Record.ends_ofFields,
      Record.required_again inside (fun part _ => string_readsBack part) default ?_,
      Record.optionalString_ofFields ?_,
      Record.strings_ofFields ?_⟩
  all_goals simp [Assoc.get?_append]

theorem Server.readsBack (value : Json) : ReadsBack Server.read Server.write value := by
  intro server success
  obtain ⟨r, opened, _, url, _, slots⟩ := Server.read_eq_ok_iff.mp success
  have inside := Record.inside_of_record opened
  refine Server.read_eq_ok_iff.mpr
    ⟨.ofFields _ _ _, rfl, Record.ends_ofFields,
      Record.required_again inside (fun part _ => string_readsBack part) url ?_,
      Record.optionalString_ofFields ?_,
      Record.map_again inside (fun part _ => ServerVariable.readsBack part) slots ?_⟩
  all_goals simp [Assoc.get?_append]

theorem SchemeType.readsBack (value : Json) :
    ReadsBack (choice SchemeType.choices) (fun type => .str type.name) value := by
  intro type _
  cases type <;> rfl

theorem KeyLocation.readsBack (value : Json) :
    ReadsBack (choice KeyLocation.choices) (fun location => .str location.name) value := by
  intro location _
  cases location <;> rfl

theorem SecurityScheme.readsBack (value : Json) :
    ReadsBack SecurityScheme.read SecurityScheme.write value := by
  intro s success
  obtain ⟨r, opened, _, type, _, _, location, _, _, _, flows, _, _⟩ :=
    SecurityScheme.read_eq_ok_iff.mp success
  have inside := Record.inside_of_record opened
  refine SecurityScheme.read_eq_ok_iff.mpr
    ⟨.ofFields _ _ _, rfl, Record.ends_ofFields,
      Record.required_again inside (fun part _ => SchemeType.readsBack part) type ?_,
      Record.optionalString_ofFields ?_,
      Record.optionalString_ofFields ?_,
      Record.optional_again inside (fun part _ => KeyLocation.readsBack part) (fun _ => rfl)
        location ?_,
      Record.optionalString_ofFields ?_,
      Record.optionalString_ofFields ?_,
      Record.optionalString_ofFields ?_,
      Record.optionalAny_again inside flows ?_,
      Record.optionalString_ofFields ?_,
      Record.optionalString_ofFields ?_⟩
  all_goals simp [Assoc.get?_append]

theorem strings_ofStrings (texts : List String) : strings (Json.ofStrings texts) = .ok texts :=
  listOf_map fun _ _ _ => rfl

theorem SecurityRequirement.readsBack (value : Json) :
    ReadsBack SecurityRequirement.read SecurityRequirement.write value := by
  intro requirement success
  exact mapOf_mapValues (nodup_keys_mapOf success) fun entry _ _ => strings_ofStrings entry.2

def ItemsSchema.write : ItemsSchema → Json
  | .one node => node.write
  | .list nodes => .arr (nodes.map SchemaNode.write)

def AdditionalSchema.write : AdditionalSchema → Json
  | .flag allowed => .bool allowed
  | .node values => values.write

theorem writeNodes_eq (nodes : List SchemaNode) : writeNodes nodes = nodes.map SchemaNode.write := by
  induction nodes with
  | nil => rfl
  | cons node rest ih => rw [writeNodes, ih, List.map_cons]

theorem writeProperties_eq (properties : List (String × SchemaNode)) :
    writeProperties properties = mapValues SchemaNode.write properties := by
  induction properties with
  | nil => rfl
  | cons property rest ih =>
      rw [writeProperties, ih]
      rfl

theorem writeItems_eq (items : Option ItemsSchema) :
    writeItems items = given "items" ItemsSchema.write items := by
  rcases items with _ | _ | nodes
  · rfl
  · rfl
  · simp only [writeItems, writeNodes_eq]
    rfl

theorem writeAdditional_eq (additional : Option AdditionalSchema) :
    writeAdditional additional = given "additionalProperties" AdditionalSchema.write additional := by
  rcases additional with _ | _ | _ <;> rfl

def Schema.fields (schema : Schema) : WrittenFields :=
  given "type" TypeSet.write schema.types ++
  givenString "format" schema.format ++
  givenString "title" schema.title ++
  givenString "description" schema.description ++
  given "default" id schema.default ++
  givenBool "nullable" schema.nullable ++
  entries "properties" (mapValues SchemaNode.write schema.properties) ++
  Shape.items "required" (schema.required.map .str) ++
  given "additionalProperties" AdditionalSchema.write schema.additional ++
  given "items" ItemsSchema.write schema.items ++
  Shape.items "allOf" (schema.allOf.map SchemaNode.write) ++
  Shape.items "oneOf" (schema.oneOf.map SchemaNode.write) ++
  Shape.items "anyOf" (schema.anyOf.map SchemaNode.write) ++
  given "discriminator" Discriminator.write schema.discriminator ++
  Shape.items "enum" schema.values ++
  schema.limits.write ++
  given "example" id schema.example? ++
  givenBool "x-one-of" schema.disjoint ++
  Shape.items "x-extensible-enum" schema.extensibleValues ++
  givenString "x-import" schema.importFrom

theorem Schema.write_eq (schema : Schema) : schema.write = .obj schema.fields := by
  cases schema
  rw [Schema.write, writeNodes_eq, writeNodes_eq, writeNodes_eq, writeProperties_eq, writeItems_eq,
    writeAdditional_eq]
  rfl

theorem SchemaNode.isNull_write (node : SchemaNode) : node.write.isNull = false := by
  cases node with
  | ref path => rfl
  | inline schema =>
      rw [SchemaNode.write, Schema.write_eq]
      rfl

theorem ItemsSchema.isNull_write (items : ItemsSchema) : items.write.isNull = false := by
  cases items with
  | one node => exact node.isNull_write
  | list nodes => rfl

theorem AdditionalSchema.isNull_write (additional : AdditionalSchema) :
    additional.write.isNull = false := by
  cases additional with
  | flag allowed => rfl
  | node values => exact values.isNull_write

theorem reference?_obj (fields : WrittenFields) (absent : Assoc.get? "$ref" fields = none) :
    reference? (.obj fields) = none := by
  simp only [reference?, Json.field?, absent]

/-- The keyword `additionalProperties`. -/
def AdditionalSchema.read (value : Json) : Result AdditionalSchema :=
  union "AdditionalProperties"
    [fun _ => (bool value).map .flag, fun _ => (SchemaNode.read value).map .node]

theorem Schema.readBy_write {value : Json} {schema : Schema}
    (nodes : ∀ part, sizeOf part < sizeOf value → ReadsBack SchemaNode.read SchemaNode.write part)
    (lists : ∀ part, sizeOf part < sizeOf value → ReadsBack ItemsSchema.read ItemsSchema.write part)
    (values : ∀ part, sizeOf part < sizeOf value →
      ReadsBack AdditionalSchema.read AdditionalSchema.write part)
    (success : Schema.readBy value (fun v _ => SchemaNode.read v) = .ok schema) :
    Schema.readBy (.obj schema.fields) (fun v _ => SchemaNode.read v) = .ok schema := by
  obtain ⟨r, opened, _, _, _, _, _, default, nullable, properties, _, additional, items, allOf, oneOf,
    anyOf, discriminator, enumeration, _, sample, disjoint, extensible, _⟩ :=
    Schema.readBy_eq_ok_iff.mp success
  have inside := Record.inside_of_record opened
  have limits : ∀ name ∈ Limits.names,
      Assoc.get? name schema.fields = Assoc.get? name schema.limits.write := by
    unfold Schema.fields
    simp [Limits.names, Assoc.get?_append]
  refine Schema.readBy_eq_ok_iff.mpr
    ⟨.ofFields _ _ _, rfl, Record.ends_ofFields,
      Record.optional_ofFields ?_ fun types _ => ⟨types.isNull_write, fun _ => types.read_write⟩,
      Record.optionalString_ofFields ?_, Record.optionalString_ofFields ?_,
      Record.optionalString_ofFields ?_,
      Record.optionalAny_again inside default ?_,
      Record.optional_again inside (fun part _ => bool_readsBack part) (fun _ => rfl) nullable ?_,
      Record.map_again inside nodes properties ?_,
      Record.strings_ofFields ?_,
      Record.optional_again inside values AdditionalSchema.isNull_write additional ?_,
      Record.optional_again inside lists ItemsSchema.isNull_write items ?_,
      Record.list_again inside nodes allOf ?_,
      Record.list_again inside nodes oneOf ?_,
      Record.list_again inside nodes anyOf ?_,
      Record.optional_again inside (fun part _ => Discriminator.readsBack part) (fun _ => rfl)
        discriminator ?_,
      Record.list_again inside (fun part _ => any_readsBack part) enumeration ?_,
      Limits.gather_ofFields limits,
      Record.optionalAny_again inside sample ?_,
      Record.optional_again inside (fun part _ => bool_readsBack part) (fun _ => rfl) disjoint ?_,
      Record.list_again inside (fun part _ => any_readsBack part) extensible ?_,
      Record.optionalString_ofFields ?_⟩
  all_goals
    unfold Schema.fields
    simp [Assoc.get?_append, Limits.names, Limits.get?_write_of_notMem]

theorem Schema.reference?_fields (schema : Schema) : reference? (.obj schema.fields) = none := by
  apply reference?_obj
  unfold Schema.fields
  simp [Assoc.get?_append, Limits.names, Limits.get?_write_of_notMem]

theorem Schema.get?_fields_of_mem_choices (schema : Schema) :
    ∀ name ∈ Assoc.keys SchemaType.choices, Assoc.get? name schema.fields = none := by
  unfold Schema.fields
  simp [SchemaType.choices, Assoc.keys, Assoc.get?_append, Limits.names,
    Limits.get?_write_of_notMem]

/-- An object with no field named like a choice names none. -/
theorem exists_choice_obj_eq_error {α : Type} {choices : List (String × α)} {fields : WrittenFields}
    (foreign : ∀ name ∈ Assoc.keys choices, Assoc.get? name fields = none) :
    ∃ e, choice choices (.obj fields) = .error e := by
  have unknown : ∀ name value, fields = [(name, value)] → Assoc.get? name choices = none := by
    rintro name value rfl
    refine Assoc.get?_eq_none_iff.mpr fun member => ?_
    have absent := foreign name member
    simp [Assoc.get?] at absent
  rcases fields with _ | ⟨⟨name, value⟩, _ | ⟨other, rest⟩⟩
  · exact ⟨_, rfl⟩
  · have unknown := unknown name value rfl
    cases value <;> simp [choice, unknown]
  · simp [choice]

theorem TypeSet.exists_read_obj_eq_error {fields : WrittenFields}
    (foreign : ∀ name ∈ Assoc.keys SchemaType.choices, Assoc.get? name fields = none) :
    ∃ e, TypeSet.read (.obj fields) = .error e := by
  obtain ⟨e, failed⟩ := exists_choice_obj_eq_error foreign
  refine ⟨_, (union_of_error ⟨e, ?_⟩).trans (union_of_error ⟨_, rfl⟩)⟩
  rw [SchemaType.read, failed]
  rfl

theorem SchemaNode.write_eq_obj (node : SchemaNode) :
    ∃ fields, node.write = .obj fields ∧
      ∀ name ∈ Assoc.keys SchemaType.choices, Assoc.get? name fields = none := by
  cases node with
  | ref path => exact ⟨_, rfl, by simp [SchemaType.choices, Assoc.keys, Assoc.get?]⟩
  | inline schema => exact ⟨_, schema.write_eq, schema.get?_fields_of_mem_choices⟩

/-- A list of written nodes is not read as a schema whose fields it holds: the first item would be
its types. -/
theorem SchemaNode.exists_read_nodes_eq_error (nodes : List SchemaNode) :
    ∃ e, SchemaNode.read (.arr (nodes.map SchemaNode.write)) = .error e := by
  cases found : Schema.readBy (.arr (nodes.map SchemaNode.write)) fun v _ => SchemaNode.read v with
  | error e =>
      refine ⟨.noVariant "SchemaOrRef", ?_⟩
      rw [SchemaNode.read]
      simp only [reference?, Json.field?, found]
  | ok schema =>
      obtain ⟨r, opened, _, types, _⟩ := Schema.readBy_eq_ok_iff.mp found
      cases Except.ok.inj opened
      cases nodes with
      | nil => cases types
      | cons node rest =>
          obtain ⟨fields, written, foreign⟩ := node.write_eq_obj
          obtain ⟨e, failed⟩ := TypeSet.exists_read_obj_eq_error foreign
          rcases Record.optional_eq_ok_iff.mp types with ⟨first, known, reading⟩ | ⟨absent, _, _⟩
          · cases Option.some.inj known
            rw [if_neg (by simp [node.isNull_write])] at reading
            obtain ⟨read, success, _⟩ := reading
            simp only [written, failed] at success
            cases success
          · cases absent

theorem ItemsSchema.readsBack_of {value : Json}
    (nodes : ∀ part, sizeOf part ≤ sizeOf value → ReadsBack SchemaNode.read SchemaNode.write part) :
    ReadsBack ItemsSchema.read ItemsSchema.write value := by
  intro items success
  rcases of_union success with found | found
  · obtain ⟨node, read, rfl⟩ := map_eq_ok_iff.mp found
    apply union_of_ok
    rw [ItemsSchema.write, nodes value (Nat.le_refl _) node read]
    rfl
  · obtain ⟨list, read, rfl⟩ := map_eq_ok_iff.mp found
    have again : ∀ node ∈ list, SchemaNode.read node.write = .ok node :=
      of_listOf read fun part smaller node _ found =>
        nodes part (Nat.le_of_lt smaller) node found
    obtain ⟨e, failed⟩ := SchemaNode.exists_read_nodes_eq_error list
    refine (union_of_error ⟨e, ?_⟩).trans (union_of_ok ?_)
    · rw [ItemsSchema.write, failed]
      rfl
    · rw [ItemsSchema.write, listOf_map fun node member _ => again node member]
      rfl

theorem AdditionalSchema.readsBack_of {value : Json}
    (nodes : ReadsBack SchemaNode.read SchemaNode.write value) :
    ReadsBack AdditionalSchema.read AdditionalSchema.write value := by
  intro additional success
  rcases of_union success with found | found
  · obtain ⟨allowed, _, rfl⟩ := map_eq_ok_iff.mp found
    rfl
  · obtain ⟨node, read, rfl⟩ := map_eq_ok_iff.mp found
    obtain ⟨fields, written, _⟩ := node.write_eq_obj
    refine (union_of_error ⟨.invalidType node.write "a boolean", ?_⟩).trans (union_of_ok ?_)
    · rw [AdditionalSchema.write, written]
      rfl
    · rw [AdditionalSchema.write, nodes node read]
      rfl

/-- A schema that was read is read again from what it is written as. -/
theorem SchemaNode.readsBack (value : Json) : ReadsBack SchemaNode.read SchemaNode.write value := by
  have nodes : ∀ part, sizeOf part < sizeOf value →
      ReadsBack SchemaNode.read SchemaNode.write part := fun part _ => SchemaNode.readsBack part
  intro node success
  rw [SchemaNode.read] at success
  split at success
  · cases Except.ok.inj success
    rw [SchemaNode.write, SchemaNode.read]
    rfl
  · split at success
    · rename_i schema read
      cases Except.ok.inj success
      have again := Schema.readBy_write nodes
        (fun part smaller => ItemsSchema.readsBack_of fun inner within =>
          nodes inner (Nat.lt_of_le_of_lt within smaller))
        (fun part smaller => AdditionalSchema.readsBack_of (nodes part smaller)) read
      rw [SchemaNode.write, Schema.write_eq, SchemaNode.read, schema.reference?_fields]
      simp only [again]
    · cases success
termination_by sizeOf value

theorem ItemsSchema.readsBack (value : Json) :
    ReadsBack ItemsSchema.read ItemsSchema.write value :=
  ItemsSchema.readsBack_of fun part _ => SchemaNode.readsBack part

end Document

end ApiCodec

import ApiCodec.Document.Catalog
import ApiCodec.Files.Bundle
import ApiCodec.Proofs.Reading.Records
import ApiCodec.Proofs.Walk.Paths

set_option autoImplicit false

namespace ApiCodec

open Document Shape

theorem references_subset_itemReferences {items : List Json} {item : Json} (member : item ∈ items) :
    item.references ⊆ itemReferences items := by
  induction items with
  | nil => cases member
  | cons first rest ih =>
      rw [itemReferences]
      rcases List.mem_cons.mp member with rfl | member
      · exact List.subset_append_left _ _
      · exact List.subset_append_of_subset_right _ (ih member)

theorem fieldReferences_append (first second : List (String × Json)) :
    fieldReferences (first ++ second) = fieldReferences first ++ fieldReferences second := by
  induction first with
  | nil => rfl
  | cons field rest ih => simp only [List.cons_append, fieldReferences, ih, List.append_assoc]

theorem fieldReferences_subset {fields : List (String × Json)} {field : String × Json}
    (member : field ∈ fields) : fieldReferences [field] ⊆ fieldReferences fields := by
  obtain ⟨before, later, rfl⟩ := List.append_of_mem member
  rw [List.append_cons, fieldReferences_append, fieldReferences_append]
  exact List.subset_append_of_subset_left _ (List.subset_append_right _ _)

theorem references_subset_fieldReferences (key : String) (value : Json) :
    value.references ⊆ fieldReferences [(key, value)] := by
  simp only [fieldReferences, List.append_nil]
  split
  · exact List.nil_subset _
  · exact List.Subset.refl _

namespace Json

theorem HasPart.references_subset {whole part : Json} (inside : whole.HasPart part) :
    part.references ⊆ whole.references := by
  cases inside with
  | item member => exact references_subset_itemReferences member
  | field member =>
      exact List.Subset.trans (references_subset_fieldReferences _ _) (fieldReferences_subset member)

theorem Contains.references_subset {whole part : Json} (inside : whole.Contains part) :
    part.references ⊆ whole.references := by
  induction inside with
  | single part => exact part.references_subset
  | tail _ part ih => exact List.Subset.trans part.references_subset ih

theorem mem_references_of_reference? {value : Json} {path : String}
    (found : reference? value = some path) : path ∈ value.references := by
  unfold reference? at found
  split at found
  · rename_i text known
    cases Option.some.inj found
    cases value with
    | obj fields =>
        refine fieldReferences_subset (Assoc.mem_of_get? known) ?_
        simp [fieldReferences]
    | null => cases known
    | bool b => cases known
    | num n => cases known
    | str s => cases known
    | arr items => cases known
  · cases found

theorem mem_of_item? {name : String} {position : Nat} {items : List Json} {item : Json}
    (found : item? name position items = some item) : item ∈ items := by
  induction items generalizing position with
  | nil => cases found
  | cons first rest ih =>
      simp only [item?] at found
      split at found
      · cases Option.some.inj found
        exact List.mem_cons_self
      · exact List.mem_cons_of_mem _ (ih found)

theorem hasPart_of_step? {segment : List Char} {value part : Json}
    (found : step? segment value = some part) : value.HasPart part := by
  cases value with
  | obj fields => exact .field (Assoc.mem_of_get? found)
  | arr items => exact .item (mem_of_item? found)
  | null => cases found
  | bool b => cases found
  | num n => cases found
  | str s => cases found

theorem references_subset_of_follow? {segments : List (List Char)} {value place : Json}
    (found : follow? segments value = some place) : place.references ⊆ value.references := by
  induction segments generalizing value with
  | nil =>
      cases Option.some.inj found
      exact List.Subset.refl _
  | cons segment rest ih =>
      obtain ⟨part, step, later⟩ := Option.bind_eq_some_iff.mp found
      exact List.Subset.trans (ih later) (hasPart_of_step? step).references_subset

/-- What stands at a place of a value refers to nothing that the value does not refer to. -/
theorem references_subset_of_at? {path : List Char} {value place : Json}
    (found : at? path value = some place) : place.references ⊆ value.references := by
  unfold at? at found
  split at found
  · cases Option.some.inj found
    exact List.Subset.refl _
  · split at found
    · exact references_subset_of_follow? found
    · cases found

end Json

namespace Document

theorem propertyPaths_eq (properties : List (String × SchemaNode)) :
    propertyPaths properties = properties.flatMap fun entry => entry.2.paths := by
  induction properties with
  | nil => rfl
  | cons entry rest ih => rw [propertyPaths, ih, List.flatMap_cons]

theorem nodePaths_eq (nodes : List SchemaNode) : nodePaths nodes = nodes.flatMap (·.paths) := by
  induction nodes with
  | nil => rfl
  | cons node rest ih => rw [nodePaths, ih, List.flatMap_cons]

theorem Schema.paths_eq (schema : Schema) :
    schema.paths =
      propertyPaths schema.properties ++ itemPaths schema.items ++
        additionalPaths schema.additional ++
          (if !schema.oneOf.isEmpty then nodePaths schema.oneOf
          else if !schema.anyOf.isEmpty then nodePaths schema.anyOf
          else nodePaths schema.allOf) := by
  cases schema
  rw [Schema.paths]

variable {whole : Json} {refs : List String}

theorem itemPaths_subset {one : Result SchemaNode} {many : Result (List SchemaNode)}
    {items : ItemsSchema}
    (success : union "Items" [fun _ => one.map .one, fun _ => many.map .list] = .ok items)
    (own : ∀ a, one = .ok a → a.paths ⊆ refs)
    (each : ∀ nodes, many = .ok nodes → ∀ a ∈ nodes, a.paths ⊆ refs) :
    itemPaths (some items) ⊆ refs := by
  rcases of_union success with found | found
  · obtain ⟨a, read, rfl⟩ := map_eq_ok_iff.mp found
    exact own a read
  · obtain ⟨nodes, read, rfl⟩ := map_eq_ok_iff.mp found
    cases nodes with
    | nil => exact List.nil_subset _
    | cons first rest => exact each _ read first List.mem_cons_self

theorem additionalPaths_subset {node : PartReader whole SchemaNode} {value : Json}
    {smaller : sizeOf value < sizeOf whole} {additional : AdditionalSchema}
    (success : AdditionalSchema.readBy node value smaller = .ok additional)
    (own : ∀ a, node value smaller = .ok a → a.paths ⊆ refs) :
    additionalPaths (some additional) ⊆ refs := by
  rcases of_union success with flag | values
  · obtain ⟨allowed, _, rfl⟩ := map_eq_ok_iff.mp flag
    exact List.nil_subset _
  · obtain ⟨a, read, rfl⟩ := map_eq_ok_iff.mp values
    exact own a read

theorem flatMap_subset_iff {α : Type} {as : List α} {f : α → List String} :
    as.flatMap f ⊆ refs ↔ ∀ a ∈ as, f a ⊆ refs := by
  constructor
  · intro all a inside path member
    exact all (List.mem_flatMap.mpr ⟨a, inside, member⟩)
  · intro each path member
    obtain ⟨a, inside, member⟩ := List.mem_flatMap.mp member
    exact each a inside member

/-- The references of a node that is read from a value are references of the value. -/
theorem SchemaNode.paths_subset {value : Json} {node : SchemaNode}
    (success : SchemaNode.read value = .ok node) : node.paths ⊆ value.references := by
  rw [SchemaNode.read] at success
  split at success
  · rename_i path found
    cases Except.ok.inj success
    exact List.cons_subset.mpr ⟨Json.mem_references_of_reference? found, List.nil_subset _⟩
  · split at success
    · rename_i schema read
      cases Except.ok.inj success
      obtain ⟨r, opened, _, _, _, _, _, _, _, properties, _, additional, items, allOf, oneOf, anyOf,
        _⟩ := Schema.readBy_eq_ok_iff.mp read
      have inside := Record.inside_of_record opened
      have inner : ∀ (part : Json), sizeOf part < sizeOf value → ∀ a, value.Contains part →
          SchemaNode.read part = .ok a → a.paths ⊆ value.references :=
        fun part _ a contained read =>
          List.Subset.trans (SchemaNode.paths_subset read) contained.references_subset
      have ofProperties : propertyPaths schema.properties ⊆ value.references := by
        rw [propertyPaths_eq]
        exact flatMap_subset_iff.mpr (Record.of_map (P := fun a => a.paths ⊆ value.references) inside
          properties inner)
      have ofItems : itemPaths schema.items ⊆ value.references := by
        have given := Record.of_optional (P := fun a => itemPaths (some a) ⊆ value.references)
          inside items fun part h a contained _ read =>
            itemPaths_subset read (fun b read => inner part h b contained read) fun nodes read =>
              of_listOf (P := fun a => a.paths ⊆ value.references) read
                fun deep smaller b below read =>
                  inner deep (Nat.lt_trans smaller h) b (contained.tail below) read
        cases known : schema.items with
        | none => exact List.nil_subset _
        | some a => exact given a known
      have ofAdditional : additionalPaths schema.additional ⊆ value.references := by
        have given := Record.of_optional (P := fun a => additionalPaths (some a) ⊆ value.references)
          inside additional fun part h a contained _ read =>
            additionalPaths_subset read fun b read => inner part h b contained read
        cases known : schema.additional with
        | none => exact List.nil_subset _
        | some a => exact given a known
      have ofNodes : ∀ {name : String} {nodes : List SchemaNode},
          (r.list name fun v _ => SchemaNode.read v).run = .ok nodes →
            nodePaths nodes ⊆ value.references := by
        intro name nodes listed
        rw [nodePaths_eq]
        exact flatMap_subset_iff.mpr (Record.of_list (P := fun a => a.paths ⊆ value.references) inside
          listed inner)
      have compositions : (if !schema.oneOf.isEmpty then nodePaths schema.oneOf
          else if !schema.anyOf.isEmpty then nodePaths schema.anyOf
          else nodePaths schema.allOf) ⊆ value.references := by
        split
        · exact ofNodes oneOf
        · split
          · exact ofNodes anyOf
          · exact ofNodes allOf
      rw [SchemaNode.paths, Schema.paths_eq]
      exact List.append_subset.mpr ⟨List.append_subset.mpr ⟨List.append_subset.mpr
        ⟨ofProperties, ofItems⟩, ofAdditional⟩, compositions⟩
    · cases success
termination_by sizeOf value

/-- The references of what may stand in place or be referred to. -/
def OrRef.paths {α : Type} (inner : α → List String) : OrRef α → List String
  | .ref path => [path]
  | .inline a => inner a

theorem OrRef.paths_subset {α : Type} {inner : α → List String} {union : String}
    {read : Json → Result α} {value : Json} {node : OrRef α}
    (success : OrRef.read union read value = .ok node)
    (own : ∀ a, read value = .ok a → inner a ⊆ value.references) :
    node.paths inner ⊆ value.references := by
  unfold OrRef.read at success
  split at success
  · rename_i path found
    cases Except.ok.inj success
    exact List.cons_subset.mpr ⟨Json.mem_references_of_reference? found, List.nil_subset _⟩
  · split at success
    · rename_i a read
      cases Except.ok.inj success
      exact own a read
    · cases success

def givenPaths : Option SchemaNode → List String
  | none => []
  | some node => node.paths

def Parameter.paths (p : Parameter) : List String := givenPaths p.effectiveSchema?

def ParameterNode.paths : ParameterNode → List String := OrRef.paths Parameter.paths

def contentPaths (content : Content) : List String :=
  content.flatMap fun entry => givenPaths entry.2.schema

/-- The references in the schemas of a response. -/
def Response.paths (response : Response) : List String :=
  givenPaths response.schema ++ contentPaths response.content

def ResponseNode.paths : ResponseNode → List String := OrRef.paths Response.paths

def RequestBodyNode.paths : RequestBodyNode → List String :=
  OrRef.paths fun body => contentPaths body.content

def Operation.paths (op : Operation) : List String :=
  op.parameters.flatMap ParameterNode.paths ++ op.requestBody.toList.flatMap RequestBodyNode.paths ++
    op.responses.flatMap fun entry => ResponseNode.paths entry.2

section

variable {α : Type} {read : Json → Result α} {inner : α → List String}

/-- What is read from a value refers to nothing that the value does not refer to. -/
def ReadsWithin (read : Json → Result α) (inner : α → List String) : Prop :=
  ∀ {value : Json} {a : α}, read value = .ok a → inner a ⊆ value.references

theorem ReadsWithin.contained (reads : ReadsWithin read inner) {part : Json} {a : α}
    (contained : whole.Contains part) (success : read part = .ok a) : inner a ⊆ whole.references :=
  List.Subset.trans (reads success) contained.references_subset

variable {r : Record whole} {name : String}

theorem ReadsWithin.map (reads : ReadsWithin read inner) (inside : r.Inside)
    {entries : List (String × α)} (success : (r.map name fun v _ => read v).run = .ok entries) :
    ∀ entry ∈ entries, inner entry.2 ⊆ whole.references :=
  Record.of_map (P := fun a => inner a ⊆ whole.references) inside success
    fun _ _ _ contained success => reads.contained contained success

theorem ReadsWithin.list (reads : ReadsWithin read inner) (inside : r.Inside) {as : List α}
    (success : (r.list name fun v _ => read v).run = .ok as) :
    ∀ a ∈ as, inner a ⊆ whole.references :=
  Record.of_list (P := fun a => inner a ⊆ whole.references) inside success
    fun _ _ _ contained success => reads.contained contained success

theorem ReadsWithin.optional (reads : ReadsWithin read inner) (inside : r.Inside) {a : Option α}
    (success : (r.optional name fun v _ => read v).run = .ok a) :
    ∀ b ∈ a, inner b ⊆ whole.references :=
  Record.of_optional (P := fun b => inner b ⊆ whole.references) inside success
    fun _ _ _ contained _ success => reads.contained contained success

end

theorem SchemaNode.readsWithin : ReadsWithin SchemaNode.read SchemaNode.paths :=
  SchemaNode.paths_subset

theorem givenPaths_subset {given : Option SchemaNode} (each : ∀ node ∈ given, node.paths ⊆ refs) :
    givenPaths given ⊆ refs := by
  cases given with
  | none => exact List.nil_subset _
  | some node => exact each node rfl

theorem ItemsSchema.readsWithin :
    ReadsWithin ItemsSchema.read fun items => itemPaths (some items) := by
  intro value items success
  refine itemPaths_subset success (fun a read => SchemaNode.paths_subset read) fun nodes read => ?_
  exact of_listOf (P := fun a => a.paths ⊆ value.references) read fun part _ a inside read =>
    SchemaNode.readsWithin.contained inside.contains read

theorem Parameter.readsWithin : ReadsWithin Parameter.read Parameter.paths := by
  intro value p success
  obtain ⟨r, opened, _, _, _, _, _, _, schema, _, _, items, _⟩ := Parameter.read_eq_ok_iff.mp success
  have inside := Record.inside_of_record opened
  have ofSchema := SchemaNode.readsWithin.optional inside schema
  have ofItems := ItemsSchema.readsWithin.optional inside items
  refine givenPaths_subset fun node known => ?_
  unfold effectiveSchema? at known
  split at known
  · rename_i declared given
    cases Option.some.inj known
    exact ofSchema node given
  · obtain ⟨types, _, rfl⟩ := Option.map_eq_some_iff.mp known
    cases given : p.items with
    | none => exact List.nil_subset _
    | some items =>
        simpa [SchemaNode.paths, Schema.paths_eq, Schema.empty, propertyPaths, additionalPaths,
          nodePaths] using ofItems items given

theorem ParameterNode.readsWithin : ReadsWithin ParameterNode.read ParameterNode.paths :=
  fun success => OrRef.paths_subset success fun _ => Parameter.readsWithin

theorem MediaType.readsWithin : ReadsWithin MediaType.read fun m => givenPaths m.schema := by
  intro value m success
  obtain ⟨r, opened, _, schema, _⟩ := MediaType.read_eq_ok_iff.mp success
  exact givenPaths_subset (SchemaNode.readsWithin.optional (Record.inside_of_record opened) schema)

theorem Response.readsWithin : ReadsWithin Response.read Response.paths := by
  intro value response success
  obtain ⟨r, opened, _, _, schema, content, _⟩ := Response.read_eq_ok_iff.mp success
  have inside := Record.inside_of_record opened
  exact List.append_subset.mpr
    ⟨givenPaths_subset (SchemaNode.readsWithin.optional inside schema),
      flatMap_subset_iff.mpr (MediaType.readsWithin.map inside content)⟩

theorem ResponseNode.readsWithin : ReadsWithin ResponseNode.read ResponseNode.paths :=
  fun success => OrRef.paths_subset success fun _ => Response.readsWithin

theorem RequestBody.readsWithin :
    ReadsWithin RequestBody.read fun body => contentPaths body.content := by
  intro value body success
  obtain ⟨r, opened, _, _, content, _⟩ := RequestBody.read_eq_ok_iff.mp success
  refine Record.of_required (P := fun content => contentPaths content ⊆ value.references)
    (Record.inside_of_record opened) content fun part _ contained read => ?_
  refine flatMap_subset_iff.mpr
    (of_mapOf (P := fun m => givenPaths m.schema ⊆ value.references) read ?_)
  intro deep _ m below read
  exact MediaType.readsWithin.contained (contained.tail below) read

theorem RequestBodyNode.readsWithin : ReadsWithin RequestBodyNode.read RequestBodyNode.paths :=
  fun success => OrRef.paths_subset success fun _ => RequestBody.readsWithin

theorem Operation.paths_subset_iff {op : Operation} :
    op.paths ⊆ refs ↔
      (∀ node ∈ op.parameters, ParameterNode.paths node ⊆ refs) ∧
        (∀ node ∈ op.requestBody, RequestBodyNode.paths node ⊆ refs) ∧
          ∀ entry ∈ op.responses, ResponseNode.paths entry.2 ⊆ refs := by
  unfold paths
  rw [List.append_subset, List.append_subset, flatMap_subset_iff, flatMap_subset_iff,
    flatMap_subset_iff, and_assoc]
  simp only [Option.mem_toList, Option.mem_def]

theorem Operation.readsWithin : ReadsWithin Operation.read Operation.paths := by
  intro value op success
  obtain ⟨r, opened, _, _, _, _, _, parameters, body, responses, _⟩ :=
    Operation.read_eq_ok_iff.mp success
  have inside := Record.inside_of_record opened
  exact Operation.paths_subset_iff.mpr
    ⟨ParameterNode.readsWithin.list inside parameters,
      RequestBodyNode.readsWithin.optional inside body, ResponseNode.readsWithin.map inside responses⟩

/-- All that the parameters and operations of a path item refer to. -/
structure PathItem.Within (refs : List String) (item : PathItem) : Prop where
  shared : ∀ node ∈ item.parameters, ParameterNode.paths node ⊆ refs
  operations : ∀ declared, item.operations = .ok declared → ∀ entry ∈ declared,
    entry.2.paths ⊆ refs

theorem PathItem.Within.mono {item : PathItem} {more : List String} (within : item.Within refs)
    (fewer : refs ⊆ more) : item.Within more where
  shared := fun node member => List.Subset.trans (within.shared node member) fewer
  operations := fun declared success entry member =>
    List.Subset.trans (within.operations declared success entry member) fewer

theorem PathItem.within_of_read {value : Json} {item : PathItem}
    (success : PathItem.read value = .ok item) : item.Within value.references := by
  obtain ⟨r, opened, _, _, _, parameters, _, _, entries⟩ := PathItem.read_eq_ok_iff.mp success
  have inside := Record.inside_of_openRecord opened
  refine ⟨ParameterNode.readsWithin.list inside parameters, ?_⟩
  intro declared listed entry member
  obtain ⟨⟨key, part⟩, there, _, read⟩ := exists_entry_of_mem_operations listed member
  rw [entries] at there
  obtain ⟨field, known, same⟩ := List.mem_map.mp (Assoc.mem_ofList there)
  obtain ⟨_, rfl⟩ := Prod.mk.inj same
  exact Operation.readsWithin.contained (inside field (List.mem_filter.mp known).1).contains read

/-- All that the registries of a document refer to. -/
structure Components.Within (refs : List String) (c : Components) : Prop where
  schemas : ∀ entry ∈ c.schemas, entry.2.paths ⊆ refs
  parameters : ∀ entry ∈ c.parameters, ParameterNode.paths entry.2 ⊆ refs
  responses : ∀ entry ∈ c.responses, ResponseNode.paths entry.2 ⊆ refs
  requestBodies : ∀ entry ∈ c.requestBodies, RequestBodyNode.paths entry.2 ⊆ refs

theorem Components.Within.mono {c : Components} {more : List String} (within : c.Within refs)
    (fewer : refs ⊆ more) : c.Within more where
  schemas := fun entry member => List.Subset.trans (within.schemas entry member) fewer
  parameters := fun entry member => List.Subset.trans (within.parameters entry member) fewer
  responses := fun entry member => List.Subset.trans (within.responses entry member) fewer
  requestBodies := fun entry member => List.Subset.trans (within.requestBodies entry member) fewer

theorem Components.within_of_read {value : Json} {c : Components}
    (success : Components.read value = .ok c) : c.Within value.references := by
  obtain ⟨r, opened, _, schemas, responses, parameters, requestBodies, _⟩ :=
    Components.read_eq_ok_iff.mp success
  have inside := Record.inside_of_record opened
  exact
    { schemas := SchemaNode.readsWithin.map inside schemas
      parameters := ParameterNode.readsWithin.map inside parameters
      responses := ResponseNode.readsWithin.map inside responses
      requestBodies := RequestBodyNode.readsWithin.map inside requestBodies }

end Document

/-- All that a document declares refers to. -/
structure Catalog.Within (refs : List String) (c : Catalog) : Prop where
  definitions : ∀ entry ∈ c.definitions, entry.2.paths ⊆ refs
  parameters : ∀ entry ∈ c.parameters, ParameterNode.paths entry.2 ⊆ refs
  responses : ∀ entry ∈ c.responses, ResponseNode.paths entry.2 ⊆ refs
  requestBodies : ∀ entry ∈ c.requestBodies, RequestBodyNode.paths entry.2 ⊆ refs
  paths : ∀ entry ∈ c.paths, entry.2.Within refs

namespace Catalog

theorem Within.mono {c : Catalog} {refs more : List String} (within : c.Within refs)
    (fewer : refs ⊆ more) : c.Within more where
  definitions := fun entry member => List.Subset.trans (within.definitions entry member) fewer
  parameters := fun entry member => List.Subset.trans (within.parameters entry member) fewer
  responses := fun entry member => List.Subset.trans (within.responses entry member) fewer
  requestBodies := fun entry member => List.Subset.trans (within.requestBodies entry member) fewer
  paths := fun entry member => (within.paths entry member).mono fewer

theorem within_of_paths {whole : Json} {r : Record whole} (inside : r.Inside)
    {paths : List (String × PathItem)}
    (success : (r.map "paths" fun v _ => PathItem.read v).run = .ok paths) :
    ∀ entry ∈ paths, entry.2.Within whole.references :=
  Record.of_map (P := fun item => item.Within whole.references) inside success
    fun _ _ _ contained read => (PathItem.within_of_read read).mono contained.references_subset

theorem within_of_swagger {value : Json} {d : Swagger} (success : Swagger.read value = .ok d) :
    (ofSwagger d).Within value.references := by
  obtain ⟨r, opened, _, _, _, _, _, _, _, _, paths, definitions, parameters, responses, _⟩ :=
    Swagger.read_eq_ok_iff.mp success
  have inside := Record.inside_of_record opened
  exact
    { definitions := SchemaNode.readsWithin.map inside definitions
      parameters := ParameterNode.readsWithin.map inside parameters
      responses := ResponseNode.readsWithin.map inside responses
      requestBodies := fun _ member => by cases member
      paths := within_of_paths inside paths }

theorem within_of_openApi {value : Json} {d : OpenApi} (success : OpenApi.read value = .ok d) :
    (ofOpenApi d).Within value.references := by
  obtain ⟨r, opened, _, _, _, _, paths, components, _⟩ := OpenApi.read_eq_ok_iff.mp success
  have inside := Record.inside_of_record opened
  have registries : d.components.Within value.references :=
    Record.of_defaulted (P := fun c => c.Within value.references) inside components
      ⟨by simp [Components.empty], by simp [Components.empty], by simp [Components.empty],
        by simp [Components.empty]⟩
      fun _ _ contained read => (Components.within_of_read read).mono contained.references_subset
  exact
    { definitions := registries.schemas
      parameters := registries.parameters
      responses := registries.responses
      requestBodies := registries.requestBodies
      paths := within_of_paths inside paths }

end Catalog

theorem fieldReferences_insert_subset {key text : String} {fields : List (String × Json)}
    (other : key ≠ "$ref") :
    fieldReferences (Assoc.insert key (.str text) fields) ⊆ fieldReferences fields := by
  have none : ∀ rest, fieldReferences ((key, .str text) :: rest) = fieldReferences rest := by
    intro rest
    simp [fieldReferences, other, Json.references]
  induction fields with
  | nil =>
      rw [Assoc.insert, none]
      exact List.Subset.refl _
  | cons field rest ih =>
      obtain ⟨k, value⟩ := field
      simp only [Assoc.insert]
      split
      · rename_i same
        rw [same, none]
        exact List.subset_append_right _ _
      · exact List.append_subset.mpr ⟨List.subset_append_left _ _,
          List.subset_append_of_subset_right _ ih⟩

/-- The version of a document is no reference. -/
theorem Document.references_withTextMarker_subset (dialect : Dialect) (value : Json) :
    (withTextMarker dialect value).references ⊆ value.references := by
  unfold withTextMarker
  split
  · rename_i fields
    split
    · rename_i n _
      exact fieldReferences_insert_subset (by cases dialect <;> decide)
    · exact List.Subset.refl _
  · exact List.Subset.refl _

/-- A document refers to nothing that the value from which it is read does not refer to. -/
theorem Catalog.within_of_ofJson {value : Json} {document : Document}
    (success : Document.ofJson value = .ok document) :
    (Catalog.ofDocument document).Within value.references := by
  have marked := fun dialect => Document.references_withTextMarker_subset dialect value
  unfold Document.ofJson at success
  split at success
  · cases success
  · simp only at success
    split at success
    · split at success
      · rename_i doc read
        cases Except.ok.inj success
        exact (Catalog.within_of_swagger read).mono (marked .swagger2)
      · cases success
    · split at success
      · rename_i doc read
        cases Except.ok.inj success
        exact (Catalog.within_of_openApi read).mono (marked .openApi3)
      · cases success

end ApiCodec

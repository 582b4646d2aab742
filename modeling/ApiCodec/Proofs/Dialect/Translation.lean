import ApiCodec.Document.Catalog
import Mathlib.Data.List.Forall2

set_option autoImplicit false

namespace ApiCodec.Document

/-- Where the collections of a Swagger document stand among components. -/
def collections : List (String × String) :=
  [("#/definitions/", "#/components/schemas/"),
   ("#/parameters/", "#/components/parameters/"),
   ("#/responses/", "#/components/responses/")]

/-- A reference as it reads when the collections are moved under components. -/
def toComponents (path : String) : String :=
  match collections.find? fun moved => moved.1.toList.isPrefixOf path.toList with
  | some (old, new) => String.ofList (new.toList ++ path.toList.drop old.length)
  | none => path

mutual

/-- The node with its references changed. -/
def SchemaNode.mapPaths (f : String → String) : SchemaNode → SchemaNode
  | .ref path => .ref (f path)
  | .inline schema => .inline (schema.mapPaths f)

def Schema.mapPaths (f : String → String) : Schema → Schema
  | { types, format, title, description, default, nullable, properties, required, additional,
      items, allOf, oneOf, anyOf, discriminator, values, limits, example?, disjoint,
      extensibleValues, importFrom } =>
      { types, format, title, description, default, nullable, required, values, limits, example?
        disjoint, extensibleValues, importFrom
        properties := mapPropertyPaths f properties
        additional := mapAdditionalPaths f additional
        items := mapItemPaths f items
        allOf := mapNodePaths f allOf
        oneOf := mapNodePaths f oneOf
        anyOf := mapNodePaths f anyOf
        discriminator := discriminator.map fun d =>
          { d with mapping := d.mapping.map fun (value, path) => (value, f path) } }

def mapPropertyPaths (f : String → String) :
    List (String × SchemaNode) → List (String × SchemaNode)
  | [] => []
  | (name, node) :: rest => (name, node.mapPaths f) :: mapPropertyPaths f rest

def mapNodePaths (f : String → String) : List SchemaNode → List SchemaNode
  | [] => []
  | node :: rest => node.mapPaths f :: mapNodePaths f rest

def mapItemPaths (f : String → String) : Option ItemsSchema → Option ItemsSchema
  | none => none
  | some (.one node) => some (.one (node.mapPaths f))
  | some (.list nodes) => some (.list (mapNodePaths f nodes))

def mapAdditionalPaths (f : String → String) : Option AdditionalSchema → Option AdditionalSchema
  | none => none
  | some (.flag allowed) => some (.flag allowed)
  | some (.node values) => some (.node (values.mapPaths f))

end

def SchemaNode.translated (node : SchemaNode) : SchemaNode := node.mapPaths toComponents

/-- A parameter that declares its type in place, with a schema for it instead. -/
def Parameter.translated (p : Parameter) : Parameter :=
  { p with
    schema := p.effectiveSchema?.map SchemaNode.translated
    types := none
    format := none
    items := none
    values := []
    default := none
    limits := {} }

def ParameterNode.translated : ParameterNode → ParameterNode
  | .ref path => .ref (toComponents path)
  | .inline p => .inline p.translated

def ParameterNode.isBody : ParameterNode → Bool
  | .ref _ => false
  | .inline p => p.location == .body

/-- A response whose schema moved under a content type. -/
structure Response.Translates (r r' : Response) : Prop where
  content : r'.content.map (·.2.schema) = r.schema.toList.map fun node => some node.translated
  headers : r'.headers = r.headers

inductive ResponseNode.Translates : ResponseNode → ResponseNode → Prop
  | ref (path : String) : Translates (.ref path) (.ref (toComponents path))
  | inline {r r' : Response} (translates : r.Translates r') : Translates (.inline r) (.inline r')

/-- Registries or responses that are translated entry by entry. -/
def TranslatesEach (responses responses' : List (String × ResponseNode)) : Prop :=
  List.Forall₂ (fun e e' => e.1 = e'.1 ∧ ResponseNode.Translates e.2 e'.2) responses responses'

/-- What becomes of the body among the parameters: at most one, in place and with a schema, it moves
under one content type that is not one of forms. -/
inductive BodyTranslates : List ParameterNode → Option RequestBodyNode → Prop
  | none : BodyTranslates [] none
  | one {p : Parameter} {body : RequestBody} {node : SchemaNode} {contentType : String}
      {media : MediaType} (named : p.name = "body") (typed : p.schema = some node)
      (content : body.content = [(contentType, media)])
      (noForm : ¬ "multipart/".toList.isPrefixOf contentType.toList)
      (moved : media.schema = some node.translated) (required : body.required = p.required) :
      BodyTranslates [.inline p] (some (.inline body))

structure Operation.Translates (op op' : Operation) : Prop where
  operationId : op'.operationId = op.operationId
  parameters : op'.parameters =
    (op.parameters.filter fun node => !node.isBody).map ParameterNode.translated
  body : BodyTranslates (op.parameters.filter fun node => node.isBody) op'.requestBody
  responses : TranslatesEach op.responses op'.responses
  security : op'.security = op.security

/-- Entries of path items: operations are translated, the rest stays as it is. -/
inductive EntryTranslates : String × Json → String × Json → Prop
  | extension {key : String} (value : Json) (other : PathItem.isExtension key) :
      EntryTranslates (key, value) (key, value)
  | unreadable {key : String} {value : Json} {cause : ShapeError}
      (reads : Operation.read value = .error cause) : EntryTranslates (key, value) (key, value)
  | operation {key : String} {value value' : Json} {op op' : Operation}
      (reads : Operation.read value = .ok op) (reads' : Operation.read value' = .ok op')
      (translates : op.Translates op') : EntryTranslates (key, value) (key, value')

/-- Path items with translated operations. No parameter of the path is a body. -/
structure PathItem.Translates (item item' : PathItem) : Prop where
  parameters : item'.parameters = item.parameters.map ParameterNode.translated
  noBody : ∀ node ∈ item.parameters, ¬ node.isBody
  entries : List.Forall₂ EntryTranslates item.entries item'.entries

/-- A Swagger document without body parameters outside of operations, and its translation. -/
structure Swagger.Translates (doc : Swagger) (doc' : OpenApi) : Prop where
  definitions : doc'.components.schemas =
    doc.definitions.map fun (name, node) => (name, node.translated)
  parameters : doc'.components.parameters =
    doc.parameters.map fun (name, node) => (name, ParameterNode.translated node)
  noBody : ∀ entry ∈ doc.parameters, ¬ ParameterNode.isBody entry.2
  responses : TranslatesEach doc.responses doc'.components.responses
  schemes : doc'.components.securitySchemes = doc.securityDefinitions
  security : doc'.security = doc.security
  paths : List.Forall₂ (fun e e' => e.1 = e'.1 ∧ PathItem.Translates e.2 e'.2) doc.paths doc'.paths

end ApiCodec.Document

import ApiCodec.Document.Operation
import ApiCodec.Document.Server
import ApiCodec.Json.Printer

set_option autoImplicit false

namespace ApiCodec

open Shape

namespace Document

structure Info where
  title : String
  description : Option String
  version : String

structure Tag where
  name : String
  description : Option String

/-- The registries of an OpenAPI 3 document. -/
structure Components where
  schemas : List (String × SchemaNode)
  responses : List (String × ResponseNode)
  parameters : List (String × ParameterNode)
  requestBodies : List (String × RequestBodyNode)
  securitySchemes : List (String × SecurityScheme)

structure Swagger where
  version : String
  info : Info
  host : Option String
  basePath : Option String
  schemes : List String
  consumes : List String
  produces : List String
  paths : List (String × PathItem)
  definitions : List (String × SchemaNode)
  parameters : List (String × ParameterNode)
  responses : List (String × ResponseNode)
  securityDefinitions : List (String × SecurityScheme)
  security : List SecurityRequirement
  tags : List Tag

structure OpenApi where
  version : String
  info : Info
  servers : List Server
  paths : List (String × PathItem)
  components : Components
  tags : List Tag
  security : List SecurityRequirement

/-- The dialects of specification documents. -/
inductive Dialect
  | swagger2
  | openApi3
  deriving DecidableEq, Repr

/-- The field at the top that tells a dialect. -/
def Dialect.marker : Dialect → String
  | .swagger2 => "swagger"
  | .openApi3 => "openapi"

def Dialect.name : Dialect → String
  | .swagger2 => "Swagger 2.0"
  | .openApi3 => "OpenAPI 3"

namespace Info

def empty : Info := ⟨"", none, ""⟩

def read (value : Json) : Result Info := do
  let r ← record "Info" ["title", "description", "version"] value
  r.finish <| Info.mk
    <$> r.defaulted "title" "" (fun v _ => string v)
    <*> r.optionalString "description"
    <*> r.defaulted "version" "" (fun v _ => string v)

def write (info : Info) : Json :=
  .obj
    (always "title" (.str info.title) ++
    givenString "description" info.description ++
    always "version" (.str info.version))

end Info

namespace Tag

def read (value : Json) : Result Tag := do
  let r ← record "Tag" ["name", "description"] value
  r.finish <| Tag.mk
    <$> r.required "name" (fun v _ => string v)
    <*> r.optionalString "description"

def write (tag : Tag) : Json :=
  .obj (always "name" (.str tag.name) ++ givenString "description" tag.description)

end Tag

namespace Components

def empty : Components := ⟨[], [], [], [], []⟩

def names : List String :=
  ["schemas", "responses", "parameters", "requestBodies", "securitySchemes"]

def read (value : Json) : Result Components := do
  let r ← record "Components" names value
  r.finish <| Components.mk
    <$> r.map "schemas" (fun v _ => SchemaNode.read v)
    <*> r.map "responses" (fun v _ => ResponseNode.read v)
    <*> r.map "parameters" (fun v _ => ParameterNode.read v)
    <*> r.map "requestBodies" (fun v _ => RequestBodyNode.read v)
    <*> r.map "securitySchemes" (fun v _ => SecurityScheme.read v)

def write (c : Components) : Json :=
  .obj
    (entries "schemas" (mapValues SchemaNode.write c.schemas) ++
    entries "responses" (mapValues ResponseNode.write c.responses) ++
    entries "parameters" (mapValues ParameterNode.write c.parameters) ++
    entries "requestBodies" (mapValues RequestBodyNode.write c.requestBodies) ++
    entries "securitySchemes" (mapValues SecurityScheme.write c.securitySchemes))

end Components

namespace Swagger

def names : List String :=
  ["swagger", "info", "host", "basePath", "schemes", "consumes", "produces", "paths",
   "definitions", "parameters", "responses", "securityDefinitions", "security", "tags"]

def read (value : Json) : Result Swagger := do
  let r ← record "SwaggerDocument" names value
  r.finish <| Swagger.mk
    <$> r.required "swagger" (fun v _ => string v)
    <*> r.defaulted "info" Info.empty (fun v _ => Info.read v)
    <*> r.optionalString "host"
    <*> r.optionalString "basePath"
    <*> r.strings "schemes"
    <*> r.strings "consumes"
    <*> r.strings "produces"
    <*> r.map "paths" (fun v _ => PathItem.read v)
    <*> r.map "definitions" (fun v _ => SchemaNode.read v)
    <*> r.map "parameters" (fun v _ => ParameterNode.read v)
    <*> r.map "responses" (fun v _ => ResponseNode.read v)
    <*> r.map "securityDefinitions" (fun v _ => SecurityScheme.read v)
    <*> r.list "security" (fun v _ => SecurityRequirement.read v)
    <*> r.list "tags" (fun v _ => Tag.read v)

def write (d : Swagger) : Json :=
  .obj
    (always "swagger" (.str d.version) ++
    always "info" d.info.write ++
    givenString "host" d.host ++
    givenString "basePath" d.basePath ++
    items "schemes" (d.schemes.map .str) ++
    items "consumes" (d.consumes.map .str) ++
    items "produces" (d.produces.map .str) ++
    entries "paths" (mapValues PathItem.write d.paths) ++
    entries "definitions" (mapValues SchemaNode.write d.definitions) ++
    entries "parameters" (mapValues ParameterNode.write d.parameters) ++
    entries "responses" (mapValues ResponseNode.write d.responses) ++
    entries "securityDefinitions" (mapValues SecurityScheme.write d.securityDefinitions) ++
    items "security" (d.security.map SecurityRequirement.write) ++
    items "tags" (d.tags.map Tag.write))

end Swagger

namespace OpenApi

def names : List String :=
  ["openapi", "info", "servers", "paths", "components", "tags", "security"]

def read (value : Json) : Result OpenApi := do
  let r ← record "OpenApiDocument" names value
  r.finish <| OpenApi.mk
    <$> r.required "openapi" (fun v _ => string v)
    <*> r.defaulted "info" Info.empty (fun v _ => Info.read v)
    <*> r.list "servers" (fun v _ => Server.read v)
    <*> r.map "paths" (fun v _ => PathItem.read v)
    <*> r.defaulted "components" Components.empty (fun v _ => Components.read v)
    <*> r.list "tags" (fun v _ => Tag.read v)
    <*> r.list "security" (fun v _ => SecurityRequirement.read v)

def write (d : OpenApi) : Json :=
  .obj
    (always "openapi" (.str d.version) ++
    always "info" d.info.write ++
    items "servers" (d.servers.map Server.write) ++
    entries "paths" (mapValues PathItem.write d.paths) ++
    always "components" d.components.write ++
    items "tags" (d.tags.map Tag.write) ++
    items "security" (d.security.map SecurityRequirement.write))

end OpenApi

end Document

open Document

/-- A specification document, tagged by its dialect. -/
inductive Document
  | swagger (doc : Swagger)
  | openApi (doc : OpenApi)

namespace Document

def dialect : Document → Dialect
  | .swagger _ => .swagger2
  | .openApi _ => .openApi3

def info : Document → Info
  | .swagger doc => doc.info
  | .openApi doc => doc.info

def declaredVersion : Document → String
  | .swagger doc => doc.version
  | .openApi doc => doc.version

def toJson : Document → Json
  | .swagger doc => doc.write
  | .openApi doc => doc.write

end Document

end ApiCodec

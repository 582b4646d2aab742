import ApiCodec.Document.Message
import ApiCodec.Document.Parameter
import ApiCodec.Document.Security
import ApiCodec.Text.Letters

set_option autoImplicit false

namespace ApiCodec.Document

open Shape

structure Operation where
  operationId : Option String
  summary : Option String
  description : Option String
  tags : List String
  parameters : List ParameterNode
  requestBody : Option RequestBodyNode
  responses : List (String × ResponseNode)
  consumes : List String
  produces : List String
  deprecated : Option Bool
  security : Option (List SecurityRequirement)

/-- The parameters and operations of one path. -/
structure PathItem where
  summary : Option String
  description : Option String
  parameters : List ParameterNode
  servers : Option Json
  path? : Option String
  /-- Everything else, by its raw key: operations and vendor extensions. -/
  entries : List (String × Json)

namespace Operation

def names : List String :=
  ["operationId", "summary", "description", "tags", "parameters", "requestBody", "responses",
   "consumes", "produces", "deprecated", "security"]

def read (value : Json) : Result Operation := do
  let r ← record "Operation" names value
  r.finish <| Operation.mk
    <$> r.optionalString "operationId"
    <*> r.optionalString "summary"
    <*> r.optionalString "description"
    <*> r.strings "tags"
    <*> r.list "parameters" (fun v _ => ParameterNode.read v)
    <*> r.optional "requestBody" (fun v _ => RequestBodyNode.read v)
    <*> r.map "responses" (fun v _ => ResponseNode.read v)
    <*> r.strings "consumes"
    <*> r.strings "produces"
    <*> r.optional "deprecated" (fun v _ => bool v)
    <*> r.optional "security" (fun v _ => listOf v fun w _ => SecurityRequirement.read w)

def write (op : Operation) : Json :=
  .obj
    (givenString "operationId" op.operationId ++
    givenString "summary" op.summary ++
    givenString "description" op.description ++
    items "tags" (op.tags.map .str) ++
    items "parameters" (op.parameters.map ParameterNode.write) ++
    given "requestBody" RequestBodyNode.write op.requestBody ++
    Shape.entries "responses" (mapValues ResponseNode.write op.responses) ++
    items "consumes" (op.consumes.map .str) ++
    items "produces" (op.produces.map .str) ++
    givenBool "deprecated" op.deprecated ++
    given "security" (fun list => .arr (list.map SecurityRequirement.write)) op.security)

end Operation

namespace PathItem

def names : List String := ["summary", "description", "parameters", "servers", "$ref"]

def read (value : Json) : Result PathItem := do
  let r ← openRecord "PathItem" names value
  r.finish <| PathItem.mk
    <$> r.optionalString "summary"
    <*> r.optionalString "description"
    <*> r.list "parameters" (fun v _ => ParameterNode.read v)
    <*> r.optional "servers" (fun v _ => any v)
    <*> r.optionalString "$ref"
    <*> pure (Assoc.ofList r.others)

def write (item : PathItem) : Json :=
  .obj
    (givenString "summary" item.summary ++
    givenString "description" item.description ++
    items "parameters" (item.parameters.map ParameterNode.write) ++
    given "servers" id item.servers ++
    givenString "$ref" item.path? ++
    item.entries)

def isExtension (key : String) : Bool := ['x', '-'].isPrefixOf key.toList

/-- The operations in declaration order, by their method in small letters. -/
def operations (item : PathItem) : Result (List (String × Operation)) :=
  collect ((item.entries.filter fun entry => !isExtension entry.1).map fun (key, value) =>
    (Operation.read value).map fun op => (Text.lower key, op))

end PathItem

end ApiCodec.Document

import ApiCodec.Document.Schema

set_option autoImplicit false

namespace ApiCodec.Document

open Shape

/-- How one part of a form is encoded. -/
structure Encoding where
  contentType : Option String
  headers : List (String × Json)

/-- The body under one content type. -/
structure MediaType where
  schema : Option SchemaNode
  encoding : List (String × Encoding)
  example? : Option Json

/-- Bodies by content type, in declaration order. -/
abbrev Content := List (String × MediaType)

/-- A response. One dialect declares its body in `schema`, the other in `content`. -/
structure Response where
  description : String
  schema : Option SchemaNode
  content : Content
  headers : List (String × Json)

abbrev ResponseNode := OrRef Response

structure RequestBody where
  description : Option String
  content : Content
  required : Bool

abbrev RequestBodyNode := OrRef RequestBody

namespace Encoding

def read (value : Json) : Result Encoding := do
  let r ← record "Encoding" ["contentType", "headers"] value
  r.finish <| Encoding.mk
    <$> r.optionalString "contentType"
    <*> r.map "headers" (fun v _ => any v)

def write (e : Encoding) : Json :=
  .obj (givenString "contentType" e.contentType ++ entries "headers" e.headers)

end Encoding

namespace MediaType

def read (value : Json) : Result MediaType := do
  let r ← record "MediaType" ["schema", "encoding", "example"] value
  r.finish <| MediaType.mk
    <$> r.optional "schema" (fun v _ => SchemaNode.read v)
    <*> r.map "encoding" (fun v _ => Encoding.read v)
    <*> r.optional "example" (fun v _ => any v)

def write (m : MediaType) : Json :=
  .obj
    (given "schema" SchemaNode.write m.schema ++
    entries "encoding" (mapValues Encoding.write m.encoding) ++
    given "example" id m.example?)

end MediaType

namespace Response

def read (value : Json) : Result Response := do
  let r ← record "Response" ["description", "schema", "content", "headers"] value
  r.finish <| Response.mk
    <$> r.defaulted "description" "" (fun v _ => string v)
    <*> r.optional "schema" (fun v _ => SchemaNode.read v)
    <*> r.map "content" (fun v _ => MediaType.read v)
    <*> r.map "headers" (fun v _ => any v)

def write (response : Response) : Json :=
  .obj
    (always "description" (.str response.description) ++
    given "schema" SchemaNode.write response.schema ++
    entries "content" (mapValues MediaType.write response.content) ++
    entries "headers" response.headers)

end Response

def ResponseNode.read : Json → Result ResponseNode := OrRef.read "ResponseOrRef" Response.read

def ResponseNode.write : ResponseNode → Json := OrRef.write Response.write

namespace RequestBody

def read (value : Json) : Result RequestBody := do
  let r ← record "RequestBody" ["description", "content", "required"] value
  r.finish <| RequestBody.mk
    <$> r.optionalString "description"
    <*> r.required "content" (fun v _ => mapOf v fun w _ => MediaType.read w)
    <*> r.defaulted "required" false (fun v _ => bool v)

def write (body : RequestBody) : Json :=
  .obj
    (givenString "description" body.description ++
    always "content" (.obj (mapValues MediaType.write body.content)) ++
    always "required" (.bool body.required))

end RequestBody

def RequestBodyNode.read : Json → Result RequestBodyNode := OrRef.read "RequestBodyOrRef" RequestBody.read

def RequestBodyNode.write : RequestBodyNode → Json := OrRef.write RequestBody.write

end ApiCodec.Document

import ApiCodec.Document.Basic
import ApiCodec.Json.Reader
import ApiCodec.Yaml.Reader

set_option autoImplicit false

namespace ApiCodec

open Document

/-- Why a text or value is no specification document. -/
inductive ParseError
  /-- The text is not YAML. -/
  | yaml
  /-- The text is not JSON. -/
  | json
  /-- No field at the top tells the dialect. -/
  | unknownDialect
  /-- The value does not have the shape of a document of its dialect. -/
  | shape (dialect : Dialect) (cause : ShapeError)
  /-- The node that an external pointer addresses does not have the shape it should. -/
  | fragment (pointer : String) (cause : ShapeError)

def ParseError.message : ParseError → String
  | .yaml => "failed to parse YAML:"
  | .json => "failed to parse JSON:"
  | .unknownDialect =>
      "document is neither Swagger 2.0 nor OpenAPI 3.x (no `swagger` or `openapi` field)"
  | .shape dialect cause => "invalid " ++ dialect.name ++ " document: " ++ cause.message
  | .fragment pointer cause => "invalid node at " ++ pointer ++ ": " ++ cause.message

namespace Document

/-- The dialect of a value, told by a field at the top. -/
def detect? (value : Json) : Option Dialect :=
  if (value.field? Dialect.swagger2.marker).isSome then some .swagger2
  else if (value.field? Dialect.openApi3.marker).isSome then some .openApi3
  else none

/-- The value with the number at the dialect's marker, if it is one, as text. -/
def withTextMarker (dialect : Dialect) (value : Json) : Json :=
  match value with
  | .obj fields =>
      match Assoc.get? dialect.marker fields with
      | some (.num n) => .obj (Assoc.insert dialect.marker (.str n.text) fields)
      | _ => value
  | _ => value

def ofJson (value : Json) : Except ParseError Document :=
  match detect? value with
  | none => .error .unknownDialect
  | some dialect =>
      let marked := withTextMarker dialect value
      match dialect with
      | .swagger2 =>
          match Swagger.read marked with
          | .ok doc => .ok (.swagger doc)
          | .error cause => .error (.shape dialect cause)
      | .openApi3 =>
          match OpenApi.read marked with
          | .ok doc => .ok (.openApi doc)
          | .error cause => .error (.shape dialect cause)

end Document

/-- The formats in which a document may be written. -/
inductive TextFormat
  | yaml
  | json
  deriving DecidableEq, Repr

/-- The value that a text holds. -/
def TextFormat.read (format : TextFormat) (text : String) : Except ParseError Json :=
  match format with
  | .yaml =>
      match Yaml.read? text with
      | some value => .ok value
      | none => .error .yaml
  | .json =>
      match Json.read? text with
      | some value => .ok value
      | none => .error .json

def Document.ofText (format : TextFormat) (text : String) : Except ParseError Document :=
  (format.read text).bind Document.ofJson

end ApiCodec

import ApiCodec.Document.Schema

set_option autoImplicit false

namespace ApiCodec.Document

open Shape

/-- Where a parameter is sent. `body` and `formData` occur in one dialect only. -/
inductive ParameterLocation
  | query
  | header
  | path
  | cookie
  | body
  | formData
  deriving DecidableEq, Repr

def ParameterLocation.choices : List (String × ParameterLocation) :=
  [("query", .query), ("header", .header), ("path", .path), ("cookie", .cookie), ("body", .body),
   ("formData", .formData)]

def ParameterLocation.name : ParameterLocation → String
  | .query => "query"
  | .header => "header"
  | .path => "path"
  | .cookie => "cookie"
  | .body => "body"
  | .formData => "formData"

structure Parameter where
  name : String
  location : ParameterLocation
  description : Option String
  required : Bool
  deprecated : Option Bool
  schema : Option SchemaNode
  types : Option TypeSet
  format : Option String
  items : Option ItemsSchema
  values : List Json
  default : Option Json
  limits : Limits
  style : Option String
  explode : Option Bool

abbrev ParameterNode := OrRef Parameter

def ItemsSchema.read (value : Json) : Result ItemsSchema :=
  union "Items"
    [fun _ => (SchemaNode.read value).map .one,
     fun _ => (listOf value fun v _ => SchemaNode.read v).map .list]

namespace Parameter

def names : List String :=
  ["name", "in", "description", "required", "deprecated", "schema", "type", "format", "items",
   "enum", "default"] ++ Limits.names ++ ["style", "explode"]

def read (value : Json) : Result Parameter := do
  let r ← record "Parameter" names value
  r.finish <| Parameter.mk
    <$> r.required "name" (fun v _ => string v)
    <*> r.required "in" (fun v _ => choice ParameterLocation.choices v)
    <*> r.optionalString "description"
    <*> r.defaulted "required" false (fun v _ => bool v)
    <*> r.optional "deprecated" (fun v _ => bool v)
    <*> r.optional "schema" (fun v _ => SchemaNode.read v)
    <*> r.optional "type" (fun v _ => TypeSet.read v)
    <*> r.optionalString "format"
    <*> r.optional "items" (fun v _ => ItemsSchema.read v)
    <*> r.list "enum" (fun v _ => any v)
    <*> r.optional "default" (fun v _ => any v)
    <*> Limits.gather r
    <*> r.optionalString "style"
    <*> r.optional "explode" (fun v _ => bool v)

def write (p : Parameter) : Json :=
  .obj
    (always "name" (.str p.name) ++
    always "in" (.str p.location.name) ++
    givenString "description" p.description ++
    always "required" (.bool p.required) ++
    givenBool "deprecated" p.deprecated ++
    given "schema" SchemaNode.write p.schema ++
    given "type" TypeSet.write p.types ++
    givenString "format" p.format ++
    writeItems p.items ++
    Shape.items "enum" p.values ++
    given "default" id p.default ++
    p.limits.write ++
    givenString "style" p.style ++
    givenBool "explode" p.explode)

/-- The schema of the parameter's value, if it declares a type in either way. -/
def effectiveSchema? (p : Parameter) : Option SchemaNode :=
  match p.schema with
  | some node => some node
  | none =>
      p.types.map fun types =>
        .inline
          { Schema.empty with
            types := some types
            format := p.format
            items := p.items
            values := p.values
            default := p.default
            limits := p.limits }

/-- A parameter of the path is always required. -/
def isRequired (p : Parameter) : Bool := p.required || p.location == .path

end Parameter

def ParameterNode.read : Json → Result ParameterNode := OrRef.read "ParameterOrRef" Parameter.read

def ParameterNode.write : ParameterNode → Json := OrRef.write Parameter.write

end ApiCodec.Document

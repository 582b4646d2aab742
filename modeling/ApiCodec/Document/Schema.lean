import ApiCodec.Shape.Record

set_option autoImplicit false

namespace ApiCodec.Document

open Shape

/-- A name of the keyword `type`. `file` occurs in parameters of forms only. -/
inductive SchemaType
  | string
  | number
  | integer
  | boolean
  | array
  | object
  | null
  | file
  deriving DecidableEq, Repr

def SchemaType.choices : List (String × SchemaType) :=
  [("string", .string), ("number", .number), ("integer", .integer), ("boolean", .boolean),
   ("array", .array), ("object", .object), ("null", .null), ("file", .file)]

def SchemaType.name : SchemaType → String
  | .string => "string"
  | .number => "number"
  | .integer => "integer"
  | .boolean => "boolean"
  | .array => "array"
  | .object => "object"
  | .null => "null"
  | .file => "file"

inductive TypeSet
  | one (type : SchemaType)
  | list (types : List SchemaType)
  deriving DecidableEq, Repr

/-- An exclusive limit: a flag on the inclusive limit, or a limit of its own. -/
inductive ExclusiveLimit
  | flag (on : Bool)
  | bound (limit : Binary64)
  deriving DecidableEq, Repr

/-- The keywords that limit numbers, texts and arrays. -/
structure Limits where
  minimum : Option Binary64 := none
  maximum : Option Binary64 := none
  exclusiveMinimum : Option ExclusiveLimit := none
  exclusiveMaximum : Option ExclusiveLimit := none
  minLength : Option Nat := none
  maxLength : Option Nat := none
  pattern : Option String := none
  minItems : Option Nat := none
  maxItems : Option Nat := none
  deriving DecidableEq, Repr

structure Discriminator where
  propertyName : String
  mapping : List (String × String)
  deriving Repr

mutual

inductive SchemaNode
  | ref (path : String)
  | inline (schema : Schema)

/-- A schema written in place. -/
structure Schema where
  types : Option TypeSet
  format : Option String
  title : Option String
  description : Option String
  default : Option Json
  nullable : Option Bool
  properties : List (String × SchemaNode)
  required : List String
  additional : Option AdditionalSchema
  items : Option ItemsSchema
  allOf : List SchemaNode
  oneOf : List SchemaNode
  anyOf : List SchemaNode
  discriminator : Option Discriminator
  values : List Json
  limits : Limits
  example? : Option Json
  /-- The members of `allOf` form a disjoint union. -/
  disjoint : Option Bool
  /-- Known values of an enumeration that may grow. -/
  extensibleValues : List Json
  /-- The module that the type comes from instead of being generated. -/
  importFrom : Option String

inductive ItemsSchema
  | one (node : SchemaNode)
  | list (nodes : List SchemaNode)

/-- The keyword `additionalProperties`. -/
inductive AdditionalSchema
  | flag (allowed : Bool)
  | node (values : SchemaNode)

end

/-- A schema that says nothing. -/
def Schema.empty : Schema :=
  { types := none, format := none, title := none, description := none, default := none
    nullable := none, properties := [], required := [], additional := none, items := none
    allOf := [], oneOf := [], anyOf := [], discriminator := none, values := [], limits := {}
    example? := none, disjoint := none, extensibleValues := [], importFrom := none }

def SchemaNode.path? : SchemaNode → Option String
  | .ref path => some path
  | .inline _ => none

def SchemaType.read (value : Json) : Result SchemaType := choice SchemaType.choices value

def TypeSet.read (value : Json) : Result TypeSet :=
  union "TypeSet"
    [fun _ => (SchemaType.read value).map .one,
     fun _ => (listOf value fun v _ => SchemaType.read v).map .list]

def TypeSet.write : TypeSet → Json
  | .one type => .str type.name
  | .list types => .arr (types.map fun type => .str type.name)

def ExclusiveLimit.read (value : Json) : Result ExclusiveLimit :=
  union "ExclusiveBound" [fun _ => (bool value).map .flag, fun _ => (float value).map .bound]

def ExclusiveLimit.write : ExclusiveLimit → Json
  | .flag on => .bool on
  | .bound limit => .num (.float limit)

namespace Limits

def names : List String :=
  ["minimum", "maximum", "exclusiveMinimum", "exclusiveMaximum", "minLength", "maxLength",
   "pattern", "minItems", "maxItems"]

def gather {whole : Json} (r : Record whole) : Gather Limits :=
  Limits.mk
    <$> r.optional "minimum" (fun v _ => float v)
    <*> r.optional "maximum" (fun v _ => float v)
    <*> r.optional "exclusiveMinimum" (fun v _ => ExclusiveLimit.read v)
    <*> r.optional "exclusiveMaximum" (fun v _ => ExclusiveLimit.read v)
    <*> r.optional "minLength" (fun v _ => count v)
    <*> r.optional "maxLength" (fun v _ => count v)
    <*> r.optionalString "pattern"
    <*> r.optional "minItems" (fun v _ => count v)
    <*> r.optional "maxItems" (fun v _ => count v)

def write (limits : Limits) : WrittenFields :=
  givenFloat "minimum" limits.minimum ++
  givenFloat "maximum" limits.maximum ++
  given "exclusiveMinimum" ExclusiveLimit.write limits.exclusiveMinimum ++
  given "exclusiveMaximum" ExclusiveLimit.write limits.exclusiveMaximum ++
  givenCount "minLength" limits.minLength ++
  givenCount "maxLength" limits.maxLength ++
  givenString "pattern" limits.pattern ++
  givenCount "minItems" limits.minItems ++
  givenCount "maxItems" limits.maxItems

end Limits

namespace Discriminator

def read (value : Json) : Result Discriminator := do
  let r ← record "Discriminator" ["propertyName", "mapping"] value
  r.finish <| Discriminator.mk
    <$> r.required "propertyName" (fun v _ => string v)
    <*> r.map "mapping" (fun v _ => string v)

def write (d : Discriminator) : Json :=
  .obj (always "propertyName" (.str d.propertyName) ++ entries "mapping" (mapValues .str d.mapping))

end Discriminator

def ItemsSchema.readBy {whole : Json} (node : PartReader whole SchemaNode) :
    PartReader whole ItemsSchema :=
  fun value h =>
    union "Items"
      [fun _ => (node value h).map .one,
       fun _ => (node.list value h).map .list]

/-- Reads the keyword `additionalProperties` with a reader for nodes. -/
def AdditionalSchema.readBy {whole : Json} (node : PartReader whole SchemaNode) :
    PartReader whole AdditionalSchema :=
  fun value h =>
    union "AdditionalProperties"
      [fun _ => (bool value).map .flag, fun _ => (node value h).map .node]

namespace Schema

def names : List String :=
  ["type", "format", "title", "description", "default", "nullable", "properties", "required",
   "additionalProperties", "items", "allOf", "oneOf", "anyOf", "discriminator", "enum"] ++
    Limits.names ++ ["example", "x-one-of", "x-extensible-enum", "x-import"]

/-- Reads a schema written in place with a reader for the nodes in it. -/
def readBy (value : Json) (node : PartReader value SchemaNode) : Result Schema := do
  let r ← record "Schema" names value
  r.finish <| Schema.mk
    <$> r.optional "type" (fun v _ => TypeSet.read v)
    <*> r.optionalString "format"
    <*> r.optionalString "title"
    <*> r.optionalString "description"
    <*> r.optional "default" (fun v _ => any v)
    <*> r.optional "nullable" (fun v _ => bool v)
    <*> r.map "properties" node
    <*> r.strings "required"
    <*> r.optional "additionalProperties" (AdditionalSchema.readBy node)
    <*> r.optional "items" (ItemsSchema.readBy node)
    <*> r.list "allOf" node
    <*> r.list "oneOf" node
    <*> r.list "anyOf" node
    <*> r.optional "discriminator" (fun v _ => Discriminator.read v)
    <*> r.list "enum" (fun v _ => any v)
    <*> Limits.gather r
    <*> r.optional "example" (fun v _ => any v)
    <*> r.optional "x-one-of" (fun v _ => bool v)
    <*> r.list "x-extensible-enum" (fun v _ => any v)
    <*> r.optionalString "x-import"

end Schema

def SchemaNode.read (value : Json) : Result SchemaNode :=
  match reference? value with
  | some path => .ok (.ref path)
  | none =>
      match Schema.readBy value fun v _ => SchemaNode.read v with
      | .ok schema => .ok (.inline schema)
      | .error _ => .error (.noVariant "SchemaOrRef")
termination_by sizeOf value

mutual

def SchemaNode.write : SchemaNode → Json
  | .ref path => reference path
  | .inline schema => schema.write

def Schema.write : Schema → Json
  | { types, format, title, description, default, nullable, properties, required, additional,
      items, allOf, oneOf, anyOf, discriminator, values, limits, example?, disjoint,
      extensibleValues, importFrom } =>
      .obj
        (given "type" TypeSet.write types ++
        givenString "format" format ++
        givenString "title" title ++
        givenString "description" description ++
        given "default" id default ++
        givenBool "nullable" nullable ++
        entries "properties" (writeProperties properties) ++
        Shape.items "required" (required.map .str) ++
        writeAdditional additional ++
        writeItems items ++
        Shape.items "allOf" (writeNodes allOf) ++
        Shape.items "oneOf" (writeNodes oneOf) ++
        Shape.items "anyOf" (writeNodes anyOf) ++
        given "discriminator" Discriminator.write discriminator ++
        Shape.items "enum" values ++
        limits.write ++
        given "example" id example? ++
        givenBool "x-one-of" disjoint ++
        Shape.items "x-extensible-enum" extensibleValues ++
        givenString "x-import" importFrom)

def writeProperties : List (String × SchemaNode) → WrittenFields
  | [] => []
  | (name, node) :: rest => (name, node.write) :: writeProperties rest

def writeNodes : List SchemaNode → List Json
  | [] => []
  | node :: rest => node.write :: writeNodes rest

def writeItems : Option ItemsSchema → WrittenFields
  | none => []
  | some (.one node) => [("items", node.write)]
  | some (.list nodes) => [("items", .arr (writeNodes nodes))]

def writeAdditional : Option AdditionalSchema → WrittenFields
  | none => []
  | some (.flag allowed) => [("additionalProperties", .bool allowed)]
  | some (.node values) => [("additionalProperties", values.write)]

end

/-- A value in place, or a reference to one. -/
inductive OrRef (α : Type)
  | ref (path : String)
  | inline (value : α)

namespace OrRef

variable {α : Type}

/-- Reads an object with a text under `$ref` as a reference, anything else as a value in place. -/
def read (union : String) (read : Json → Shape.Result α) (value : Json) :
    Shape.Result (OrRef α) :=
  match Shape.reference? value with
  | some path => .ok (.ref path)
  | none =>
      match read value with
      | .ok a => .ok (.inline a)
      | .error _ => .error (.noVariant union)

def write (write : α → Json) : OrRef α → Json
  | .ref path => Shape.reference path
  | .inline a => write a

end OrRef

end ApiCodec.Document

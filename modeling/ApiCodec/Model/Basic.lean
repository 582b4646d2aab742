import ApiCodec.Document.Catalog
import ApiCodec.Document.Text
import ApiCodec.Model.Notice
import ApiCodec.Model.Operation

set_option autoImplicit false

namespace ApiCodec

structure Model where
  info : SpecInfo
  /-- Those of the document in its order, then those published from other files. -/
  definitions : Definitions
  operations : List Operation
  diagnostics : List Diagnostic

/-- Why a document has no model. -/
inductive TransformError
  | parse (cause : ParseError)
  | reference (cause : ReferenceError)
  | operation (id : String) (cause : ReferenceError)

def TransformError.message : TransformError → String
  | .parse cause => "parse error: " ++ cause.message
  | .reference cause => "resolve error: " ++ cause.message
  | .operation id cause => "operation " ++ id ++ ": " ++ cause.message

inductive DefinitionKind
  | imported
  | oneOf
  /-- Another name for one definition. -/
  | otherName
  | allOf
  | enumeration
  | array
  | object
  | scalar
  deriving DecidableEq, Repr

def DefinitionKind.name : DefinitionKind → String
  | .imported => "imported"
  | .oneOf => "oneOf"
  | .otherName => "alias"
  | .allOf => "allOf"
  | .enumeration => "enum"
  | .array => "array"
  | .object => "object"
  | .scalar => "scalar"

/-- The kind of a definition. Where it comes from counts first, then how it is composed, then its
values, then its type; properties make an object of an untyped definition. -/
def Definition.kind (d : Definition) : DefinitionKind :=
  if d.importFrom.isSome then .imported
  else
    match d.composition with
    | some (.mk .oneOf _) => .oneOf
    | some (.mk .allOf [_]) => .otherName
    | some (.mk .allOf _) => .allOf
    | none =>
        if d.enumeration.isSome then .enumeration
        else
          match d.type with
          | some .array => .array
          | some .object => .object
          | none => if d.properties.isEmpty then .scalar else .object
          | some _ => .scalar

def Operation.summaryView (op : Operation) : Json :=
  .obj
    [("id", .str op.id),
     ("method", .str op.method.name),
     ("path", .str op.path),
     ("parameters", .ofStrings (op.parameters.map Parameter.markedName)),
     ("responses", .ofStrings (op.responses.map Response.status)),
     ("headers", .ofStrings op.headers),
     ("tags", .ofStrings op.tags)]

def SpecInfo.summaryView (info : SpecInfo) : Json :=
  .obj
    [("title", .str info.title),
     ("version", .str info.version),
     ("base_path", .ofString? info.basePath)]

def Diagnostic.line (d : Diagnostic) : String := d.subject ++ ": " ++ d.notice.message

def Model.summaryView (m : Model) : Json :=
  .obj
    [("info", m.info.summaryView),
     ("definitions", .arr (m.definitions.map fun (name, d) =>
        .obj [("name", .str name), ("kind", .str d.kind.name)])),
     ("operations", .arr (m.operations.map Operation.summaryView)),
     ("diagnostics", .ofStrings (m.diagnostics.map Diagnostic.line))]

end ApiCodec

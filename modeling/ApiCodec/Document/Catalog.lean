import ApiCodec.Document.Basic
import ApiCodec.Reference.Pointer

set_option autoImplicit false

namespace ApiCodec

open Document

/-- The document as a whole. -/
structure SpecInfo where
  basePath : Option String
  version : String
  title : String
  deriving DecidableEq, Repr

structure Catalog where
  dialect : Dialect
  info : SpecInfo
  schemes : List (String × SecurityScheme)
  /-- The requirements of every operation. -/
  security : List SecurityRequirement
  definitions : List (String × SchemaNode)
  parameters : List (String × ParameterNode)
  responses : List (String × ResponseNode)
  requestBodies : List (String × RequestBodyNode)
  paths : List (String × PathItem)
  /-- The content type of requests, where operations do not name one. -/
  consumes : Option String
  /-- The content type of responses, where operations do not name one. -/
  produces : Option String

/-- A path without slashes at its end; nothing if nothing is left. -/
def trimmedPath? (path : String) : Option String :=
  match Text.trimEndChars '/' path.toList with
  | [] => none
  | trimmed => some (String.ofList trimmed)

namespace Catalog

def ofSwagger (doc : Swagger) : Catalog :=
  { dialect := .swagger2
    info :=
      { basePath := doc.basePath.bind trimmedPath?
        version := doc.info.version
        title := doc.info.title }
    schemes := doc.securityDefinitions
    security := doc.security
    definitions := doc.definitions
    parameters := doc.parameters
    responses := doc.responses
    requestBodies := []
    paths := doc.paths
    consumes := doc.consumes.head?
    produces := doc.produces.head? }

def ofOpenApi (doc : OpenApi) : Catalog :=
  { dialect := .openApi3
    info :=
      { basePath := doc.servers.head?.bind Server.basePath?
        version := doc.info.version
        title := doc.info.title }
    schemes := doc.components.securitySchemes
    security := doc.security
    definitions := doc.components.schemas
    parameters := doc.components.parameters
    responses := doc.components.responses
    requestBodies := doc.components.requestBodies
    paths := doc.paths
    consumes := none
    produces := none }

def ofDocument : Document → Catalog
  | .swagger doc => ofSwagger doc
  | .openApi doc => ofOpenApi doc

/-- Follows references from entry to entry of a registry for a number of steps. `last` is the
reference taken before; `endless` is what a chain that is still not at its end is reported as. -/
def chase {α : Type} (registry : List (String × OrRef α)) (kind : PointerKind)
    (endless : String → String) : Nat → String → OrRef α → Except ReferenceError α
  | 0, last, _ => .error (.targetNotFound (endless last))
  | _ + 1, _, .inline value => .ok value
  | steps + 1, _, .ref path =>
      match Pointer.expectKind path kind with
      | .error e => .error e
      | .ok pointer =>
          if pointer.isExternal then .error (.targetNotFound path)
          else
            match Assoc.get? pointer.name registry with
            | some next => chase registry kind endless steps path next
            | none => .error (.targetNotFound path)

/-- The response that a node stands for. A chain longer than the registry has entries never ends;
it is reported by its last reference. -/
def response (c : Catalog) (node : ResponseNode) : Except ReferenceError Response :=
  chase c.responses .response id (c.responses.length + 1) "" node

/-- The request body of an operation, if its dialect has one. -/
def requestBody (c : Catalog) (op : Document.Operation) :
    Except ReferenceError (Option RequestBody) :=
  match c.dialect, op.requestBody with
  | .openApi3, some node =>
      (chase c.requestBodies .requestBody (fun _ => "cyclic request body reference")
        (c.requestBodies.length + 1) "" node).map some
  | _, _ => .ok none

/-- The schema of a response's body, with the content type that it stands under if there is one. -/
def responseSchema? (c : Catalog) (response : Response) : Option (Option String × SchemaNode) :=
  match c.dialect with
  | .swagger2 => response.schema.map fun node => (none, node)
  | .openApi3 =>
      match response.content with
      | [] => none
      | (contentType, media) :: _ => media.schema.map fun node => (some contentType, node)

/-- The content type in which an operation takes its body, as far as it says so itself. -/
def operationConsumes? (c : Catalog) (op : Document.Operation) : Option String :=
  match c.dialect with
  | .swagger2 => op.consumes.head?
  | .openApi3 =>
      match c.requestBody op with
      | .ok (some body) => body.content.head?.map Prod.fst
      | _ => none

/-- The content type in which an operation answers, as far as it says so itself. -/
def operationProduces? (c : Catalog) (op : Document.Operation) : Option String :=
  match c.dialect with
  | .swagger2 => op.produces.head?
  | .openApi3 =>
      op.responses.findSome? fun (_, node) =>
        match c.response node with
        | .ok response => response.content.head?.map Prod.fst
        | .error _ => none

end Catalog

end ApiCodec

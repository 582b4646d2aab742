import ApiCodec.Build.AuthHeaders
import ApiCodec.Build.Definitions

set_option autoImplicit false

namespace ApiCodec

open Document

/-- The content type of bodies where none is declared. -/
def defaultContentType : String := "application/json"

/-- A document with the files around it: what operations are built from. -/
structure Workspace where
  catalog : Catalog
  sources : Sources

namespace Workspace

/-- The node that a parameter pointer leads to; `none` if nothing is there. -/
def parameterTarget (w : Workspace) (p : Pointer) : Transform Notice (Option ParameterNode) :=
  if p.isExternal then
    match w.sources.load ParameterNode.read p with
    | .ok node => .value (some node)
    | .error (.reference _) => .value none
    | .error e => .fail e
  else .value (Assoc.get? p.name w.catalog.parameters)

/-- Follows a parameter pointer that stands in the file `base` for a number of steps, to a parameter
and the file in which it stands. -/
def followParameter (w : Workspace) (subject : String) :
    Nat → Option String → String →
      Transform Notice (Option (Document.Parameter × Option String))
  | 0, _, path => do
      Transform.note (.parameterCyclic path)
      return none
  | steps + 1, base, path =>
      match Pointer.parse path with
      | .error cause => do
          Transform.note (.parameterDropped cause)
          return none
      | .ok parsed =>
          let pointer := parsed.relativeTo base
          match pointer.kind with
          | .parameter => do
              match ← w.parameterTarget pointer with
              | some (.inline parameter) => return some (parameter, pointer.file)
              | some (.ref next) => w.followParameter subject steps pointer.file next
              | none => do
                  Transform.note (.parameterMissing path)
                  return none
          | .other => .fail (.operation subject (.unsupportedCollection path pointer.collection))
          | kind => do
              Transform.note (.parameterOfKind path kind)
              return none

/-- The parameter that a node stands for, and the file in which it stands. -/
def resolveParameter (w : Workspace) (subject : String) :
    ParameterNode → Transform Notice (Option (Document.Parameter × Option String))
  | .inline parameter => .value (some (parameter, none))
  | .ref path => w.followParameter subject (w.catalog.parameters.length + 2) none path

def typeRef (w : Workspace) (base : Option String) (node : SchemaNode) :
    Transform Notice TypeRef := do
  match ← w.sources.normalize base node with
  | .ref name => return .named name
  | .inline definition =>
      if definition.type = some .file then return .file else return .inline definition

def typedParameter (w : Workspace) (declared : Document.Parameter) (base : Option String) :
    Transform Notice Parameter := do
  let type ←
    match declared.effectiveSchema? with
    | some node => w.typeRef base node
    | none => do
        Transform.note (.parameterUntyped declared.name)
        pure (.inline .untyped)
  return {
    name := declared.name
    required := declared.isRequired
    type
    location := declared.location
    kind := if declared.location = .header then .header declared.name else .plain }

def parameters (w : Workspace) (subject : String) :
    List ParameterNode → Transform Notice (List Parameter)
  | [] => return []
  | node :: rest => do
      match ← w.resolveParameter subject node with
      | none => w.parameters subject rest
      | some (declared, base) => do
          let parameter ← w.typedParameter declared base
          return parameter :: (← w.parameters subject rest)

def bodyParameter (required : Bool) (type : TypeRef) : Parameter :=
  { name := "body", required, type, location := .body, kind := .plain }

/-- The request body of an operation as a parameter, if its dialect keeps it apart. -/
def requestBody (w : Workspace) (op : Document.Operation) :
    Transform Notice (List Parameter) :=
  match w.catalog.requestBody op with
  | .error cause => do
      Transform.note (.requestBodyDropped cause)
      return []
  | .ok none => return []
  | .ok (some body) =>
      match body.content with
      | [] => return []
      | (contentType, media) :: _ =>
          if "multipart/".toList.isPrefixOf contentType.toList then
            return [bodyParameter body.required .file]
          else
            match media.schema with
            | some node => do return [bodyParameter body.required (← w.typeRef none node)]
            | none => do
                Transform.note (.requestBodyUntyped contentType)
                return []

def defaultType (status : String) : ResponseType :=
  if status.toList.head? = some '2' then .defaultSuccess else .defaultError

/-- What a response holds: a definition, if its schema is a bare reference to one. -/
def responseType (w : Workspace) (status : String) (response : Document.Response) :
    Transform Notice ResponseType :=
  match w.catalog.responseSchema? response with
  | some (_, .ref path) => do
      match ← w.sources.normalize none (.ref path) with
      | .ref name => return .named name
      | .inline _ => return defaultType status
  | some (_, .inline schema) =>
      if schema.format = some "binary" ∨ schema.types = some (.one .file) then return .binary
      else return defaultType status
  | none => return defaultType status

/-- The responses of an operation, in order. -/
def responses (w : Workspace) : List (String × ResponseNode) → Transform Notice (List Response)
  | [] => return []
  | (status, node) :: rest =>
      match w.catalog.response node with
      | .error cause => do
          Transform.note (.responseDropped status cause)
          w.responses rest
      | .ok declared => do
          let type ← w.responseType status declared
          return { status, type, headers := Assoc.keys declared.headers } :: (← w.responses rest)

/-- Whether two parameters stand for the same value of a request. -/
def sameParameter (p q : Parameter) : Bool := p.name == q.name && p.location == q.location

def usedNames (parameters : List Parameter) (responses : List Response) : NameSet :=
  let ofParameters := parameters.foldl (fun names p => p.type.addNames names) []
  NameSet.ofList (ofParameters ++ responses.filterMap (·.type.name?))

def requestHeaders (method : HttpMethod) (auth parameters : List Parameter) : List String :=
  let contentType :=
    if method.carriesBody && !parameters.isEmpty then [contentTypeHeader] else []
  let declared := parameters.filterMap fun p =>
    match p.kind with
    | .header name => some name
    | _ => none
  (contentType ++ auth.filterMap (·.headerName?) ++ declared).foldl addName []

/-- One operation. `shared` are the parameters of its path, `auth` those of the whole document's
security requirements. Bodies go last. -/
def operation (w : Workspace) (method : HttpMethod) (path id : String) (op : Document.Operation)
    (shared auth : List Parameter) : Transform Notice Operation := do
  let declared ← w.parameters id op.parameters
  let bodies := declared.filter (·.location == .body)
  let others := declared.filter (·.location != .body)
  let (ownAuth, notes) := authHeaders w.catalog.schemes (op.security.getD [])
  Transform.tell notes
  let ownAuth := ownAuth.filter fun p => !auth.any (·.name == p.name)
  let requestBody ← w.requestBody op
  let parameters :=
    shared.filter (fun p => !others.any (sameParameter · p)) ++ auth ++ ownAuth ++ others ++
      bodies ++ requestBody
  let responses ← w.responses op.responses
  return {
    method, path, id
    name := CodeName.of id
    summary := op.summary
    description := op.description
    tags := op.tags
    deprecated := op.deprecated.getD false
    parameters, responses
    headers := requestHeaders method (ownAuth ++ auth) parameters
    importedTypes := usedNames parameters responses
    consumes :=
      if method = .get then none
      else
        some (((w.catalog.operationConsumes? op).orElse fun _ => w.catalog.consumes).getD
          defaultContentType)
    produces :=
      ((w.catalog.operationProduces? op).orElse fun _ => w.catalog.produces).getD
        defaultContentType }

/-- The operation under a method's name, unless the method is not supported or the operation has no
id. -/
def entry (w : Workspace) (path : String) (shared auth : List Parameter) (key : String)
    (op : Document.Operation) : Transform Notice (List Operation) :=
  match HttpMethod.ofName? key with
  | none => do
      Transform.note (.unsupportedMethod key)
      return []
  | some method =>
      match op.operationId with
      | none => do
          Transform.note .noOperationId
          return []
      | some id => do return [← w.operation method path id op shared auth]

def entries (w : Workspace) (path : String) (shared auth : List Parameter) :
    List (String × Document.Operation) → Transform Diagnostic (List Operation)
  | [] => return []
  | (key, op) :: rest => do
      let first ← (w.entry path shared auth key op).about (Text.upper key ++ " " ++ path)
      return first ++ (← w.entries path shared auth rest)

/-- The parameters that all operations of a path share, and those of the document's security
requirements. -/
def sharedParameters (w : Workspace) (path : String) (item : PathItem) :
    Transform Notice (List Parameter × List Parameter) := do
  Transform.tell (item.path?.toList.map .pathItemReference)
  let shared ← w.parameters path item.parameters
  let (auth, notes) := authHeaders w.catalog.schemes w.catalog.security
  Transform.tell notes
  return (shared, auth)

def operations (w : Workspace) (path : String) (item : PathItem) :
    Transform Diagnostic (List Operation) := do
  let (shared, auth) ← (w.sharedParameters path item).about path
  match item.operations with
  | .error cause => .fail (.parse (.shape w.catalog.dialect cause))
  | .ok declared => w.entries path shared auth declared

end Workspace

end ApiCodec

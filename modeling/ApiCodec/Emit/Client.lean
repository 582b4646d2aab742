import ApiCodec.Emit.RequestTypes

set_option autoImplicit false

namespace ApiCodec.Emit

def typesModule : String := "@pagopa/ts-commons/lib/types"

def clientFile : String := "client.ts"

def multipart : String := "multipart/form-data"

def variableOf (p : Parameter) : String := (CodeName.of p.name).camel

def namedVariable (p : Parameter) : String := "[" ++ literal p.name ++ "]: " ++ variableOf p

def braced (fields : List String) : String := "\x7b " ++ ", ".intercalate fields ++ " \x7d"

/-- The parameter list of a function that takes parameters by their names. -/
def destructured (parameters : List Parameter) : String :=
  if parameters.isEmpty then "()" else "(" ++ braced (parameters.map namedVariable) ++ ")"

/-- Whether a request is sent as a form of several parts. -/
def isMultipart (op : Operation) : Bool := op.consumes == some multipart

def headerValue (p : Parameter) : Option (String × String) :=
  match p.kind with
  | .plain => none
  | .header name => some (name, variableOf p)
  | .authHeader name _ none => some (name, variableOf p)
  | .authHeader name _ (some scheme) =>
      some (name, "`" ++ scheme ++ " $\x7b" ++ variableOf p ++ "\x7d`")

def isHeader (p : Parameter) : Bool :=
  match p.kind with
  | .header _ => true
  | _ => false

/-- Adds a header, unless one of its name is there. -/
def addHeader (headers : List (String × String)) (header : String × String) :
    List (String × String) :=
  if Assoc.has header.1 headers then headers else headers ++ [header]

/-- The content type of a request, unless the runtime has to set it. -/
def contentTypeOf (op : Operation) : List (String × String) :=
  if op.headers.contains contentTypeHeader && !isMultipart op then
    op.consumes.toList.map fun consumes => (contentTypeHeader, literal consumes)
  else []

/-- The parameters that are sent in headers, tokens first. -/
def headerParameters (op : Operation) : List Parameter :=
  op.authParameters ++ op.parameters.filter isHeader

/-- The headers of a request with their values, each name once. -/
def headersOf (op : Operation) : List (String × String) :=
  (contentTypeOf op ++ (headerParameters op).filterMap headerValue).foldl addHeader []

def headersFunction (op : Operation) : String :=
  let headers := headersOf op
  if headers.isEmpty then "() => (\x7b\x7d)"
  else
    destructured (headerParameters op) ++ " => (" ++
      braced (headers.map fun (name, value) => literal name ++ ": " ++ value) ++ ")"

/-- Puts the variable of a parameter in its places in a path, if it has any. -/
def substitute (url : List Char × List Parameter) (p : Parameter) : List Char × List Parameter :=
  let place := Text.placeholder p.name.toList
  if Text.occurs place url.1 then
    (Text.replaceChars place ('$' :: Text.placeholder (variableOf p).toList) url.1,
      url.2 ++ [p])
  else url

/-- A path with variables in it, and the parameters that they hold. -/
def urlOf (op : Operation) : List Char × List Parameter :=
  (op.parameters.filter (·.location == .path)).foldl substitute (op.path.toList, [])

/-- The function that makes the URL of a request. -/
def urlFunction (op : Operation) : String :=
  let (path, used) := urlOf op
  destructured used ++ " => `$\x7bbasePath\x7d" ++ String.ofList path ++ "`"

def queryFunction (op : Operation) : String :=
  let parameters := op.parameters.filter (·.location == .query)
  if parameters.isEmpty then "() => (\x7b\x7d)"
  else
    destructured parameters ++ " => withoutUndefinedValues(" ++
      braced (parameters.map namedVariable) ++ ")"

def isFile : TypeRef → Bool
  | .file => true
  | _ => false

def isFormPart (p : Parameter) : Bool :=
  p.location == .formData || (p.location == .body && isFile p.type)

def bodyFunction (op : Operation) : String :=
  let form := op.parameters.filter isFormPart
  if !form.isEmpty || isMultipart op then
    let appends := form.map fun p =>
      " fd.append(" ++ literal p.name ++ ", " ++ variableOf p ++ ");"
    destructured form ++ " => \x7b const fd = new FormData();" ++ "".intercalate appends ++
      " return fd; \x7d"
  else
    match op.bodyParameter? with
    | some body => destructured [body] ++ " => JSON.stringify(" ++ variableOf body ++ ")"
    | none => "() => \"\x7b\x7d\""

/-- An operation as a value for the client's template. -/
def clientOperationValue (op : Operation) : Json :=
  .obj
    [("camel", .str op.name.camel), ("pascal", .str op.name.pascal), ("method", .str op.method.name),
     ("headers", .str (headersFunction op)), ("url", .str (urlFunction op)),
     ("body", if op.method.carriesBody then .str (bodyFunction op) else .null),
     ("query", .str (queryFunction op))]

def clientOperations (o : Options) (operations : List Operation) : List Operation :=
  operations.filter fun op => (DecoderPlan.ofOperation? o.defaultTypes op).isSome

def clientImports (op : Operation) : List String :=
  [op.name.pascal ++ "T", op.name.camel ++ "DefaultDecoder"]

def clientModule (o : Options) (basePath : Option String) (operations : List Operation) :
    Except GenerateError String :=
  let operations := clientOperations o operations
  render "client.ts.j2"
    (.obj
      [("requests_module", .str requestsModule), ("types_module", .str typesModule),
       ("request_imports", .ofStrings (operations.flatMap clientImports)),
       ("base_path", .str (literal (Text.trimEnd '/' (basePath.getD "")))),
       ("operations", .arr (operations.map clientOperationValue))])

end ApiCodec.Emit

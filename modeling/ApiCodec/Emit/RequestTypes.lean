import ApiCodec.Decoder.Plan
import ApiCodec.Emit.DefinitionModule

set_option autoImplicit false

namespace ApiCodec.Emit

/-- The module that request types and decoders build on. -/
def requestsModule : String := "@pagopa/ts-commons/lib/requests"

def requestTypesFile : String := "requestTypes.ts"

def payloadType (strategy : Strategy) : Expr :=
  match strategy with
  | .exact type => .name type
  | .errorEnvelope type => .name type
  | .binary => .plain "Buffer"
  | .constant => .plain "undefined"

def responseType (status : Nat) (payload : String) (headers : List String) : String :=
  "r.IResponseType<" ++ toString status ++ ", " ++ payload ++ ", " ++ unionOf headers ++ ">"

def parametersType (o : Options) (parameters : List Parameter) : Expr :=
  if parameters.isEmpty then .plain "\x7b\x7d"
  else
    let fields := parameters.map fun p =>
      (parameterType o p.type).mapText fun text =>
        "readonly " ++ key p.name ++ (if p.required then "" else "?") ++ ": " ++ text
    (Expr.join "; " fields).mapText fun text => "\x7b " ++ text ++ " \x7d"

def responsesType (entries : List DecoderEntry) : Expr :=
  if entries.isEmpty then .plain "never"
  else
    Expr.join " | " (entries.map fun e =>
      (payloadType e.strategy).mapText fun payload => responseType e.status payload e.headers)

/-- An entry of a plan as its decoder declares it, with two type parameters. -/
structure EntryDecoder where
  status : Nat
  defaultCodec : String
  /-- The type parameter of decoded values. -/
  value : String
  /-- The type parameter of encoded values. -/
  encoded : String
  decoder : String
  headers : String
  deriving DecidableEq, Repr

/-- The codec that decodes a body unless it is overridden. -/
def codecOf : Strategy → String
  | .exact type => type
  | .errorEnvelope type => type
  | .binary => "t.unknown"
  | .constant => "t.undefined"

def defaultType (codec : String) : String :=
  if codec = "t.unknown" then "Buffer" else if codec = "t.undefined" then "undefined" else codec

def entryDecoder (strategy : Strategy) (status headers : String) : String :=
  match strategy with
  | .binary => "r.bufferArrayResponseDecoder(" ++ status ++ ")"
  | _ =>
      "type[" ++ status ++ "].name === \"undefined\" ? r.constantResponseDecoder<undefined, " ++
        status ++ ", " ++ headers ++ ">(" ++ status ++ ", undefined) : r.ioResponseDecoder<" ++
        status ++ ", (typeof type[" ++ status ++ "])[\"_A\"], (typeof type[" ++ status ++
        "])[\"_O\"], " ++ headers ++ ">(" ++ status ++ ", type[" ++ status ++ "])"

namespace EntryDecoder

def of (index : Nat) (entry : DecoderEntry) : EntryDecoder :=
  let headers := unionOf entry.headers
  { status := entry.status
    defaultCodec := codecOf entry.strategy
    value := "A" ++ toString index
    encoded := "C" ++ toString index
    decoder := entryDecoder entry.strategy (toString entry.status) headers
    headers }

def parameters (e : EntryDecoder) : String := e.value ++ ", " ++ e.encoded

def parametersWithDefaults (e : EntryDecoder) : String :=
  let type := defaultType e.defaultCodec
  e.value ++ " = " ++ type ++ ", " ++ e.encoded ++ " = " ++ type

def result (e : EntryDecoder) : String :=
  "r.IResponseType<" ++ toString e.status ++ ", " ++ e.value ++ ", " ++ e.headers ++ ">"

def toJson (e : EntryDecoder) : Json :=
  .obj
    [("status", .num (.int e.status)), ("default_codec", .str e.defaultCodec),
     ("a", .str e.value), ("c", .str e.encoded), ("decoder", .str e.decoder),
     ("headers", .str e.headers)]

end EntryDecoder

/-- The decoders of several responses as one, each tried after those before it. -/
def composeDecoders : List String → String
  | [] => ""
  | first :: rest =>
      rest.foldl (fun composed next => "r.composeResponseDecoders(" ++ composed ++ ", " ++ next ++ ")")
        first

structure OperationDecoder where
  entries : List EntryDecoder
  /-- The type parameters of the primary status. -/
  primaryValue : String
  primaryEncoded : String
  primaryStatus : Nat
  deriving DecidableEq, Repr

namespace OperationDecoder

def of (plan : DecoderPlan) : OperationDecoder :=
  let entries := plan.entries.mapIdx EntryDecoder.of
  let primary := entries.find? (·.status == plan.primary)
  { entries
    primaryValue := (primary.map (·.value)).getD "unknown"
    primaryEncoded := (primary.map (·.encoded)).getD "unknown"
    primaryStatus := plan.primary }

def generics (d : OperationDecoder) : String :=
  ", ".intercalate (d.entries.map EntryDecoder.parameters)

def genericsWithDefaults (d : OperationDecoder) : String :=
  ", ".intercalate (d.entries.map EntryDecoder.parametersWithDefaults)

def result (d : OperationDecoder) : String :=
  " | ".intercalate (d.entries.map EntryDecoder.result)

/-- The names of the decoders of the single responses, as one decoder. -/
def composed (d : OperationDecoder) : String :=
  composeDecoders (d.entries.map fun e => "d" ++ toString e.status)

def toJson (d : OperationDecoder) : Json :=
  .obj
    [("entries", .arr (d.entries.map EntryDecoder.toJson)), ("generics_decl", .str d.generics),
     ("generics_with_defaults", .str d.genericsWithDefaults), ("generics", .str d.generics),
     ("primary_a", .str d.primaryValue), ("primary_c", .str d.primaryEncoded),
     ("primary_status", .num (.int d.primaryStatus)), ("result_union", .str d.result),
     ("composed", .str d.composed)]

end OperationDecoder

structure RequestType where
  operation : Operation
  parameters : Expr
  responses : Expr
  decoder : Option OperationDecoder

namespace RequestType

def of (o : Options) (op : Operation) : RequestType :=
  { operation := op
    parameters := parametersType o op.parameters
    responses := responsesType (DecoderEntry.ofOperation o.defaultTypes op)
    decoder :=
      if o.responseDecoders then
        (DecoderPlan.ofOperation? o.defaultTypes op).map OperationDecoder.of
      else none }

def imports (r : RequestType) : List String := r.parameters.imports ++ r.responses.imports

def queryNames (op : Operation) : List String :=
  (op.parameters.filter (·.location == .query)).map (·.name)

def toJson (r : RequestType) : Json :=
  let op := r.operation
  .obj
    [("operation_id", .str op.id), ("summary", .ofString? op.summary),
     ("deprecated", .bool op.deprecated), ("pascal", .str op.name.pascal),
     ("camel", .str op.name.camel), ("method_pascal", .str (Text.pascalCase op.method.name)),
     ("params_type", .str r.parameters.text), ("headers_union", .str (unionOf op.headers)),
     ("query_union", .str (unionOf (queryNames op))), ("responses_union", .str r.responses.text),
     ("decoder", (r.decoder.map OperationDecoder.toJson).getD .null)]

end RequestType

def requestTypesModule (o : Options) (definitions : Definitions) (operations : List Operation) :
    Except GenerateError String :=
  let types := operations.map (RequestType.of o)
  let imports := NameSet.ofList (types.flatMap RequestType.imports)
  render "request_types.ts.j2"
    (.obj
      [("requests_module", .str requestsModule),
       ("imports", importLinesOf definitions ("./" ++ definitionsDir ++ "/") imports),
       ("operations", .arr (types.map RequestType.toJson))])

end ApiCodec.Emit

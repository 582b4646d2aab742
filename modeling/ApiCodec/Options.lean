import ApiCodec.Shape.Record

set_option autoImplicit false

namespace ApiCodec

/-- The type name that stands for a body that is not there. -/
def absentType : String := "undefined"

structure Options where
  /-- Object codecs refuse undeclared properties. -/
  strictInterfaces : Bool := false
  /-- Property keys are spelled in camelCase. -/
  camelCase : Bool := false
  /-- The type of responses of success for which no definition is named. -/
  defaultSuccessType : String := absentType
  /-- The type of all other responses for which no definition is named. -/
  defaultErrorType : String := absentType
  requestTypes : Bool := false
  /-- Decoders need the request types. -/
  responseDecoders : Bool := false
  /-- The client needs the decoders. -/
  client : Bool := false
  deriving DecidableEq, Repr

namespace Options

open Shape

def normalized (o : Options) : Options :=
  let responseDecoders := o.responseDecoders || o.client
  { o with responseDecoders, requestTypes := o.requestTypes || responseDecoders }

def names : List String :=
  ["strict_interfaces", "camel_case", "default_success_type", "default_error_type",
   "request_types", "response_decoders", "client"]

def read (value : Json) : Result Options := do
  let r ← record "GenerationOptions" names value
  r.finish <| Options.mk
    <$> r.defaulted "strict_interfaces" false (fun v _ => bool v)
    <*> r.defaulted "camel_case" false (fun v _ => bool v)
    <*> r.defaulted "default_success_type" absentType (fun v _ => string v)
    <*> r.defaulted "default_error_type" absentType (fun v _ => string v)
    <*> r.defaulted "request_types" false (fun v _ => bool v)
    <*> r.defaulted "response_decoders" false (fun v _ => bool v)
    <*> r.defaulted "client" false (fun v _ => bool v)

end Options

end ApiCodec

import ApiCodec.Shape.Record

set_option autoImplicit false

namespace ApiCodec.Document

open Shape

/-- Kinds of security scheme, of both dialects. -/
inductive SchemeType
  | basic
  | apiKey
  | http
  | oauth2
  | openIdConnect
  | mutualTLS
  deriving DecidableEq, Repr

def SchemeType.choices : List (String × SchemeType) :=
  [("basic", .basic), ("apiKey", .apiKey), ("http", .http), ("oauth2", .oauth2),
   ("openIdConnect", .openIdConnect), ("mutualTLS", .mutualTLS)]

def SchemeType.name : SchemeType → String
  | .basic => "basic"
  | .apiKey => "apiKey"
  | .http => "http"
  | .oauth2 => "oauth2"
  | .openIdConnect => "openIdConnect"
  | .mutualTLS => "mutualTLS"

/-- Where an API key is sent. -/
inductive KeyLocation
  | query
  | header
  | cookie
  deriving DecidableEq, Repr

def KeyLocation.choices : List (String × KeyLocation) :=
  [("query", .query), ("header", .header), ("cookie", .cookie)]

def KeyLocation.name : KeyLocation → String
  | .query => "query"
  | .header => "header"
  | .cookie => "cookie"

structure SecurityScheme where
  type : SchemeType
  description : Option String
  name : Option String
  location : Option KeyLocation
  scheme : Option String
  bearerFormat : Option String
  flow : Option String
  flows : Option Json
  openIdConnectUrl : Option String
  /-- The word before the token of an API key. -/
  authScheme : Option String

/-- The schemes that a request needs together, each with its scopes. -/
abbrev SecurityRequirement := List (String × List String)

namespace SecurityScheme

def names : List String :=
  ["type", "description", "name", "in", "scheme", "bearerFormat", "flow", "flows",
   "openIdConnectUrl", "x-auth-scheme"]

def read (value : Json) : Result SecurityScheme := do
  let r ← record "SecurityScheme" names value
  r.finish <| SecurityScheme.mk
    <$> r.required "type" (fun v _ => choice SchemeType.choices v)
    <*> r.optionalString "description"
    <*> r.optionalString "name"
    <*> r.optional "in" (fun v _ => choice KeyLocation.choices v)
    <*> r.optionalString "scheme"
    <*> r.optionalString "bearerFormat"
    <*> r.optionalString "flow"
    <*> r.optional "flows" (fun v _ => any v)
    <*> r.optionalString "openIdConnectUrl"
    <*> r.optionalString "x-auth-scheme"

def write (s : SecurityScheme) : Json :=
  .obj
    (always "type" (.str s.type.name) ++
    givenString "description" s.description ++
    givenString "name" s.name ++
    given "in" (fun location => .str location.name) s.location ++
    givenString "scheme" s.scheme ++
    givenString "bearerFormat" s.bearerFormat ++
    givenString "flow" s.flow ++
    given "flows" id s.flows ++
    givenString "openIdConnectUrl" s.openIdConnectUrl ++
    givenString "x-auth-scheme" s.authScheme)

end SecurityScheme

namespace SecurityRequirement

def read (value : Json) : Result SecurityRequirement := mapOf value fun v _ => strings v

def write (requirement : SecurityRequirement) : Json :=
  .obj (mapValues Json.ofStrings requirement)

end SecurityRequirement

end ApiCodec.Document

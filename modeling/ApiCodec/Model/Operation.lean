import ApiCodec.Document.Parameter
import ApiCodec.Model.Definition
import ApiCodec.Naming

set_option autoImplicit false

namespace ApiCodec

open Document (ParameterLocation)

/-- The methods for which operations are generated. -/
inductive HttpMethod
  | get
  | post
  | put
  | patch
  | delete
  deriving DecidableEq, Repr

namespace HttpMethod

def name : HttpMethod → String
  | .get => "get"
  | .post => "post"
  | .put => "put"
  | .patch => "patch"
  | .delete => "delete"

def ofName? (name : String) : Option HttpMethod :=
  [get, post, put, patch, delete].find? (·.name == name)

def carriesBody : HttpMethod → Bool
  | .post => true
  | .put => true
  | .patch => true
  | .get => false
  | .delete => false

end HttpMethod

inductive TypeRef
  /-- A definition by its name. -/
  | named (name : String)
  | inline (definition : Definition)
  /-- The content of an upload. -/
  | file
  | binary

def TypeRef.string : TypeRef := .inline (.ofType .string)

def TypeRef.addNames (names : List String) : TypeRef → List String
  | .named name => addName names name
  | .inline definition => definition.addNames names
  | .file => names
  | .binary => names

/-- How a security scheme hands over its token. -/
inductive TokenKind
  | basic
  | apiKey
  | oauth2
  deriving DecidableEq, Repr

def TokenKind.name : TokenKind → String
  | .basic => "basic"
  | .apiKey => "apiKey"
  | .oauth2 => "oauth2"

/-- The header of a request that a parameter is sent in, if any. -/
inductive ParameterKind
  | plain
  | header (name : String)
  /-- A header made of a token, with a word such as `Bearer` before it if the scheme has one. -/
  | authHeader (name : String) (token : TokenKind) (scheme : Option String)
  deriving DecidableEq, Repr

structure Parameter where
  name : String
  required : Bool
  type : TypeRef
  location : ParameterLocation
  kind : ParameterKind

namespace Parameter

/-- The name, marked by `?` if the parameter may be left out. -/
def markedName (p : Parameter) : String := if p.required then p.name else p.name ++ "?"

def headerName? (p : Parameter) : Option String :=
  match p.kind with
  | .plain => none
  | .header name => some name
  | .authHeader name _ _ => some name

def isAuth (p : Parameter) : Bool :=
  match p.kind with
  | .authHeader _ _ _ => true
  | _ => false

end Parameter

/-- What a response of one status holds. -/
inductive ResponseType
  | named (name : String)
  | binary
  /-- No definition under a status of success. -/
  | defaultSuccess
  /-- No definition under any other status. -/
  | defaultError
  deriving DecidableEq, Repr

def ResponseType.name? : ResponseType → Option String
  | .named name => some name
  | .binary => none
  | .defaultSuccess => none
  | .defaultError => none

structure Response where
  /-- The status as declared, such as `200` or `default`. -/
  status : String
  type : ResponseType
  /-- The names of the declared headers. -/
  headers : List String
  deriving DecidableEq, Repr

/-- The number that three decimal digits stand for. -/
def statusCode? (status : String) : Option Nat :=
  match status.toList with
  | [a, b, c] =>
      if a.isDigit && b.isDigit && c.isDigit then
        some (100 * (a.toNat - 48) + 10 * (b.toNat - 48) + (c.toNat - 48))
      else none
  | _ => none

/-- The numeric status, for those of three digits. -/
def Response.code? (response : Response) : Option Nat := statusCode? response.status

def contentTypeHeader : String := "Content-Type"

structure Operation where
  method : HttpMethod
  path : String
  id : String
  name : CodeName
  summary : Option String
  description : Option String
  tags : List String
  deprecated : Bool
  /-- Those of the path, then tokens, then those of the operation, then the body. -/
  parameters : List Parameter
  responses : List Response
  headers : List String
  /-- The definitions that parameters and responses name, in order. -/
  importedTypes : List String
  /-- The content type of requests; absent for `get`. -/
  consumes : Option String
  produces : String

namespace Operation

def bodyParameter? (op : Operation) : Option Parameter :=
  op.parameters.find? (·.location == .body)

def authParameters (op : Operation) : List Parameter := op.parameters.filter (·.isAuth)

end Operation

end ApiCodec

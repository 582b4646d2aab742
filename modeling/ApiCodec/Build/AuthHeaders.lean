import ApiCodec.Document.Security
import ApiCodec.Model.Notice
import ApiCodec.Model.Operation

set_option autoImplicit false

namespace ApiCodec

open Document (SecurityScheme SecurityRequirement)

namespace AuthHeaders

def authorization : String := "Authorization"

def bearer (token : TokenKind) : ParameterKind := .authHeader authorization token (some "Bearer")

def basic : ParameterKind := .authHeader authorization .basic (some "Basic")

/-- The header that carries an API key. -/
def ofApiKey (scheme : SecurityScheme) : Except SchemeFault ParameterKind :=
  if scheme.location ≠ some .header then .error (.notInHeader scheme.location)
  else if scheme.authScheme.any (Text.equalIgnoringAsciiCase "bearer") then .ok (bearer .apiKey)
  else
    match scheme.name with
    | some name => .ok (.authHeader name .apiKey none)
    | none => .error .unnamed

/-- A text with its ASCII letters in small. -/
def lowerAscii (text : String) : String := String.ofList (text.toList.map Char.toLower)

/-- The header that carries the token of a scheme. -/
def ofScheme (scheme : SecurityScheme) : Except SchemeFault ParameterKind :=
  match scheme.type with
  | .apiKey => ofApiKey scheme
  | .basic => .ok basic
  | .http =>
      match scheme.scheme.map lowerAscii with
      | some "bearer" => .ok (bearer .oauth2)
      | some "basic" => .ok basic
      | other => .error (.unsupportedHttp other)
  | .oauth2 => .ok (bearer .oauth2)
  | .openIdConnect => .ok (bearer .oauth2)
  | .mutualTLS => .error .mutualTLS

def ofName (schemes : List (String × SecurityScheme)) (name : String) :
    Except Notice Parameter :=
  match Assoc.get? name schemes with
  | none => .error (.unknownScheme name)
  | some scheme =>
      match ofScheme scheme with
      | .ok kind => .ok { name, required := true, type := .string, location := .header, kind }
      | .error fault => .error (.schemeSkipped name fault)

/-- What a requirement says about its schemes after the first. -/
def ignoredNotes (used : String) (others : SecurityRequirement) : List Notice :=
  if others.isEmpty then [] else [.combinedSecurity used (Assoc.keys others)]

/-- The parameters for requirements, in order, with the notices on the way. A requirement counts by
its first scheme; an empty one needs nothing. A scheme among `taken` is there already. -/
def collect (schemes : List (String × SecurityScheme)) (taken : List String) :
    List SecurityRequirement → List Parameter × List Notice
  | [] => ([], [])
  | [] :: rest => collect schemes taken rest
  | ((name, _) :: others) :: rest =>
      let ignored := ignoredNotes name others
      if taken.contains name then
        let (parameters, notes) := collect schemes taken rest
        (parameters, ignored ++ notes)
      else
        match ofName schemes name with
        | .ok parameter =>
            let (parameters, notes) := collect schemes (name :: taken) rest
            (parameter :: parameters, ignored ++ notes)
        | .error notice =>
            let (parameters, notes) := collect schemes taken rest
            (parameters, ignored ++ notice :: notes)

end AuthHeaders

/-- The parameters that carry the tokens of required schemes, with the notices on the way. -/
def authHeaders (schemes : List (String × SecurityScheme))
    (requirements : List SecurityRequirement) : List Parameter × List Notice :=
  AuthHeaders.collect schemes [] requirements

end ApiCodec

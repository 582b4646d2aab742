import ApiCodec.Document.Security
import ApiCodec.Reference.Pointer
import ApiCodec.Text.Letters

set_option autoImplicit false

namespace ApiCodec

open Document (KeyLocation)

/-- Why no request header can carry the token of a security scheme. -/
inductive SchemeFault
  | notInHeader (location : Option KeyLocation)
  | unnamed
  | unsupportedHttp (scheme : Option String)
  | mutualTLS
  deriving DecidableEq, Repr

/-- The name of a place in messages about it. -/
def keyLocationLabel : Option KeyLocation → String
  | none => "None"
  | some .query => "Some(Query)"
  | some .header => "Some(Header)"
  | some .cookie => "Some(Cookie)"

def SchemeFault.message : SchemeFault → String
  | .notInHeader location => "apiKey is sent in " ++ keyLocationLabel location ++ ", not a header"
  | .unnamed => "apiKey scheme has no name"
  | .unsupportedHttp none => "unsupported http scheme None"
  | .unsupportedHttp (some scheme) =>
      "unsupported http scheme Some(" ++ Text.quoted scheme ++ ")"
  | .mutualTLS => "mutualTLS is not carried in a header"

inductive Notice
  /-- A local pointer leads to something that is no definition. -/
  | untypedPointer (path : String)
  | moreItemSchemas (count : Nat)
  | allOfIgnored
  | pathItemReference (target : String)
  | unsupportedMethod (key : String)
  | noOperationId
  | responseDropped (status : String) (cause : ReferenceError)
  | parameterDropped (cause : ReferenceError)
  | parameterOfKind (path : String) (kind : PointerKind)
  | parameterMissing (path : String)
  | parameterCyclic (path : String)
  | parameterUntyped (name : String)
  | requestBodyDropped (cause : ReferenceError)
  | requestBodyUntyped (contentType : String)
  | combinedSecurity (used : String) (ignored : List String)
  | unknownScheme (name : String)
  | schemeSkipped (name : String) (fault : SchemeFault)
  /-- Two operations have one id; the first is named by its method and path. -/
  | duplicateId (id first : String)
  | unknownDefinition (name : String)
  deriving DecidableEq, Repr

def Notice.message : Notice → String
  | .untypedPointer path => "pointer " ++ path ++ " does not address a definition; left untyped"
  | .moreItemSchemas count =>
      "array declares " ++ toString count ++ " item schemas; only the first is kept"
  | .allOfIgnored => "allOf ignored next to oneOf/anyOf"
  | .pathItemReference target => "path item reference " ++ target ++ " is not followed"
  | .unsupportedMethod key => "unsupported method " ++ key ++ "; operation skipped"
  | .noOperationId => "operation has no operationId; skipped"
  | .responseDropped status cause => "response " ++ status ++ " dropped: " ++ cause.message
  | .parameterDropped cause => "parameter dropped: " ++ cause.message
  | .parameterOfKind path kind =>
      "parameter pointer " ++ path ++ " addresses a " ++ kind.label ++ "; dropped"
  | .parameterMissing path => "parameter pointer " ++ path ++ " has no target; dropped"
  | .parameterCyclic path => "parameter pointer " ++ path ++ " is cyclic; dropped"
  | .parameterUntyped name => "parameter " ++ name ++ " declares no type"
  | .requestBodyDropped cause => "request body dropped: " ++ cause.message
  | .requestBodyUntyped contentType => "request body " ++ contentType ++ " declares no schema"
  | .combinedSecurity used ignored =>
      "security requirement combines " ++ used ++ " with " ++ ", ".intercalate ignored ++
        "; only " ++ used ++ " is used"
  | .unknownScheme name => "security requirement names unknown scheme " ++ name
  | .schemeSkipped name fault => "security scheme " ++ name ++ " skipped: " ++ fault.message
  | .duplicateId id first => "operationId " ++ id ++ " is also used by " ++ first
  | .unknownDefinition name => "references unknown definition " ++ name

/-- A notice and what it is about. -/
structure Diagnostic where
  subject : String
  notice : Notice
  deriving DecidableEq, Repr

end ApiCodec

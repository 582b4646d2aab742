import ApiCodec.Build.Model
import ApiCodec.Emit.Client

set_option autoImplicit false

namespace ApiCodec

open Emit

/-- Refuses an option that names a type other than a definition. -/
def checkDefaultType (definitions : Definitions) (option type : String) :
    Except GenerateError Unit :=
  if type ≠ absentType ∧ !Assoc.has type definitions then .error (.unknownType option type)
  else .ok ()

/-- Refuses default types that request types cannot name. -/
def checkDefaultTypes (definitions : Definitions) (o : Options) : Except GenerateError Unit :=
  if o.requestTypes then do
    checkDefaultType definitions "default_success_type" o.defaultSuccessType
    checkDefaultType definitions "default_error_type" o.defaultErrorType
  else .ok ()

def requestTypesFiles (o : Options) (model : Model) : Except GenerateError (List GeneratedFile) :=
  if o.requestTypes then
    (requestTypesModule o model.definitions model.operations).map fun content =>
      [{ path := requestTypesFile, content }]
  else .ok []

def clientFiles (o : Options) (model : Model) : Except GenerateError (List GeneratedFile) :=
  if o.client then
    (clientModule o model.info.basePath model.operations).map fun content =>
      [{ path := clientFile, content }]
  else .ok []

/-- The files of a model: those of its definitions, the request types and the client. -/
def generate (model : Model) (options : Options) : Except GenerateError (List GeneratedFile) := do
  let o := options.normalized
  checkDefaultTypes model.definitions o
  let definitions ← definitionFiles o model.definitions
  let requestTypes ← requestTypesFiles o model
  let client ← clientFiles o model
  return definitions ++ requestTypes ++ client

end ApiCodec

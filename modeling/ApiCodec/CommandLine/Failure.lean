import ApiCodec.CommandLine.Settings
import ApiCodec.Emit.DefinitionModule
import ApiCodec.Files.Bundle
import ApiCodec.Model.Basic

set_option autoImplicit false

namespace ApiCodec

namespace CommandLine

open Files (Fault)

/-- Why a command fails. -/
inductive Failure
  | load (path : String) (cause : BundleError)
  | parse (path : String) (cause : ParseError)
  | transform (path : String) (cause : TransformError)
  /-- A document that was found valid has no model. -/
  | model (cause : TransformError)
  | generate (cause : Emit.GenerateError)
  | outputDirectory (path : String) (cause : Fault)
  | directory (path : String) (cause : Fault)
  | file (path : String) (cause : Fault)
  | unreadableSettings (cause : Fault)
  | invalidSettings
  | settingsExist
  | settingsFile (cause : Fault)

end CommandLine

/-- A cause of a failure and its own causes, the outermost first. -/
def ParseError.chain (e : ParseError) : List String :=
  e.message ::
    match e with
    | .shape _ cause => [cause.message]
    | .fragment _ cause => [cause.message]
    | _ => []

def TransformError.chain (e : TransformError) : List String :=
  e.message ::
    match e with
    | .parse cause => cause.chain
    | .reference cause => [cause.message]
    | .operation _ cause => [cause.message]

def BundleError.chain (e : BundleError) : List String :=
  e.message ::
    match e with
    | .file _ fault => [fault.message]
    | .format _ _ => []
    | .endless _ => []

namespace CommandLine

def Failure.chain : Failure → List String
  | .load path cause => ("failed to load " ++ path) :: cause.chain
  | .parse path cause => ("failed to parse " ++ path) :: cause.chain
  | .transform path cause => ("failed to transform " ++ path) :: cause.chain
  | .model cause => cause.chain
  | .generate cause => [cause.message]
  | .outputDirectory path cause => ["failed to create output directory " ++ path, cause.message]
  | .directory path cause => ["failed to create directory " ++ path, cause.message]
  | .file path cause => ["failed to write " ++ path, cause.message]
  | .unreadableSettings cause =>
      ["failed to read config " ++ Settings.file ++ ": " ++ cause.message]
  | .invalidSettings => ["failed to parse config " ++ Settings.file ++ ":"]
  | .settingsExist => [Settings.file ++ " already exists. Use --force to overwrite."]
  | .settingsFile cause => [cause.message]

end CommandLine

end ApiCodec

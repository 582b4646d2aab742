import ApiCodec.CommandLine.Arguments
import ApiCodec.CommandLine.Failure
import ApiCodec.Emit.Generate
import ApiCodec.Model.Basic
import ApiCodec.Yaml.Printer

set_option autoImplicit false

namespace ApiCodec.CommandLine

open Files (Fault)

/-- What a command asks of the machine that it runs on. -/
structure Host (m : Type → Type) where
  has : String → m Bool
  read : String → m (Except Fault String)
  /-- Makes a directory with all above it. -/
  makeDirectories : String → m (Except Fault Unit)
  write : String → String → m (Except Fault Unit)
  /-- Shows a result. -/
  display : String → m Unit
  /-- Shows a text about the run. -/
  report : String → m Unit

/-- Settings with those of the command line before those of the file. A switch only turns on. -/
def Settings.override (s : Settings) (o : Overrides) : Settings :=
  { input := o.input.getD s.input
    output := o.output.getD s.output
    options :=
      { strictInterfaces := s.options.strictInterfaces || o.strictInterfaces
        camelCase := s.options.camelCase || o.camelCase
        defaultSuccessType := o.defaultSuccessType.getD s.options.defaultSuccessType
        defaultErrorType := o.defaultErrorType.getD s.options.defaultErrorType
        requestTypes := s.options.requestTypes || o.requestTypes
        responseDecoders := s.options.responseDecoders || o.responseDecoders
        client := s.options.client || o.client } }

/-- How many files a document may refer to. -/
def fileLimit : Nat := Nat.pow 2 32

section

variable {m : Type → Type} [Monad m]

abbrev Step (m : Type → Type) := ExceptT Failure m

def attempt {α : Type} (failure : Fault → Failure) (step : m (Except Fault α)) : Step m α :=
  ExceptT.mk do
    match ← step with
    | .ok a => return .ok a
    | .error fault => return .error (failure fault)

/-- A value, or the failure that stands for an error. -/
def orFail {ε α : Type} (failure : ε → Failure) : Except ε α → Step m α
  | .ok a => pure a
  | .error e => throw (failure e)

namespace Host

/-- The settings of the working directory, if it has any. -/
def settings? (host : Host m) : Step m (Option Settings) := do
  if ← host.has Settings.file then
    let text ← attempt .unreadableSettings (host.read Settings.file)
    match Settings.ofText? text with
    | some settings => return some settings
    | none => throw .invalidSettings
  else return none

/-- Loads the document at a path, with all files that it refers to. -/
def load (host : Host m) (path : String) : Step m Bundle := do
  let loader (file : String) : ExceptT BundleError m Json :=
    ExceptT.mk (readDocument file <$> host.read file)
  match ← (Bundle.load loader fileLimit path).run with
  | .ok (some bundle) => return bundle
  | .ok none => throw (.load path (.endless fileLimit))
  | .error cause => throw (.load path cause)

def model (host : Host m) (path : String) : Step m Model := do
  let bundle ← host.load path
  orFail (.transform path) (Model.ofJson bundle.root bundle.fragments)

def writeFile (host : Host m) (directory : String) (file : Emit.GeneratedFile) : Step m Unit := do
  let path := Files.join directory file.path
  match Files.parent? path with
  | some parent => attempt (.directory parent) (host.makeDirectories parent)
  | none => pure ()
  attempt (.file path) (host.write path file.content)

def generate (host : Host m) (overrides : Overrides) : Step m Unit := do
  let settings := ((← host.settings?).getD {}).override overrides
  let model ← host.model settings.input
  let files ← orFail .generate (ApiCodec.generate model settings.options)
  let output := settings.output
  attempt (.outputDirectory output) (host.makeDirectories output)
  files.forM (host.writeFile output)
  host.report
    ("Generated " ++ toString files.length ++ " files in " ++ output ++ "\n")

def validate (host : Host m) (input : String) : Step m Unit := do
  let line (text : String) : Step m Unit := host.report (text ++ "\n")
  let bundle ← host.load input
  let document ← orFail (.parse input) (Document.ofJson bundle.root)
  line ("Valid " ++ document.dialect.name ++ " document: " ++ document.info.title)
  line ("  Version: " ++ document.info.version)
  line ("  External files: " ++ toString bundle.fragments.length)
  let model ← orFail .model (Model.ofJson bundle.root bundle.fragments)
  line ("  Definitions: " ++ toString model.definitions.length)
  line ("  Operations: " ++ toString model.operations.length)
  if model.diagnostics.isEmpty then line "Validation successful."
  else
    line
      ("Validation successful with " ++ toString model.diagnostics.length ++ " warnings:")
    model.diagnostics.forM fun diagnostic => line ("  - " ++ diagnostic.line)

def inspect (host : Host m) (input : String) (format : ReportFormat) : Step m Unit := do
  let view := (← host.model input).summaryView
  match format with
  | .yaml => host.display (Yaml.print view)
  | .json => host.display (view.pretty 0 ++ "\n")

def init (host : Host m) (force : Bool) : Step m Unit := do
  if (← host.has Settings.file) && !force then throw .settingsExist
  attempt .settingsFile (host.write Settings.file Settings.initialText)
  host.report ("Created " ++ Settings.file ++ "\n")

/-- Runs a command. Scripts for shells come with the shells, so nothing is shown for them. -/
def run (host : Host m) : Command → Step m Unit
  | .generate overrides => host.generate overrides
  | .validate input => host.validate input
  | .inspect input format => host.inspect input format
  | .init force => host.init force
  | .completions _ => pure ()

end Host

end

end ApiCodec.CommandLine

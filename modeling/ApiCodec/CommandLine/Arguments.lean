import ApiCodec.CommandLine.Settings
import ApiCodec.Json.Basic
import ApiCodec.Text.Segments

set_option autoImplicit false

/-!
The arguments of the program: a command, its flags and its positional argument. A flag whose value
is not attached to it takes the next argument that does not begin with a dash. Values are judged
when the next flag that the command knows begins, or at the end; what the command does not know is
refused at once.
-/

namespace ApiCodec.CommandLine

inductive ReportFormat
  | yaml
  | json
  deriving DecidableEq, Repr

/-- What the flags of `generate` change about the settings. -/
structure Overrides where
  input : Option String := none
  output : Option String := none
  strictInterfaces : Bool := false
  camelCase : Bool := false
  defaultSuccessType : Option String := none
  defaultErrorType : Option String := none
  requestTypes : Bool := false
  responseDecoders : Bool := false
  client : Bool := false
  deriving DecidableEq, Repr

inductive Command
  | generate (overrides : Overrides)
  | validate (input : String)
  | inspect (input : String) (format : ReportFormat)
  | init (force : Bool)
  | completions (shell : String)
  deriving DecidableEq, Repr

/-- Why arguments name no command to run. -/
inductive Refusal
  | help
  | version
  /-- Nothing is asked for, so help is given. -/
  | nothingAsked
  | unknownCommand
  | unknownArgument
  | missingArgument
  | invalidValue
  /-- A flag is given twice. -/
  | repeated
  /-- A value is attached to a flag that takes none. -/
  | needlessValue
  deriving DecidableEq, Repr

/-- What may follow a flag. -/
inductive ValueKind
  /-- The flag is a switch. -/
  | nothing
  /-- A path is not empty. -/
  | path
  | text
  | choice (names : List String)
  deriving DecidableEq, Repr

def ValueKind.accepts : ValueKind → String → Bool
  | .nothing, _ => true
  | .path, value => !value.isEmpty
  | .text, _ => true
  | .choice names, value => names.contains value

/-- A flag, or a positional argument under the name that help gives it. -/
structure Flag where
  name : String
  short : Option Char := none
  value : ValueKind
  required : Bool := false
  deriving DecidableEq, Repr

/-- The arguments that a command takes. -/
structure Grammar where
  flags : List Flag
  positional : Option Flag := none

/-- Arguments read so far. -/
structure Reading where
  /-- The values of flags by name; that of a switch is empty. -/
  values : List (String × String) := []
  /-- The last flag, with its value once there is one, before the value is judged. -/
  pending : Option (Flag × Option String) := none
  /-- The positional argument that is still to come. -/
  positional : Option Flag

namespace Reading

def record (r : Reading) (flag : Flag) (value : String) : Except Refusal Reading :=
  if Assoc.has flag.name r.values then .error .repeated
  else if flag.value.accepts value then
    .ok { r with values := r.values ++ [(flag.name, value)] }
  else .error .invalidValue

/-- Judges the last flag. -/
def settle (r : Reading) : Except Refusal Reading :=
  match r.pending with
  | none => .ok r
  | some (_, none) => .error .invalidValue
  | some (flag, some value) => { r with pending := none }.record flag value

def take (r : Reading) (flag : Flag) (value : String) : Except Refusal Reading :=
  r.settle.bind fun r => r.record flag value

/-- Takes a flag whose value is still to come. -/
def await (r : Reading) (flag : Flag) : Except Refusal Reading :=
  r.settle.map fun r => { r with pending := some (flag, none) }

/-- Gives help once the last flag is judged. -/
def giveHelp (r : Reading) : Except Refusal Reading := r.settle.bind fun _ => .error .help

/-- Takes an argument that is no flag and no value of one. -/
def takePositional (r : Reading) (arg : String) : Except Refusal Reading :=
  match r.positional with
  | none => .error .unknownArgument
  | some flag =>
      r.settle.map fun r => { r with pending := some (flag, some arg), positional := none }

/-- Takes an argument after two dashes, a value being attached by an equals sign. -/
def takeLong (r : Reading) (flags : List Flag) (arg : String) : Except Refusal Reading :=
  let (name, value) :=
    match Text.cut? '=' arg with
    | some (name, value) => (name, some value)
    | none => (arg, none)
  let flag? := flags.find? (·.name == name)
  match value with
  | some value =>
      if name = "help" then .error .needlessValue
      else
        match flag? with
        | none => .error .unknownArgument
        | some flag =>
            if flag.value = .nothing then .error .needlessValue else r.take flag value
  | none =>
      if name = "help" then r.giveHelp
      else
        match flag? with
        | none => .error .unknownArgument
        | some flag => if flag.value = .nothing then r.take flag "" else r.await flag

/-- Takes the letters after one dash. A letter that takes a value takes the rest, with or without an
equals sign between them. -/
def takeLetters (r : Reading) (flags : List Flag) : List Char → Except Refusal Reading
  | [] => .ok r
  | c :: rest =>
      if c = 'h' then r.giveHelp
      else
        match flags.find? (·.short == some c) with
        | none => .error .unknownArgument
        | some flag =>
            if flag.value = .nothing then
              (r.take flag "").bind fun r => r.takeLetters flags rest
            else
              match rest with
              | [] => r.await flag
              | '=' :: value => r.take flag (String.ofList value)
              | value => r.take flag (String.ofList value)

/-- Whether the last flag has no value yet. -/
def isAwaiting (r : Reading) : Bool :=
  match r.pending with
  | some (_, none) => true
  | _ => false

/-- Gives the last flag its value. -/
def fill (r : Reading) (value : String) : Reading :=
  { r with pending := r.pending.map fun (flag, _) => (flag, some value) }

/-- Reads arguments in order. After two dashes alone, all are positional. -/
def readAll (flags : List Flag) (r : Reading) : List String → Except Refusal Reading
  | [] => r.settle
  | arg :: rest =>
      match arg.toList with
      | ['-', '-'] =>
          (rest.foldlM (fun (r : Reading) arg => r.takePositional arg) r).bind settle
      | '-' :: '-' :: long =>
          (r.takeLong flags (String.ofList long)).bind fun r => readAll flags r rest
      | '-' :: c :: letters =>
          (r.takeLetters flags (c :: letters)).bind fun r => readAll flags r rest
      | _ =>
          if r.isAwaiting then readAll flags (r.fill arg) rest
          else (r.takePositional arg).bind fun r => readAll flags r rest

def value? (r : Reading) (name : String) : Option String := Assoc.get? name r.values

def isOn (r : Reading) (name : String) : Bool := Assoc.has name r.values

end Reading

/-- Reads the arguments of a command. -/
def Grammar.read (g : Grammar) (args : List String) : Except Refusal Reading :=
  (Reading.readAll g.flags { positional := g.positional } args).bind fun r =>
    if (g.flags ++ g.positional.toList).any fun flag => flag.required && !r.isOn flag.name then
      .error .missingArgument
    else .ok r

def switch (name : String) : Flag := { name, value := .nothing }

def inputFlag (required : Bool) : Flag := { name := "input", short := some 'i', value := .path, required }

def generateGrammar : Grammar where
  flags :=
    [inputFlag false,
     { name := "output", short := some 'o', value := .path },
     switch "strict-interfaces",
     switch "camel-case",
     { name := "default-success-type", value := .text },
     { name := "default-error-type", value := .text },
     switch "request-types",
     switch "response-decoders",
     switch "client"]

def overridesOf (r : Reading) : Overrides :=
  { input := r.value? "input"
    output := r.value? "output"
    strictInterfaces := r.isOn "strict-interfaces"
    camelCase := r.isOn "camel-case"
    defaultSuccessType := r.value? "default-success-type"
    defaultErrorType := r.value? "default-error-type"
    requestTypes := r.isOn "request-types"
    responseDecoders := r.isOn "response-decoders"
    client := r.isOn "client" }

def validateGrammar : Grammar where
  flags := [inputFlag true]

def inspectGrammar : Grammar where
  flags := [inputFlag true, { name := "format", value := .choice ["yaml", "json"] }]

def initGrammar : Grammar where
  flags := [switch "force"]

def shells : List String := ["bash", "elvish", "fish", "powershell", "zsh"]

def completionsGrammar : Grammar where
  flags := []
  positional := some { name := "shell", value := .choice shells, required := true }

namespace Command

/-- The commands by name: how the arguments after the name are read. -/
def all : List (String × (List String → Except Refusal Command)) :=
  [("generate", fun args => (generateGrammar.read args).map fun r => .generate (overridesOf r)),
   ("validate", fun args =>
      (validateGrammar.read args).map fun r => .validate ((r.value? "input").getD "")),
   ("inspect", fun args =>
      (inspectGrammar.read args).map fun r =>
        .inspect ((r.value? "input").getD "")
          (if r.value? "format" = some "json" then .json else .yaml)),
   ("init", fun args => (initGrammar.read args).map fun r => .init (r.isOn "force")),
   ("completions", fun args =>
      (completionsGrammar.read args).map fun r => .completions ((r.value? "shell").getD ""))]

/-- The names that may stand in the place of a command. -/
def names : List String := Assoc.keys all ++ ["help"]

/-- Gives help about the program or about one command. -/
def helpAbout : List String → Refusal
  | [] => .help
  | [name] => if names.contains name then .help else .unknownCommand
  | _ => .unknownCommand

def refuseFlag : List Char → Refusal
  | '-' :: long =>
      let name := long.takeWhile (· != '=')
      if name = "help".toList ∨ name = "version".toList then
        if long.contains '=' then .needlessValue
        else if name = "help".toList then .help
        else .version
      else .unknownArgument
  | 'h' :: _ => .help
  | 'V' :: _ => .version
  | _ => .unknownArgument

def ofArguments : List String → Except Refusal Command
  | [] => .error .nothingAsked
  | arg :: rest =>
      match Assoc.get? arg all with
      | some read => read rest
      | none =>
          if arg = "help" then .error (helpAbout rest)
          else
            match arg.toList, rest with
            | ['-', '-'], [] => .error .nothingAsked
            | ['-', '-'], name :: _ =>
                .error (if names.contains name then .unknownArgument else .unknownCommand)
            | ['-'], _ => .error .unknownCommand
            | '-' :: flag, _ => .error (refuseFlag flag)
            | _, _ => .error .unknownCommand

end Command

end ApiCodec.CommandLine

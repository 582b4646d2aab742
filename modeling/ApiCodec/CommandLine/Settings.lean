import ApiCodec.Options
import ApiCodec.Yaml.Reader

set_option autoImplicit false

namespace ApiCodec.CommandLine

structure Settings where
  input : String := "openapi.yaml"
  output : String := "src/generated"
  options : Options := {}
  deriving DecidableEq, Repr

namespace Settings

/-- The file that holds the settings. -/
def file : String := ".oasgen.yaml"

/-- The text of a settings file in which everything is as it is without one. -/
def initialText : String :=
  String.join <| List.map (· ++ "\n")
    ["# oasgen configuration",
     "input: openapi.yaml",
     "output: src/generated",
     "",
     "strict_interfaces: false     # object codecs reject undeclared properties",
     "camel_case: false            # rename property keys to camelCase",
     "",
     "# Types for responses without a schema reference. \"undefined\" means no payload.",
     "default_success_type: undefined",
     "default_error_type: undefined",
     "",
     "request_types: false         # emit requestTypes.ts",
     "response_decoders: false     # emit response decoders (implies request_types)",
     "client: false                # emit client.ts (implies response_decoders)"]

open Yaml (scalarJson? isLocalTag)

mutual

/-- Whether a node has a value: its tags fit what is written, and none is of the file's own making. -/
def readable : Yaml.Node → Bool
  | .scalar text style tag => (scalarJson? text style tag).isSome
  | .sequence tag items => !isLocalTag tag && readableItems items
  | .mapping tag entries => !isLocalTag tag && readableEntries entries
  | .linked _ => false

def readableItems : List Yaml.Node → Bool
  | [] => true
  | item :: rest => readable item && readableItems rest

def readableEntries : List (Yaml.Node × Yaml.Node) → Bool
  | [] => true
  | (key, value) :: rest => readable key && readable value && readableEntries rest

end

def json? : Yaml.Node → Option Json
  | .scalar text style tag => scalarJson? text style tag
  | _ => none

def bool? (node : Yaml.Node) : Option Bool :=
  match json? node with
  | some (.bool b) => some b
  | _ => none

def string? (node : Yaml.Node) : Option String :=
  match json? node with
  | some (.str s) => some s
  | _ => none

def text? : Yaml.Node → Option String
  | .scalar text _ _ => some text
  | _ => none

/-- The settings with one of them changed. Settings of another name are passed over. -/
def set? (s : Settings) (name : String) (value : Yaml.Node) : Option Settings :=
  match name with
  | "input" => (text? value).map fun input => { s with input }
  | "output" => (text? value).map fun output => { s with output }
  | "strict_interfaces" =>
      (bool? value).map fun b => { s with options := { s.options with strictInterfaces := b } }
  | "camel_case" =>
      (bool? value).map fun b => { s with options := { s.options with camelCase := b } }
  | "default_success_type" =>
      (string? value).map fun t => { s with options := { s.options with defaultSuccessType := t } }
  | "default_error_type" =>
      (string? value).map fun t => { s with options := { s.options with defaultErrorType := t } }
  | "request_types" =>
      (bool? value).map fun b => { s with options := { s.options with requestTypes := b } }
  | "response_decoders" =>
      (bool? value).map fun b => { s with options := { s.options with responseDecoders := b } }
  | "client" =>
      (bool? value).map fun b => { s with options := { s.options with client := b } }
  | _ => if readable value then some s else none

/-- Every name that a settings file gives a meaning to. -/
def names : List String := ["input", "output"] ++ Options.names

/-- Changes settings by the entries of a mapping. `seen` are the names that were set. -/
def setAll? (s : Settings) (seen : List String) : List (Yaml.Node × Yaml.Node) → Option Settings
  | [] => some s
  | (key, value) :: rest => do
      let name ← text? key
      if seen.contains name then none
      else
        let next ← s.set? name value
        next.setAll? (if names.contains name then name :: seen else seen) rest

/-- The settings of a file's text: a mapping, or nothing. -/
def ofText? (text : String) : Option Settings := do
  match ← Yaml.Node.read? text with
  | none => some {}
  | some (.mapping _ entries) => ({} : Settings).setAll? [] entries
  | some (.scalar "" .plain _) => some {}
  | some _ => none

end Settings

end ApiCodec.CommandLine

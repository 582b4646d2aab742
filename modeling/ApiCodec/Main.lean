import ApiCodec.CommandLine.Run

set_option autoImplicit false

namespace ApiCodec.CommandLine

open Files (Fault)

def faultOf : IO.Error → Fault
  | .noFileOrDirectory _ _ _ => .notFound
  | .noSuchThing _ _ _ => .notFound
  | .alreadyExists _ _ _ => .alreadyExists
  | e => .other (toString e)

def caught {α : Type} (action : IO α) : IO (Except Fault α) := do
  match ← action.toBaseIO with
  | .ok a => return .ok a
  | .error e => return .error (faultOf e)

def machine : Host IO where
  has path := do
    match ← caught (IO.FS.readFile path) with
    | .error .notFound => return false
    | _ => return true
  read path := caught (IO.FS.readFile path)
  makeDirectories path := if path.isEmpty then return .ok () else caught (IO.FS.createDirAll path)
  write path content := caught (IO.FS.writeFile path content)
  display := IO.print
  report := IO.eprint

def failureText : List String → String
  | [] => ""
  | [failure] => "Error: " ++ failure ++ "\n"
  | failure :: causes =>
      "Error: " ++ failure ++ "\n\nCaused by:\n" ++
        String.join (causes.map fun cause => "    " ++ cause ++ "\n")

def usageText : String :=
  "Usage: oasgen <COMMAND>\n\nCommands: " ++ ", ".intercalate Command.names ++ "\n"

def versionText : String := "oasgen 0.3.0\n"

end ApiCodec.CommandLine

open ApiCodec.CommandLine in
def main (args : List String) : IO UInt32 := do
  match Command.ofArguments args with
  | .error .help =>
      IO.print usageText
      return 0
  | .error .version =>
      IO.print versionText
      return 0
  | .error _ =>
      IO.eprint usageText
      return 2
  | .ok command =>
      match ← (machine.run command).run with
      | .ok () => return 0
      | .error failure =>
          IO.eprint (failureText failure.chain)
          return 1

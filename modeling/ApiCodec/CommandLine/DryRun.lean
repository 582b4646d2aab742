import ApiCodec.CommandLine.Run
import ApiCodec.Files.Tree

set_option autoImplicit false

namespace ApiCodec.CommandLine

open Files (Fault Tree)

/-- What a run has done so far. -/
structure Desk where
  tree : Tree
  /-- The results shown. -/
  displayed : String := ""
  /-- The texts about the run. -/
  reported : String := ""

/-- A step on a file tree. -/
abbrev DryRun := StateM Desk

namespace DryRun

def change (f : Tree → Except Fault Tree) : DryRun (Except Fault Unit) := do
  let desk ← get
  match f desk.tree with
  | .ok tree =>
      set { desk with tree }
      return .ok ()
  | .error fault => return .error fault

/-- The host whose files are those of a tree. -/
def host : Host DryRun where
  has path := return (← get).tree.has path
  read path := return (← get).tree.read path
  makeDirectories path := do
    let desk ← get
    let (tree, result) := desk.tree.makeDirectories path
    set { desk with tree }
    return result
  write path content := change fun tree => tree.write path content
  display text := modify fun desk => { desk with displayed := desk.displayed ++ text }
  report text := modify fun desk => { desk with reported := desk.reported ++ text }

end DryRun

/-- Runs a command on a tree: how it ends, and what it has done until then. -/
def Command.dryRun (command : Command) (tree : Tree) : Except Failure Unit × Desk :=
  (DryRun.host.run command).run.run { tree }

end ApiCodec.CommandLine

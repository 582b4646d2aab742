import ApiCodec.Json.Basic
import ApiCodec.Text.NameSet

set_option autoImplicit false

/-!
What a generated module needs besides its own text: the definitions that it imports, and the codecs
that it declares under names of their own. A name stands for one codec; another codec that asks for
it gets a number after it.
-/

namespace ApiCodec.Emit

/-- The imports and aliases of a module. -/
structure Context where
  imports : NameSet
  /-- Codecs by name, in the order in which they were declared. -/
  aliases : List (String × String)
  deriving DecidableEq, Repr

namespace Context

def empty : Context := ⟨[], []⟩

def importName (ctx : Context) (name : String) : Context :=
  { ctx with imports := NameSet.insert name ctx.imports }

/-- Imports several definitions. -/
def importAll (ctx : Context) (names : List String) : Context :=
  { ctx with imports := NameSet.union ctx.imports names }

/-- The name that is tried after `n` others. -/
def variant (name : String) (n : Nat) : String :=
  if n = 0 then name else name ++ toString (n + 1)

/-- Whether a name is free for a codec or stands for it already. -/
def allows (ctx : Context) (codec name : String) : Bool :=
  match Assoc.get? name ctx.aliases with
  | none => true
  | some other => other == codec

/-- The names to try for a codec: one more than there are aliases, so that one of them is free. -/
def variants (ctx : Context) (name : String) : List String :=
  (List.range (ctx.aliases.length + 1)).map (variant name)

/-- The name under which a codec is declared that asks for a name. -/
def aliasName (ctx : Context) (name codec : String) : String :=
  ((ctx.variants name).find? (ctx.allows codec)).getD name

/-- Declares a codec, unless it is declared under its name already. -/
def declare (ctx : Context) (name codec : String) : Context :=
  let chosen := ctx.aliasName name codec
  if Assoc.has chosen ctx.aliases then ctx
  else { ctx with aliases := ctx.aliases ++ [(chosen, codec)] }

/-- Adds the imports and aliases of another context. -/
def merge (ctx other : Context) : Context :=
  other.aliases.foldl (fun ctx (name, codec) => ctx.declare name codec)
    (ctx.importAll other.imports)

end Context

end ApiCodec.Emit

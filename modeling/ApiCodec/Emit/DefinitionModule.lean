import ApiCodec.Emit.Codec
import ApiCodec.Emit.Templates

set_option autoImplicit false

namespace ApiCodec.Emit

structure GeneratedFile where
  path : String
  content : String
  deriving DecidableEq, Repr

/-- Why no code is generated. -/
inductive GenerateError
  /-- A template does not exist, or a value in it is not what it should be. -/
  | render
  /-- An option names a type that is no definition. -/
  | unknownType (option type : String)
  deriving DecidableEq, Repr

def GenerateError.message : GenerateError → String
  | .render => "template render failed: "
  | .unknownType option type =>
      "invalid generation options: " ++ option ++ " `" ++ type ++
        "` is not a definition of the document"

/-- The text of a template, or why there is none. -/
def render (template : String) (value : Json) : Except GenerateError String :=
  match renderTemplate template value with
  | some text => .ok text
  | none => .error .render

/-- The directory of the modules of definitions. -/
def definitionsDir : String := "definitions"

def importLine (definitions : Definitions) (leading name : String) : Json :=
  let hint := (Assoc.get? name definitions).bind (·.importFrom)
  .obj [("name", .str name), ("path", .str (hint.getD (leading ++ name)))]

/-- The lines that import definitions. A definition that comes from a module of its own is imported
from there, any other one from the file of its name, `leading` being the way to it. -/
def importLinesOf (definitions : Definitions) (leading : String) (names : NameSet) : Json :=
  .arr (names.map (importLine definitions leading))

/-- Whether a name is reached through references from pending ones, the last of them first. What a
definition refers to is added to the names that are pending. Names in `seen` are passed over. -/
def reaches (definitions : Definitions) (goal : String) (seen pending : List String) : Bool :=
  match _ : pending.getLast? with
  | none => false
  | some next =>
      if next = goal then true
      else if _ : next ∈ seen then reaches definitions goal seen pending.dropLast
      else
        match _ : Assoc.get? next definitions with
        | some d => reaches definitions goal (next :: seen) (d.addNames pending.dropLast)
        | none => reaches definitions goal (next :: seen) pending.dropLast
termination_by
  ((Assoc.keys definitions).countP fun name => !seen.contains name, pending.length)
decreasing_by
  · apply Prod.Lex.right
    grind
  · apply Prod.Lex.left
    exact NameSet.countP_lt_countP
      (List.mem_map_of_mem (f := Prod.fst) (Assoc.mem_of_get? (by assumption))) (by assumption)
  · apply Prod.Lex.right'
    · exact NameSet.countP_le_countP _ _ _
    · grind

/-- Whether a definition is reached from itself. -/
def isRecursive (definitions : Definitions) (name : String) (d : Definition) : Bool :=
  reaches definitions name [] d.names

/-- Whether a definition is an object of declared properties and nothing else. -/
def isPlainObject (d : Definition) : Bool :=
  d.composition.isNone && d.enumeration.isNone && !d.nullable && !d.properties.isEmpty &&
    (d.type = none || d.type = some .object)

/-- How the module of a definition is written. -/
inductive ModuleKind
  | object
  | recursive
  | plain
  deriving DecidableEq, Repr

def ModuleKind.name : ModuleKind → String
  | .object => "object"
  | .recursive => "recursive"
  | .plain => "plain"

def moduleKind (definitions : Definitions) (name : String) (d : Definition) : ModuleKind :=
  if isRecursive definitions name d then .recursive
  else if isPlainObject d then .object
  else .plain

structure DefinitionModule where
  name : String
  description : Option String
  kind : ModuleKind
  context : Context
  strict : Bool
  properties : List Property
  codec : String
  type : String

namespace DefinitionModule

/-- The module of a definition, without the import of itself. -/
def of (o : Options) (definitions : Definitions) (name : String) (d : Definition) :
    DefinitionModule :=
  let kind := moduleKind definitions name d
  let codec := if kind = .object then .plain "" else definitionCodec o d
  let type := if kind = .recursive then definitionType o d else .plain ""
  let context := Context.empty.importAll (type.imports ++ codec.imports)
  let (properties, context) :=
    if kind = .object then propertiesOf o (some name) context d else ([], context)
  { name
    description := d.description
    kind
    context := { context with imports := context.imports.filter (· != name) }
    strict := o.strictInterfaces
    properties
    codec := codec.text
    type := type.text }

def propertyValue (p : Property) : Json :=
  .obj [("key", .str p.key), ("codec", .str p.codec.text), ("required", .bool p.required)]

/-- The module as a value for its template. -/
def toJson (definitions : Definitions) (m : DefinitionModule) : Json :=
  .obj
    [("name", .str m.name), ("description", .ofString? m.description), ("kind", .str m.kind.name),
     ("imports", importLinesOf definitions "./" m.context.imports),
     ("aliases", .arr (m.context.aliases.map fun (name, codec) =>
        .obj [("name", .str name), ("codec", .str codec)])),
     ("strict", .bool m.strict),
     ("required", .arr ((m.properties.filter (·.required)).map propertyValue)),
     ("optional", .arr ((m.properties.filter fun p => !p.required).map propertyValue)),
     ("codec", .str m.codec), ("ts_type", .str m.type)]

end DefinitionModule

def definitionFile (o : Options) (definitions : Definitions) (name : String) (d : Definition) :
    Except GenerateError GeneratedFile :=
  (render "definition.ts.j2" ((DefinitionModule.of o definitions name d).toJson definitions)).map
    fun content => { path := definitionsDir ++ "/" ++ name ++ ".ts", content }

/-- The files of all definitions that do not come from modules of their own. -/
def definitionFiles (o : Options) (definitions : Definitions) :
    Except GenerateError (List GeneratedFile) :=
  (definitions.filter fun entry => entry.2.importFrom.isNone).mapM fun (name, d) =>
    definitionFile o definitions name d

end ApiCodec.Emit

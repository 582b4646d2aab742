import ApiCodec.Json.Basic

set_option autoImplicit false

namespace ApiCodec

/-- Types of values. A file is the opaque content of an upload. -/
inductive DataType
  | string
  | number
  | integer
  | boolean
  | object
  | array
  | null
  | file
  deriving DecidableEq, Repr

/-- The limits on numbers, texts and arrays. -/
structure Constraints where
  minimum : Option Binary64 := none
  maximum : Option Binary64 := none
  exclusiveMinimum : Bool := false
  exclusiveMaximum : Bool := false
  minLength : Option Nat := none
  maxLength : Option Nat := none
  pattern : Option String := none
  minItems : Option Nat := none
  maxItems : Option Nat := none
  deriving DecidableEq, Repr

/-- The values that a node is restricted to. -/
structure Enumeration where
  values : List Json
  /-- Values that are not listed have to be accepted too. -/
  extensible : Bool
  deriving Repr

/-- How the members of a composed node combine. -/
inductive CompositionKind
  | oneOf
  | allOf
  deriving DecidableEq, Repr

mutual

/-- The name of a definition, or a structure in place. -/
inductive Node
  | ref (name : String)
  | inline (definition : Definition)

/-- A structure that values may have. -/
structure Definition where
  /-- Absent for composed and untyped nodes. -/
  type : Option DataType
  nullable : Bool
  format : Option String
  /-- The order of declaration is that of generated fields. -/
  properties : List (String × Node)
  required : List String
  items : Option Node
  additional : Option Additional
  enumeration : Option Enumeration
  composition : Option Composition
  constraints : Constraints
  default : Option Json
  title : Option String
  description : Option String
  /-- The module that the type comes from instead of being generated. -/
  importFrom : Option String

/-- What an object may hold besides its properties. -/
inductive Additional
  | flag (allowed : Bool)
  | node (values : Node)

/-- A node made of others, in one of two ways. -/
inductive Composition
  | mk (kind : CompositionKind) (members : List Node)

end

abbrev Definitions := List (String × Definition)

namespace Constraints

def hasNumericRange (c : Constraints) : Bool := c.minimum.isSome || c.maximum.isSome

def hasLengthRange (c : Constraints) : Bool := c.minLength.isSome || c.maxLength.isSome

end Constraints

namespace Composition

def kind : Composition → CompositionKind
  | .mk kind _ => kind

def members : Composition → List Node
  | .mk _ members => members

end Composition

namespace Definition

/-- A structure that any value has. -/
def untyped : Definition :=
  { type := none, nullable := false, format := none, properties := [], required := []
    items := none, additional := none, enumeration := none, composition := none, constraints := {}
    default := none, title := none, description := none, importFrom := none }

/-- The structure of all values of a type. -/
def ofType (type : DataType) : Definition := { untyped with type := some type }

/-- A structure that stands for a definition. -/
def named (name : String) : Definition :=
  { untyped with composition := some (.mk .allOf [.ref name]) }

/-- An object whose only shape is that of its values. -/
def isDictionary (d : Definition) : Bool :=
  match d.properties, d.additional with
  | [], some (.node _) => true
  | _, _ => false

end Definition

def addName (names : List String) (name : String) : List String :=
  if names.contains name then names else names ++ [name]

mutual

/-- Adds the names that a node refers to, in the order of their first occurrence. -/
def Node.addNames (names : List String) : Node → List String
  | .ref name => addName names name
  | .inline definition => definition.addNames names

/-- Adds the names that occur in a definition, in the order of their first occurrence. -/
def Definition.addNames (names : List String) : Definition → List String
  | { properties, items, additional, composition, .. } =>
      let names := addPropertyNames names properties
      let names := addItemsNames names items
      let names := addAdditionalNames names additional
      addCompositionNames names composition

def addPropertyNames (names : List String) : List (String × Node) → List String
  | [] => names
  | (_, node) :: rest => addPropertyNames (node.addNames names) rest

def addItemsNames (names : List String) : Option Node → List String
  | none => names
  | some node => node.addNames names

def addAdditionalNames (names : List String) : Option Additional → List String
  | none => names
  | some (.flag _) => names
  | some (.node values) => values.addNames names

def addCompositionNames (names : List String) : Option Composition → List String
  | none => names
  | some (.mk _ members) => addMemberNames names members

def addMemberNames (names : List String) : List Node → List String
  | [] => names
  | node :: rest => addMemberNames (node.addNames names) rest

end

/-- The names that occur in a definition, each once, in the order of their first occurrence. -/
def Definition.names (d : Definition) : List String := d.addNames []

end ApiCodec

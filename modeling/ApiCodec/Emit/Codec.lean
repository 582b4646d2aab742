import ApiCodec.Emit.Context
import ApiCodec.Json.Printer
import ApiCodec.Model.Operation
import ApiCodec.Options
import ApiCodec.Text.Segments
import ApiCodec.Text.Words

set_option autoImplicit false

namespace ApiCodec.Emit

def literal (text : String) : String := Json.quote text

def startsIdentifier (c : Char) : Bool := c.isAlpha || c == '_' || c == '$'

def continuesIdentifier (c : Char) : Bool := c.isAlphanum || c == '_' || c == '$'

/-- Whether a text is an identifier; the letters are those of ASCII. -/
def isIdentifier (text : String) : Bool :=
  match text.toList with
  | [] => false
  | c :: rest => startsIdentifier c && rest.all continuesIdentifier

/-- A key of an object, in quotes unless it is an identifier. -/
def key (name : String) : String := if isIdentifier name then name else literal name

def propertyKey (o : Options) (name : String) : String :=
  key (if o.camelCase then Text.camelCase name else name)

/-- The type of several texts. -/
def unionOf (values : List String) : String :=
  if values.isEmpty then "never" else " | ".intercalate (values.map literal)

/-- The whole numbers below this are written as integers. -/
def wholeLimit : Int := 1000000000000000

def numberLiteral (x : Binary64) : String :=
  if x.isWhole && x.toInt.natAbs < wholeLimit.natAbs then toString x.toInt else x.plainText

/-- An expression and the definitions that it names. -/
structure Expr where
  text : String
  imports : List String
  deriving DecidableEq, Repr

namespace Expr

/-- An expression that names no definition. -/
def plain (text : String) : Expr := ⟨text, []⟩

def name (name : String) : Expr := ⟨name, [name]⟩

def mapText (e : Expr) (f : String → String) : Expr := { e with text := f e.text }

def join (separator : String) (es : List Expr) : Expr :=
  ⟨separator.intercalate (es.map (·.text)), es.flatMap (·.imports)⟩

/-- An expression made of two others. -/
def pair (f : String → String → String) (a b : Expr) : Expr :=
  ⟨f a.text b.text, a.imports ++ b.imports⟩

end Expr

/-- A property of an object as generated code declares it. -/
structure Property where
  key : String
  codec : Expr
  required : Bool
  deriving DecidableEq, Repr

/-- A combinator applied to codecs; one codec needs none, and no codec leaves everything open. -/
def combine (combinator : String) : List Expr → Expr
  | [] => .plain "t.unknown"
  | [e] => e
  | es => (Expr.join ", " es).mapText fun text => combinator ++ "([" ++ text ++ "])"

def combinator : CompositionKind → String
  | .oneOf => "t.union"
  | .allOf => "t.intersection"

/-- A codec with further checks of the value `var`. -/
def refine (base : Expr) (var : String) (checks : List String) : Expr :=
  if checks.isEmpty then base
  else
    base.mapText fun text =>
      "t.refinement(" ++ text ++ ", (" ++ var ++ ") => " ++ " && ".intercalate checks ++ ")"

def lengthChecks (var : String) (least most : Option Nat) : List String :=
  (least.toList.map fun n => var ++ ".length >= " ++ toString n) ++
    most.toList.map fun n => var ++ ".length <= " ++ toString n

def stringChecks (c : Constraints) (var : String) : List String :=
  (c.pattern.toList.map fun pattern =>
    "new RegExp(" ++ literal pattern ++ ").test(" ++ var ++ ")") ++
      lengthChecks var c.minLength c.maxLength

def numberChecks (c : Constraints) (var : String) : List String :=
  (c.minimum.toList.map fun x =>
    var ++ (if c.exclusiveMinimum then " > " else " >= ") ++ numberLiteral x) ++
      c.maximum.toList.map fun x =>
        var ++ (if c.exclusiveMaximum then " < " else " <= ") ++ numberLiteral x

def literalCodec (value : Json) : Expr :=
  if value.isNull then .plain "t.null" else .plain ("t.literal(" ++ value.compact ++ ")")

def enumerationCodec (e : Enumeration) : Expr :=
  let texts := e.values.all Json.isString
  if texts && !e.extensible then
    let keys := e.values.map fun value => value.compact ++ ": null"
    .plain ("t.keyof(\x7b " ++ ", ".intercalate keys ++ " \x7d)")
  else
    let rest :=
      if e.extensible then [Expr.plain (if texts then "t.string" else "t.unknown")] else []
    combine "t.union" (e.values.map literalCodec ++ rest)

def block (combinator : String) (properties : List Property) : List Expr :=
  if properties.isEmpty then []
  else
    let fields := properties.map fun p => p.codec.mapText fun codec => p.key ++ ": " ++ codec
    [(Expr.join ", " fields).mapText fun text => combinator ++ "(\x7b " ++ text ++ " \x7d)"]

/-- The codec of an object: its properties, or else the codec of all its values. -/
def objectCodec (o : Options) (properties : List Property) (values : Option Expr) : Expr :=
  if properties.isEmpty then
    match values with
    | some values => values.mapText fun text => "t.record(t.string, " ++ text ++ ")"
    | none => .plain "t.UnknownRecord"
  else
    let shape :=
      combine "t.intersection"
        (block "t.interface" (properties.filter (·.required)) ++
          block "t.partial" (properties.filter fun p => !p.required))
    if o.strictInterfaces then shape.mapText fun text => "t.exact(" ++ text ++ ")" else shape

/-- Whether an untyped definition is an object all the same. -/
def looksLikeObject (properties : List (String × Node)) (additional : Option Additional) : Bool :=
  !properties.isEmpty || additional.isSome

def typeCodec (type : Option DataType) (c : Constraints) (isObject : Bool) (item : Option Expr)
    (object : Expr) : Expr :=
  match type with
  | some .string => refine (.plain "t.string") "s" (stringChecks c "s")
  | some .integer => refine (.plain "t.Integer") "n" (numberChecks c "n")
  | some .number => refine (.plain "t.number") "n" (numberChecks c "n")
  | some .boolean => .plain "t.boolean"
  | some .null => .plain "t.null"
  | some .file => .plain "t.unknown"
  | some .array =>
      let item := item.getD (.plain "t.unknown")
      refine (item.mapText fun text => "t.array(" ++ text ++ ")") "a"
        (lengthChecks "a" c.minItems c.maxItems)
  | some .object => object
  | none => if isObject then object else .plain "t.unknown"

/-- Lets null in, unless only null is in already. -/
def orNullCodec (nullable : Bool) (type : Option DataType) (e : Expr) : Expr :=
  if nullable && type != some .null then
    e.mapText fun text => "t.union([" ++ text ++ ", t.null])"
  else e

section

variable (o : Options)

mutual

def nodeCodec : Node → Expr
  | .ref name => .name name
  | .inline d => definitionCodec d

/-- The codec of a definition. A composition counts before an enumeration, and an enumeration before
the type. -/
def definitionCodec : Definition → Expr
  | { type, nullable, properties, required, items, additional, enumeration, composition,
      constraints, .. } =>
      let object := objectCodec o (propertyCodecs required properties) (valuesCodec additional)
      let base :=
        match compositionCodec composition with
        | some composed =>
            if properties.isEmpty then composed
            else
              .pair (fun a b => "t.intersection([" ++ a ++ ", " ++ b ++ "])") composed object
        | none =>
            match enumeration with
            | some e => enumerationCodec e
            | none =>
                typeCodec type constraints (looksLikeObject properties additional)
                  (itemCodec items) object
      orNullCodec nullable type base

/-- The properties of a definition with their codecs, in declaration order. -/
def propertyCodecs (required : List String) : List (String × Node) → List Property
  | [] => []
  | (name, node) :: rest =>
      { key := propertyKey o name, codec := nodeCodec node, required := required.contains name } ::
        propertyCodecs required rest

def itemCodec : Option Node → Option Expr
  | none => none
  | some node => some (nodeCodec node)

def valuesCodec : Option Additional → Option Expr
  | none => none
  | some (.flag _) => none
  | some (.node values) => some (nodeCodec values)

def compositionCodec : Option Composition → Option Expr
  | none => none
  | some (.mk kind members) => some (combine (combinator kind) (memberCodecs members))

def memberCodecs : List Node → List Expr
  | [] => []
  | node :: rest => nodeCodec node :: memberCodecs rest

end

end

/-- A type in parentheses if it has several members. -/
def parenthesize (text : String) : String :=
  if Text.contains " | " text || Text.contains " & " text then "(" ++ text ++ ")" else text

def typeOperator : CompositionKind → String
  | .oneOf => " | "
  | .allOf => " & "

def enumerationType (e : Enumeration) : Expr :=
  let rest := if e.extensible then ["string"] else []
  .plain (" | ".intercalate (e.values.map Json.compact ++ rest))

/-- The static type of an object: its fields, or else the type of all its values. -/
def objectType (fields : List Expr) (values : Option Expr) : Expr :=
  if fields.isEmpty then
    match values with
    | some values => values.mapText fun text => "Record<string, " ++ text ++ ">"
    | none => .plain "Record<string, unknown>"
  else (Expr.join "; " fields).mapText fun text => "\x7b " ++ text ++ " \x7d"

def typeType (type : Option DataType) (isObject : Bool) (item : Option Expr) (object : Expr) :
    Expr :=
  match type with
  | some .string => .plain "string"
  | some .integer => .plain "number"
  | some .number => .plain "number"
  | some .boolean => .plain "boolean"
  | some .null => .plain "null"
  | some .file => .plain "unknown"
  | some .array => (item.getD (.plain "unknown")).mapText fun text => "Array<" ++ text ++ ">"
  | some .object => object
  | none => if isObject then object else .plain "unknown"

/-- Lets null in, unless only null is in already. -/
def orNullType (nullable : Bool) (type : Option DataType) (e : Expr) : Expr :=
  if nullable && type != some .null then e.mapText (· ++ " | null") else e

section

variable (o : Options)

mutual

def nodeType : Node → Expr
  | .ref name => .name name
  | .inline d => definitionType d

/-- The static type of a definition, in the same order of precedence as its codec. -/
def definitionType : Definition → Expr
  | { type, nullable, properties, required, items, additional, enumeration, composition, .. } =>
      let object := objectType (fieldTypes required properties) (valuesType additional)
      let base :=
        match compositionType composition with
        | some composed =>
            if properties.isEmpty then composed
            else .pair (fun a b => "(" ++ a ++ ") & " ++ b) composed object
        | none =>
            match enumeration with
            | some e => enumerationType e
            | none =>
                typeType type (looksLikeObject properties additional) (itemType items) object
      orNullType nullable type base

def fieldTypes (required : List String) : List (String × Node) → List Expr
  | [] => []
  | (name, node) :: rest =>
      let marker := if required.contains name then ": " else "?: "
      (nodeType node).mapText (fun text => propertyKey o name ++ marker ++ text) ::
        fieldTypes required rest

def itemType : Option Node → Option Expr
  | none => none
  | some node => some (nodeType node)

def valuesType : Option Additional → Option Expr
  | none => none
  | some (.flag _) => none
  | some (.node values) => some (nodeType values)

def compositionType : Option Composition → Option Expr
  | none => none
  | some (.mk kind members) => some (Expr.join (typeOperator kind) (memberTypes members))

def memberTypes : List Node → List Expr
  | [] => []
  | node :: rest => (nodeType node).mapText parenthesize :: memberTypes rest

end

end

def parameterType (o : Options) : TypeRef → Expr
  | .named name => .name name
  | .inline d => definitionType o d
  | .file => .plain "File"
  | .binary => .plain "Blob"

/-- Whether a property's codec is declared under a name of its own. -/
def isHoisted : Node → Bool
  | .ref _ => false
  | .inline d => d.enumeration.isSome && d.composition.isNone

/-- The properties of a definition, in declaration order. The enumerations among them are declared
under names that start with the owner's. -/
def hoistedProperties (o : Options) (owner : String) (required : List String) (ctx : Context) :
    List (String × Node) → List Property × Context
  | [] => ([], ctx)
  | (name, node) :: rest =>
      let e := nodeCodec o node
      let ctx := ctx.importAll e.imports
      let key := propertyKey o name
      let needed := required.contains name
      if isHoisted node then
        let wanted := owner ++ Text.pascalCase name
        let codec := Expr.plain (ctx.aliasName wanted e.text)
        let (properties, ctx) :=
          hoistedProperties o owner required (ctx.declare wanted e.text) rest
        ({ key, codec, required := needed } :: properties, ctx)
      else
        let (properties, ctx) := hoistedProperties o owner required ctx rest
        ({ key, codec := e, required := needed } :: properties, ctx)

/-- The properties of a definition, in declaration order, with what they need of their module. -/
def propertiesOf (o : Options) (owner : Option String) (ctx : Context) (d : Definition) :
    List Property × Context :=
  match owner with
  | some owner => hoistedProperties o owner d.required ctx d.properties
  | none =>
      let properties := propertyCodecs o d.required d.properties
      (properties, ctx.importAll (properties.flatMap (·.codec.imports)))

end ApiCodec.Emit

import ApiCodec.Decoder.Plan

set_option autoImplicit false

namespace ApiCodec

namespace Constraints

/-- Whether a number lies in the numeric range. -/
def hasNumber (c : Constraints) (x : Binary64) : Bool :=
  let above :=
    match c.minimum with
    | some minimum => if c.exclusiveMinimum then minimum.lt x else minimum.le x
    | none => true
  let below :=
    match c.maximum with
    | some maximum => if c.exclusiveMaximum then x.lt maximum else x.le maximum
    | none => true
  above && below

end Constraints

/-- Whether a count lies between two limits. -/
def withinCounts (least most : Option Nat) (count : Nat) : Bool :=
  least.all (· ≤ count) && most.all (count ≤ ·)

namespace Number

def isWhole : Number → Bool
  | .int _ => true
  | .float x => x.isWhole

end Number

namespace Definition

variable (node : Node → Json → Bool)

def fitsField (d : Definition) (field : String × Json) : Bool :=
  match Assoc.get? field.1 d.properties with
  | some property => node property field.2
  | none =>
      match d.additional with
      | some (.node values) => node values field.2
      | some (.flag allowed) => allowed
      | none => true

/-- Whether a value is an object with the required properties, all of them as declared. -/
def fitsObject (d : Definition) : Json → Bool
  | .obj fields =>
      d.required.all (fun name => Assoc.has name fields) && fields.all (d.fitsField node)
  | _ => false

/-- Whether a value is an array of a permitted length, all of its items as declared. -/
def fitsArray (d : Definition) : Json → Bool
  | .arr items =>
      withinCounts d.constraints.minItems d.constraints.maxItems items.length &&
        match d.items with
        | some item => items.all (node item)
        | none => true
  | _ => false

/-- Whether a value is a number in the declared range. -/
def fitsNumber (d : Definition) (test : Number → Bool) : Json → Bool
  | .num n => test n && n.toBinary64?.any d.constraints.hasNumber
  | _ => false

/-- Whether a value is a text of a permitted length. -/
def fitsString (d : Definition) : Json → Bool
  | .str s => withinCounts d.constraints.minLength d.constraints.maxLength s.length
  | _ => false

/-- Whether a value has the shape that the type and its keywords ask for. -/
def fitsShape (d : Definition) (value : Json) : Bool :=
  match d.type with
  | some .string => d.fitsString value
  | some .integer => d.fitsNumber Number.isWhole value
  | some .number => d.fitsNumber (fun _ => true) value
  | some .boolean =>
      match value with
      | .bool _ => true
      | _ => false
  | some .null => value.isNull
  | some .file => value.isString
  | some .array => d.fitsArray node value
  | some .object => d.fitsObject node value
  | none =>
      if !d.properties.isEmpty || d.additional.isSome then d.fitsObject node value else true

def fitsComposition (d : Definition) (value : Json) : Bool :=
  match d.composition with
  | some (.mk .oneOf members) => members.any (node · value)
  | some (.mk .allOf members) => members.all (node · value)
  | none => true

/-- Whether a value is among those that a closed enumeration lists. -/
def fitsEnumeration (d : Definition) (value : Json) : Bool :=
  match d.enumeration with
  | some e => e.extensible || e.values.any (·.eqv value)
  | none => true

/-- Whether a value is as a definition says, given a test for the nodes in it. -/
def fits (d : Definition) (value : Json) : Bool :=
  (value.isNull && d.nullable) ||
    (d.fitsEnumeration value && d.fitsComposition node value && d.fitsShape node value)

end Definition

/-- Whether a value is as a node says, given a test for definitions. A name that is no definition
stands for no value. -/
def Node.fits (definitions : Definitions) (test : Definition → Json → Bool) (value : Json) :
    Node → Bool
  | .ref name =>
      match Assoc.get? name definitions with
      | some d => test d value
      | none => false
  | .inline d => test d value

/-- Whether a value is as a definition says, looking at definitions inside each other down to a
depth. -/
def conforms (definitions : Definitions) : Nat → Definition → Json → Bool
  | 0, _, _ => false
  | depth + 1, d, value =>
      d.fits (fun node part => node.fits definitions (conforms definitions depth) part) value

/-- How deep a decoder looks at definitions inside each other. -/
def depthLimit : Nat := 64

def Json.isByte : Json → Bool
  | .num (.int n) => 0 ≤ n && n ≤ 255
  | _ => false

namespace Strategy

/-- Whether a strategy takes a body; a body that is not there is null. -/
def accepts (definitions : Definitions) (value : Json) : Strategy → Bool
  | .constant => value.isNull
  | .binary =>
      match value with
      | .str _ => true
      | .arr items => items.all Json.isByte
      | _ => false
  | .exact type => (Node.ref type).fits definitions (conforms definitions depthLimit) value
  | .errorEnvelope type =>
      (Node.ref type).fits definitions (conforms definitions depthLimit) value

end Strategy

structure Decoded where
  status : Nat
  value : Json
  headers : List String

/-- Decodes a response by the first entry of its status that takes its body. -/
def DecoderPlan.decode (plan : DecoderPlan) (definitions : Definitions) (status : Nat)
    (value : Json) : Except DecodeError Decoded :=
  match plan.entries.find? fun e => e.status == status && e.strategy.accepts definitions value with
  | some e => .ok { status, value, headers := e.headers }
  | none => .error (.noMatch status)

end ApiCodec

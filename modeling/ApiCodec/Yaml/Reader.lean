import ApiCodec.Json.Basic
import ApiCodec.Yaml.Node

set_option autoImplicit false

namespace ApiCodec.Yaml

/-- What a plain scalar stands for. -/
inductive Plain
  | null
  | bool (b : Bool)
  | int (n : Int)
  /-- An integer that needs more than 64 bits. -/
  | wide
  | float (x : Binary64)
  /-- Infinite, or not a number. -/
  | notFinite
  | text

def isNullWord (text : String) : Bool := ["null", "Null", "NULL", "~"].contains text

def boolWord? (text : String) : Option Bool :=
  if ["true", "True", "TRUE"].contains text then some true
  else if ["false", "False", "FALSE"].contains text then some false
  else none

/-- The value of digits in a base; at least one, and no other character. -/
def digits? (base : Nat) (chars : List Char) : Option Nat :=
  if chars.isEmpty then none
  else
    chars.foldlM
      (fun n c => (hexDigit? c).bind fun d => if d < base then some (base * n + d) else none) 0

def isSign (c : Char) : Bool := c == '+' || c == '-'

/-- Whether digits after a leading zero make a scalar a text. -/
def hasLeadingZero (chars : List Char) : Bool :=
  let chars := match chars with
    | c :: rest => if isSign c then rest else chars
    | [] => []
  match chars with
  | '0' :: c :: rest => (c :: rest).all Char.isDigit
  | _ => false

def based? (chars : List Char) : Option Nat :=
  match chars with
  | '0' :: 'x' :: rest => digits? 16 rest
  | '0' :: 'o' :: rest => digits? 8 rest
  | '0' :: 'b' :: rest => digits? 2 rest
  | _ => none

/-- The integer that a scalar spells, in base ten or with the sign of a base. -/
def int? (chars : List Char) : Option Int :=
  let (negative, digits) :=
    match chars with
    | '+' :: rest => (false, rest)
    | '-' :: rest => (true, rest)
    | _ => (false, chars)
  let magnitude :=
    match based? digits with
    | some n => some n
    | none => if hasLeadingZero chars then none else digits? 10 digits
  magnitude.map fun (n : Nat) => if negative then -(n : Int) else n

/-- Digits, a point among them, and an exponent after them. -/
def decimalParts? (chars : List Char) : Option (List Char × Int) :=
  let whole := chars.takeWhile Char.isDigit
  let rest := chars.dropWhile Char.isDigit
  let (fraction, rest) :=
    match rest with
    | '.' :: rest => (rest.takeWhile Char.isDigit, rest.dropWhile Char.isDigit)
    | _ => ([], rest)
  if whole.isEmpty && fraction.isEmpty then none
  else
    let exponent? : Option Int :=
      match rest with
      | [] => some 0
      | c :: rest =>
          if c = 'e' || c = 'E' then
            match rest with
            | '+' :: digits => (digits? 10 digits).map fun (n : Nat) => (n : Int)
            | '-' :: digits => (digits? 10 digits).map fun (n : Nat) => -(n : Int)
            | digits => (digits? 10 digits).map fun (n : Nat) => (n : Int)
          else none
    exponent?.map fun exponent => (whole ++ fraction, exponent - fraction.length)

/-- The binary64 number nearest to a decimal, `none` beyond the range. Decimals that are far out of
the range on either side are told by the place of their first digit. -/
def nearest? (negative : Bool) (digits : List Char) (exponent : Int) : Option Binary64 :=
  let significant := digits.dropWhile (· == '0')
  let place := exponent + significant.length
  if significant.isEmpty || place < -400 then some ⟨negative, 0⟩
  else if 400 < place then none
  else
    Binary64.ofDecimal? negative (significant.foldl (fun n c => 10 * n + (c.toNat - 48)) 0) exponent

/-- The finite number that a scalar spells with point or exponent, or as an integer. -/
def finite? (chars : List Char) : Option Binary64 :=
  let (negative, unsigned) :=
    match chars with
    | '+' :: rest => (false, rest)
    | '-' :: rest => (true, rest)
    | _ => (false, chars)
  (decimalParts? unsigned).bind fun (digits, exponent) => nearest? negative digits exponent

def notFiniteWords : List String :=
  [".inf", ".Inf", ".INF", "+.inf", "+.Inf", "+.INF", "-.inf", "-.Inf", "-.INF", ".nan", ".NaN",
   ".NAN"]

/-- The number that a scalar spells as a float. -/
def float? (text : String) : Option Plain :=
  if notFiniteWords.contains text then some .notFinite
  else (finite? text.toList).map .float

/-- Whether an integer fits some bits, as a natural number or in two's complement. -/
def fitsBits (bits : Nat) : Int → Bool
  | .ofNat n => n < Nat.pow 2 bits
  | .negSucc n => n < Nat.pow 2 (bits - 1)

/-- The integer that a scalar spells, told by how many bits it needs; `none` beyond 128. -/
def integer? (text : String) : Option Plain :=
  match int? text.toList with
  | some n =>
      if fitsBits 64 n then some (.int n)
      else if fitsBits 128 n then some .wide
      else none
  | none => none

/-- What a plain scalar stands for. -/
def Plain.of (text : String) : Plain :=
  if text.isEmpty || isNullWord text then .null
  else
    match boolWord? text with
    | some b => .bool b
    | none =>
        match integer? text with
        | some n => n
        | none =>
            if hasLeadingZero text.toList then .text
            else (float? text).getD .text

/-- The start of the tags of YAML's own types. -/
def coreTag (name : String) : String := "tag:yaml.org,2002:" ++ name

/-- Whether a tag is of the document's own making. -/
def isLocalTag : Option String → Bool
  | some tag => tag.toList.head? == some '!'
  | none => false

/-- The JSON value of what a plain scalar stands for. -/
def Plain.toJson? (text : String) : Plain → Option Json
  | .null => some .null
  | .bool b => some (.bool b)
  | .int n => some (.num (.int n))
  | .wide => none
  | .float x => some (.num (.float x))
  | .notFinite => some .null
  | .text => some (.str text)

/-- The JSON value of a scalar; one tagged with another type than it spells has none. -/
def scalarJson? (text : String) (style : ScalarStyle) (tag : Option String) : Option Json :=
  match tag with
  | none => if style = .plain then (Plain.of text).toJson? text else some (.str text)
  | some name =>
      if isLocalTag tag then none
      else if name = coreTag "bool" then (boolWord? text).map .bool
      else if name = coreTag "int" then (integer? text).bind (·.toJson? text)
      else if name = coreTag "float" then (float? text).bind (·.toJson? text)
      else if name = coreTag "null" then if isNullWord text then some .null else none
      else some (.str text)

mutual

/-- The JSON value of a node without aliases. -/
def Node.toJson? : Node → Option Json
  | .scalar text style tag => scalarJson? text style tag
  | .sequence tag items => if isLocalTag tag then none else (itemsJson? items).map .arr
  | .mapping tag entries =>
      if isLocalTag tag then none
      else (entriesJson? entries).map fun fields => .obj (Assoc.ofList fields)
  | .linked _ => none

def itemsJson? : List Node → Option (List Json)
  | [] => some []
  | item :: rest => do
      let value ← item.toJson?
      let values ← itemsJson? rest
      some (value :: values)

def entriesJson? : List (Node × Node) → Option (List (String × Json))
  | [] => some []
  | (.scalar key _ _, value) :: rest => do
      let value ← value.toJson?
      let fields ← entriesJson? rest
      some ((key, value) :: fields)
  | _ :: _ => none

end

/-- The JSON value of a YAML text; a text without a document is null. -/
def read? (text : String) : Option Json := do
  match ← Node.read? text with
  | some node => node.toJson?
  | none => some .null

end ApiCodec.Yaml

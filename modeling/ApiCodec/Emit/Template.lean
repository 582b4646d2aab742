import ApiCodec.Json.Printer
import ApiCodec.Text.NameSet
import ApiCodec.Text.Letters
import ApiCodec.Text.Segments

set_option autoImplicit false

namespace ApiCodec.Emit

/-- A name, and the fields that lead on from it. -/
structure Place where
  name : String
  fields : List String
  deriving DecidableEq, Repr

/-- What a part of a template depends on. -/
inductive Test
  | holds (place : Place)
  | either (first second : Place)
  | equals (place : Place) (text : String)
  deriving DecidableEq, Repr

/-- A part of a template. -/
inductive Piece
  | text (text : String)
  | value (place : Place)
  /-- A value inside a block comment. -/
  | comment (place : Place)
  /-- A part for each item of a list, under a name. -/
  | each (name : String) (items : Place) (body : List Piece)
  | choose (test : Test) (yes no : List Piece)

/-- A text inside a block comment: it does not end the comment, and each of its lines is led by a
star. -/
def commentText (text : String) : String :=
  Text.replace "\n" "\n * " (Text.replace "*/" "*\\/" text)

/-- Values by name, the nearest first. -/
abbrev Scope := List (String × Json)

def fieldOf (value : Option Json) (name : String) : Option Json := value.bind (·.field? name)

def Place.find? (place : Place) (scope : Scope) : Option Json :=
  place.fields.foldl fieldOf (Assoc.get? place.name scope)

/-- Whether a value counts as true. -/
def isTrue : Option Json → Bool
  | none => false
  | some .null => false
  | some (.bool b) => b
  | some (.num (.int n)) => n != 0
  | some (.num (.float x)) => x.units != 0
  | some (.str s) => s != ""
  | some (.arr items) => !items.isEmpty
  | some (.obj fields) => !fields.isEmpty

def isText (value : Option Json) (text : String) : Bool :=
  match value with
  | some (.str s) => s == text
  | _ => false

def Test.eval (scope : Scope) : Test → Bool
  | .holds place => isTrue (place.find? scope)
  | .either first second => isTrue (first.find? scope) || isTrue (second.find? scope)
  | .equals place text => isText (place.find? scope) text

/-- A number inside a list or map that is written as it is. -/
def nestedFloat (x : Binary64) : String :=
  let d := Decimal.shortest x.units
  let e := d.scientificExponent
  if x.units = 0 ∨ (-4 ≤ e ∧ e < 16) then x.pointedText
  else
    String.ofList (x.signChars ++ d.scientific ++ 'e' :: (if e < 0 then ['-'] else []) ++
      Decimal.digitChars e.natAbs)

mutual

/-- A value inside a list or map. -/
def nestedText : Json → String
  | .null => "none"
  | .bool true => "true"
  | .bool false => "false"
  | .num (.int n) => toString n
  | .num (.float x) => nestedFloat x
  | .str s => Text.quoted s
  | .arr items => "[" ++ ", ".intercalate (nestedItems items) ++ "]"
  | .obj fields =>
      let texts := nestedFields fields
      "\x7b" ++ ", ".intercalate (NameSet.ofList (texts.map Prod.fst) |>.filterMap fun name =>
        texts.lookup name) ++ "\x7d"

def nestedItems : List Json → List String
  | [] => []
  | item :: rest => nestedText item :: nestedItems rest

/-- The fields of a map with their texts, by name. -/
def nestedFields : List (String × Json) → List (String × String)
  | [] => []
  | (name, value) :: rest =>
      (name, Text.quoted name ++ ": " ++ nestedText value) :: nestedFields rest

end

def valueText : Option Json → String
  | none => ""
  | some (.str s) => s
  | some (.num (.float x)) => x.pointedText
  | some value => nestedText value

/-- The items of a value: those of a list, the characters of a text, the names of a map. A value
that is not there has none; a flag or a number is no list. -/
def itemsOf : Option Json → Option (List Json)
  | none => some []
  | some .null => some []
  | some (.arr items) => some items
  | some (.str s) => some (s.toList.map fun c => .str (String.ofList [c]))
  | some (.obj fields) => some ((NameSet.ofList (Assoc.keys fields)).map .str)
  | some (.bool _) => none
  | some (.num _) => none

/-- All texts together, if there is a text for each item. -/
def concatAll (render : Json → Option String) : List Json → Option String
  | [] => some ""
  | item :: rest => do
      let first ← render item
      return first ++ (← concatAll render rest)

mutual

/-- The text of a part, unless a value is no list where one is needed. -/
def Piece.render (scope : Scope) : Piece → Option String
  | .text text => some text
  | .value place => some (valueText (place.find? scope))
  | .comment place => some (commentText (valueText (place.find? scope)))
  | .each name items body =>
      match itemsOf (items.find? scope) with
      | some items => concatAll (fun item => renderAll ((name, item) :: scope) body) items
      | none => none
  | .choose test yes no => if test.eval scope then renderAll scope yes else renderAll scope no

/-- The text of a template. -/
def renderAll (scope : Scope) : List Piece → Option String
  | [] => some ""
  | piece :: rest => do
      let first ← piece.render scope
      return first ++ (← renderAll scope rest)

end

end ApiCodec.Emit

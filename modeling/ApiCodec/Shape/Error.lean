import ApiCodec.Json.Basic
import ApiCodec.Number.Decimal
import ApiCodec.Text.Letters

set_option autoImplicit false

namespace ApiCodec

inductive ShapeError
  /-- A value of another kind than the one expected. -/
  | invalidType (found : Json) (expected : String)
  /-- An object where only one with a single field will do. -/
  | notSingleField
  /-- An array of the wrong length in place of a record. -/
  | invalidLength (length : Nat) (expected : String)
  /-- A text that names none of the choices. -/
  | unknownVariant (name : String) (choices : List String)
  /-- A record without a field that it needs. -/
  | missingField (name : String)
  /-- A value that fits no member of a union. -/
  | noVariant (union : String)

namespace ShapeError

/-- A value as messages about its kind show it. -/
def describe : Json → String
  | .null => "null"
  | .bool true => "boolean `true`"
  | .bool false => "boolean `false`"
  | .num (.int n) => "integer `" ++ toString n ++ "`"
  | .num (.float x) => "floating point `" ++ x.pointedText ++ "`"
  | .str s => "string " ++ Text.quoted s
  | .arr _ => "sequence"
  | .obj _ => "map"

def offer (choices : List String) : String :=
  let shown := choices.map fun choice => "`" ++ choice ++ "`"
  match shown with
  | [] => "there are no variants"
  | [one] => "expected " ++ one
  | [one, other] => "expected " ++ one ++ " or " ++ other
  | _ => "expected one of " ++ ", ".intercalate shown

def message : ShapeError → String
  | .invalidType found expected => "invalid type: " ++ describe found ++ ", expected " ++ expected
  | .notSingleField => "invalid value: map, expected map with a single key"
  | .invalidLength length expected =>
      "invalid length " ++ toString length ++ ", expected " ++ expected
  | .unknownVariant name choices => "unknown variant `" ++ name ++ "`, " ++ offer choices
  | .missingField name => "missing field `" ++ name ++ "`"
  | .noVariant union => "data did not match any variant of untagged enum " ++ union

end ShapeError

end ApiCodec

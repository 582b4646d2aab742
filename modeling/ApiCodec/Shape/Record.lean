import ApiCodec.Shape.Error

set_option autoImplicit false

/-!
Reading typed values from JSON. A record is read from an object, whose unknown fields are passed
over, or from an array of its fields in order; of several faults the one that stands first is
reported. Every reader of a part is handed a proof that the part is smaller than the whole, so that
readers may call each other.
-/

namespace ApiCodec.Shape

variable {α β : Type}

/-- The result of reading a value. -/
abbrev Result (α : Type) := Except ShapeError α

abbrev Part (whole : Json) := { value : Json // sizeOf value < sizeOf whole }

abbrev PartReader (whole : Json) (α : Type) :=
  (value : Json) → sizeOf value < sizeOf whole → Result α

/-- The items of an array, each with the proof that it is a part. -/
def itemParts (whole : Json) :
    (items : List Json) → (∀ item ∈ items, sizeOf item < sizeOf whole) → List (Part whole)
  | [], _ => []
  | item :: rest, h =>
      ⟨item, h item (by simp)⟩ :: itemParts whole rest fun part hp => h part (by simp [hp])

def fieldParts (whole : Json) :
    (fields : List (String × Json)) → (∀ field ∈ fields, sizeOf field.2 < sizeOf whole) →
      List (String × Part whole)
  | [], _ => []
  | (key, value) :: rest, h =>
      (key, ⟨value, h (key, value) (by simp)⟩) :: fieldParts whole rest fun field hf =>
        h field (by simp [hf])

theorem sizeOf_item_lt {items : List Json} {item : Json} (h : item ∈ items) :
    sizeOf item < sizeOf (Json.arr items) := by
  have := List.sizeOf_lt_of_mem h
  simp only [Json.arr.sizeOf_spec]
  omega

theorem sizeOf_field_lt {fields : List (String × Json)} {field : String × Json}
    (h : field ∈ fields) : sizeOf field.2 < sizeOf (Json.obj fields) := by
  have := List.sizeOf_lt_of_mem h
  obtain ⟨key, value⟩ := field
  simp only [Json.obj.sizeOf_spec, Prod.mk.sizeOf_spec] at *
  omega

/-- All results of a list of readings, or the first fault. -/
def collect : List (Result α) → Result (List α)
  | [] => .ok []
  | .error e :: _ => .error e
  | .ok a :: rest =>
      match collect rest with
      | .ok as => .ok (a :: as)
      | .error e => .error e

def listOf (value : Json) (read : PartReader value α) : Result (List α) :=
  match value with
  | .arr items =>
      collect ((itemParts _ items fun _ h => sizeOf_item_lt h).map fun part => read part.1 part.2)
  | other => .error (.invalidType other "a sequence")

def PartReader.list {whole : Json} (read : PartReader whole α) : PartReader whole (List α) :=
  fun v h => listOf v fun w hw => read w (Nat.lt_trans hw h)

def mapOf (value : Json) (read : PartReader value α) : Result (List (String × α)) :=
  match value with
  | .obj fields =>
      (collect ((fieldParts _ fields fun _ h => sizeOf_field_lt h).map fun (key, part) =>
        (read part.1 part.2).map fun a => (key, a))).map Assoc.ofList
  | other => .error (.invalidType other "a map")

/-- A text. -/
def string : Json → Result String
  | .str s => .ok s
  | other => .error (.invalidType other "a string")

def bool : Json → Result Bool
  | .bool b => .ok b
  | other => .error (.invalidType other "a boolean")

/-- A binary64 number, read from a number of either kind. -/
def float : Json → Result Binary64
  | .num n =>
      match n.toBinary64? with
      | some x => .ok x
      | none => .error (.invalidType (.num n) "f64")
  | other => .error (.invalidType other "f64")

/-- A number that counts things, read from an integer. -/
def count : Json → Result Nat
  | .num (.int (.ofNat n)) => .ok n
  | other => .error (.invalidType other "u64")

def any (value : Json) : Result Json := .ok value

def strings (value : Json) : Result (List String) := listOf value fun v _ => string v

/-- One of several named choices: its name, or an object whose only field has that name and the
value null. -/
def choice (choices : List (String × α)) (value : Json) : Result α :=
  let named (name : String) : Result α :=
    match Assoc.get? name choices with
    | some a => .ok a
    | none => .error (.unknownVariant name (Assoc.keys choices))
  match value with
  | .str name => named name
  | .obj [(name, .null)] => named name
  | .obj [(name, other)] =>
      match named name with
      | .ok _ => .error (.invalidType other "unit")
      | .error e => .error e
  | .obj _ => .error .notSingleField
  | other => .error (.invalidType other "string or map")

/-- The first reading that succeeds. -/
def union (name : String) (readings : List (Unit → Result α)) : Result α :=
  match readings with
  | [] => .error (.noVariant name)
  | reading :: rest =>
      match reading () with
      | .ok a => .ok a
      | .error _ => union name rest

/-- A fault and the place where it stands among the fields of a record. -/
structure Fault where
  place : Nat
  error : ShapeError

/-- Fields of a record read so far, or the fault that stands first. -/
structure Gather (α : Type) where
  run : Except Fault α

namespace Gather

def ok (a : α) : Gather α := ⟨.ok a⟩

def fail (place : Nat) (error : ShapeError) : Gather α := ⟨.error ⟨place, error⟩⟩

/-- Applies what was read to one more field. -/
def apply (f : Gather (α → β)) (a : Gather α) : Gather β :=
  match f.run, a.run with
  | .ok f, .ok a => ⟨.ok (f a)⟩
  | .error e, .ok _ => ⟨.error e⟩
  | .ok _, .error e => ⟨.error e⟩
  | .error e, .error e' => ⟨.error (if e'.place < e.place then e' else e)⟩

instance : Pure Gather := ⟨ok⟩

instance : Functor Gather where
  map f a := apply (ok f) a

instance : Seq Gather := ⟨fun f a => apply f (a ())⟩

end Gather

/-- The fields of a record to be read from a value. -/
structure Record (whole : Json) where
  title : String
  names : List String
  fields : List (String × Part whole)
  /-- The length of the array from which the record is read, if it is one. -/
  length : Option Nat

/-- A record's fields as an object has them, or an array in the order of `names`. -/
def record (title : String) (names : List String) (value : Json) :
    Result (Record value) :=
  match value with
  | .obj fields =>
      .ok
        { title, names
          fields := fieldParts _ fields fun _ h => sizeOf_field_lt h
          length := none }
  | .arr items =>
      .ok
        { title, names
          fields := names.zip (itemParts _ items fun _ h => sizeOf_item_lt h)
          length := some items.length }
  | other => .error (.invalidType other ("struct " ++ title))

/-- A record's fields as an object has them; no array will do. -/
def openRecord (title : String) (names : List String) (value : Json) :
    Result (Record value) :=
  match value with
  | .obj fields =>
      .ok
        { title, names
          fields := fieldParts _ fields fun _ h => sizeOf_field_lt h
          length := none }
  | other => .error (.invalidType other ("struct " ++ title))

namespace Record

variable {whole : Json}

/-- The place and value of a field. -/
def find? (r : Record whole) (name : String) : Option (Nat × Part whole) :=
  match r.fields.findIdx? (·.1 == name) with
  | some place => r.fields[place]?.map fun field => (place, field.2)
  | none => none

/-- What a record of this kind needs as an array. -/
def expected (r : Record whole) : String :=
  "struct " ++ r.title ++ " with " ++ toString r.names.length ++
    if r.names.length = 1 then " element" else " elements"

/-- An array that ends before a field. -/
def tooShort (r : Record whole) (name : String) : Gather α :=
  let index := r.names.idxOf name
  .fail (r.fields.length + index) (.invalidLength index r.expected)

def readAt (place : Nat) (part : Part whole) (read : PartReader whole α) : Gather α :=
  match read part.1 part.2 with
  | .ok a => .ok a
  | .error e => .fail place e

/-- A field that has to be there. -/
def required (r : Record whole) (name : String) (read : PartReader whole α) : Gather α :=
  match r.find? name with
  | some (place, part) => readAt place part read
  | none =>
      if r.length.isSome then r.tooShort name
      else .fail (r.fields.length + r.names.idxOf name) (.missingField name)

/-- A field that may be left out or null. -/
def optional (r : Record whole) (name : String) (read : PartReader whole α) : Gather (Option α) :=
  match r.find? name with
  | some (place, part) =>
      if part.1.isNull then .ok none else readAt place part fun v h => (read v h).map some
  | none => if r.length.isSome then r.tooShort name else .ok none

/-- A field that has a value of its own when it is left out. -/
def defaulted (r : Record whole) (name : String) (value : α) (read : PartReader whole α) : Gather α :=
  match r.find? name with
  | some (place, part) => readAt place part read
  | none => .ok value

def optionalString (r : Record whole) (name : String) : Gather (Option String) :=
  r.optional name fun v _ => string v

/-- A list that is empty when it is left out. -/
def list (r : Record whole) (name : String) (read : PartReader whole α) : Gather (List α) :=
  r.defaulted name [] read.list

/-- A map that is empty when it is left out. -/
def map (r : Record whole) (name : String) (read : PartReader whole α) : Gather (List (String × α)) :=
  r.defaulted name [] fun v h => mapOf v fun w hw => read w (Nat.lt_trans hw h)

def strings (r : Record whole) (name : String) : Gather (List String) :=
  r.list name fun v _ => string v

/-- The fields that the record does not declare. -/
def others (r : Record whole) : List (String × Json) :=
  (r.fields.filter fun field => !r.names.contains field.1).map fun (key, part) => (key, part.1)

/-- The whole record, unless a field is at fault or an array goes on after the last field. -/
def finish (r : Record whole) (fields : Gather α) : Result α :=
  match fields.run with
  | .error fault => .error fault.error
  | .ok a =>
      match r.length with
      | some length =>
          if r.names.length < length then .error (.invalidLength length "fewer elements in array")
          else .ok a
      | none => .ok a

end Record

/-- The target of a value that stands for a reference: an object with a text under `$ref`. -/
def reference? (value : Json) : Option String :=
  match value.field? "$ref" with
  | some (.str path) => some path
  | _ => none

abbrev WrittenFields := List (String × Json)

def always (name : String) (value : Json) : WrittenFields := [(name, value)]

def given (name : String) (write : α → Json) : Option α → WrittenFields
  | some a => [(name, write a)]
  | none => []

def items (name : String) (values : List Json) : WrittenFields :=
  if values.isEmpty then [] else [(name, .arr values)]

/-- A map that is written unless it is empty. -/
def entries (name : String) (fields : WrittenFields) : WrittenFields :=
  if fields.isEmpty then [] else [(name, .obj fields)]

def mapValues (write : α → Json) (map : List (String × α)) : WrittenFields :=
  map.map fun (key, a) => (key, write a)

def givenString (name : String) : Option String → WrittenFields := given name .str

def givenBool (name : String) : Option Bool → WrittenFields := given name .bool

def givenCount (name : String) : Option Nat → WrittenFields :=
  given name fun (n : Nat) => .num (.int n)

def givenFloat (name : String) : Option Binary64 → WrittenFields :=
  given name fun x => .num (.float x)

/-- A reference to another part. -/
def reference (path : String) : Json := .obj [("$ref", .str path)]

end ApiCodec.Shape

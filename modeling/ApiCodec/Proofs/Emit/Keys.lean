import ApiCodec.Proofs.Emit.Hoisting
import ApiCodec.Proofs.Reading.Written
import ApiCodec.Proofs.Text.Quoting

set_option autoImplicit false

namespace ApiCodec

namespace Text

/-- A character that the test refuses does not make another run at the end of a text. -/
theorem runsFrom_append_of_refused {test : Char → Bool} {c : Char} (refused : test c = false)
    (run text : List Char) : runsFrom test run (text ++ [c]) = runsFrom test run text := by
  induction text generalizing run with
  | nil => cases run <;> simp [runsFrom, refused]
  | cons d rest ih => simp only [List.cons_append, runsFrom, ih]

/-- Names in camelCase do without separators, so an underscore after a name is not seen in it. -/
theorem camelCase_append_underscore (name : String) : camelCase (name ++ "_") = camelCase name := by
  have refused : isAlphanumeric '_' = false := by decide
  have same : words (name ++ "_").toList = words name.toList := by
    rw [String.toList_append, words, words]
    exact congrArg _ (runsFrom_append_of_refused refused [] name.toList)
  rw [camelCase, camelCase, same]

end Text

namespace Emit

/-- Text in quotes is no identifier. -/
theorem isIdentifier_literal (name : String) : isIdentifier (literal name) = false := by
  simp [isIdentifier, literal, Json.quote, Json.quoteChars, startsIdentifier]

/-- Different names have different keys, whether or not they need quotes. -/
theorem key_injective : Function.Injective key := by
  intro name other same
  unfold key at same
  split at same <;> rename_i first <;> split at same <;> rename_i second
  · exact same
  · rw [same, isIdentifier_literal] at first
    cases first
  · rw [← same, isIdentifier_literal] at second
    cases second
  · exact Json.quote_injective same

/-- Whether names are told apart where all of them are spelled as the options say. -/
def SpelledApart (o : Options) (names : List String) : Prop :=
  o.camelCase → (names.map Text.camelCase).Nodup

theorem nodup_map_propertyKey_iff (o : Options) {names : List String} (distinct : names.Nodup) :
    (names.map (propertyKey o)).Nodup ↔ SpelledApart o names := by
  unfold SpelledApart
  cases spelled : o.camelCase with
  | false =>
      have keys : propertyKey o = key := funext fun name => by simp [propertyKey, spelled]
      simpa [keys, List.nodup_map_iff key_injective] using distinct
  | true =>
      have keys : propertyKey o = key ∘ Text.camelCase :=
        funext fun name => by simp [propertyKey, spelled]
      rw [keys, ← List.map_map, List.nodup_map_iff key_injective]
      simp

/-- Properties have the keys of their names, with and without an owner. -/
theorem forall₂_propertiesOf (o : Options) (owner : Option String) (ctx : Context) (d : Definition) :
    List.Forall₂
      (fun (p : Property) entry =>
        p.key = propertyKey o entry.1 ∧ p.required = d.required.contains entry.1)
      (propertiesOf o owner ctx d).1 d.properties := by
  cases owner with
  | none =>
      simp only [propertiesOf, propertyCodecs_eq_map, List.forall₂_map_left_iff]
      exact List.forall₂_same.mpr fun _ _ => ⟨rfl, rfl⟩
  | some owner =>
      have stands := stands_hoistedProperties o owner d.required ctx d.properties
      exact stands.flip.imp fun p entry stands => ⟨stands.key, stands.required⟩

theorem keys_propertiesOf (o : Options) (owner : Option String) (ctx : Context) (d : Definition) :
    (propertiesOf o owner ctx d).1.map (·.key) =
      (Assoc.keys d.properties).map (propertyKey o) := by
  rw [Assoc.keys, List.map_map, ← List.forall₂_eq_eq_eq, List.forall₂_map_left_iff,
    List.forall₂_map_right_iff]
  exact (forall₂_propertiesOf o owner ctx d).imp fun p entry same => same.1

def fieldType (o : Options) (p : Property) (node : Node) : Expr :=
  (nodeType o node).mapText fun text => p.key ++ (if p.required then ": " else "?: ") ++ text

theorem fieldTypes_eq_zipWith {o : Options} {required : List String}
    {entries : List (String × Node)} {properties : List Property}
    (each : List.Forall₂
      (fun (p : Property) (entry : String × Node) =>
        p.key = propertyKey o entry.1 ∧ p.required = required.contains entry.1)
      properties entries) :
    fieldTypes o required entries =
      List.zipWith (fun p entry => fieldType o p entry.2) properties entries := by
  induction each with
  | nil => rfl
  | @cons p entry _ _ same _ ih =>
      rw [fieldTypes, List.zipWith_cons_cons, ih, fieldType, same.1, same.2]

/-- The fields of an object literal, as they are written. -/
def fieldsOf (properties : List Property) : List (String × String) :=
  properties.map fun p => (p.key, p.codec.text)

/-- Whether an object literal has all fields that are written in it. A field whose key is written
again later has the later value only. -/
def Complete (properties : List Property) : Prop :=
  Assoc.ofList (fieldsOf properties) = fieldsOf properties

theorem complete_iff {properties : List Property} :
    Complete properties ↔ (properties.map (·.key)).Nodup := by
  have keys : Assoc.keys (fieldsOf properties) = properties.map (·.key) := by
    rw [Assoc.keys, fieldsOf, List.map_map]
    rfl
  rw [← keys]
  constructor
  · intro complete
    rw [← complete]
    exact Assoc.nodup_keys_ofList _
  · exact Assoc.ofList_of_nodup

theorem Complete.filter {properties : List Property} (complete : Complete properties)
    (test : Property → Bool) : Complete (properties.filter test) := by
  rw [complete_iff] at complete ⊢
  exact complete.sublist (List.filter_sublist.map _)

/-- The keys of a definition's properties are those of their names, in order. They are distinct
exactly if the names are told apart as they are spelled, which names as declared always are, while
in camelCase each name is spelled like another one; and exactly if the object literal has all its
fields, in which case the literals of the required and of the optional properties have all of
theirs. The static type of the object has a field of the same key for each property. -/
theorem properties_kept_iff (o : Options) (owner : Option String) (ctx : Context) (d : Definition)
    (distinct : (Assoc.keys d.properties).Nodup) :
    let properties := (propertiesOf o owner ctx d).1
    properties.map (·.key) = (Assoc.keys d.properties).map (propertyKey o) ∧
      ((properties.map (·.key)).Nodup ↔ SpelledApart o (Assoc.keys d.properties)) ∧
      (Complete properties ↔ (properties.map (·.key)).Nodup) ∧
      (Complete properties → Complete (properties.filter (·.required)) ∧
        Complete (properties.filter fun p => !p.required)) ∧
      fieldTypes o d.required d.properties =
        List.zipWith (fun p entry => fieldType o p entry.2) properties d.properties ∧
      (o.camelCase = true → ∀ name, ∃ other ≠ name, propertyKey o other = propertyKey o name) := by
  intro properties
  have keys := keys_propertiesOf o owner ctx d
  refine ⟨keys, ?_, complete_iff, fun complete => ⟨complete.filter _, complete.filter _⟩,
    fieldTypes_eq_zipWith (forall₂_propertiesOf o owner ctx d), ?_⟩
  · rw [keys]
    exact nodup_map_propertyKey_iff o distinct
  · intro spelled name
    refine ⟨name ++ "_", ?_, ?_⟩
    · intro same
      simpa using congrArg String.length same
    · simp only [propertyKey, spelled, if_true, Text.camelCase_append_underscore]

end Emit

open Emit

/-- An object with two properties of some names. -/
def Sample.pair (first second : String) : Definition :=
  { Definition.ofType .object with
    properties := [(first, .inline (.ofType .string)), (second, .inline (.ofType .integer))] }

def Sample.camel : Options := { camelCase := true }

/-- Names that are spelled apart in camelCase, one of which needs quotes. -/
theorem properties_kept_pair :
    (Assoc.keys (Sample.pair "nick-name" "2nd").properties).Nodup ∧
      (propertiesOf Sample.camel none .empty (Sample.pair "nick-name" "2nd")).1.map (·.key) =
        ["nickName", "\"2nd\""] ∧
      Complete (propertiesOf Sample.camel none .empty (Sample.pair "nick-name" "2nd")).1 := by
  have distinct : (Assoc.keys (Sample.pair "nick-name" "2nd").properties).Nodup := by decide
  have keys : (propertiesOf Sample.camel none .empty
      (Sample.pair "nick-name" "2nd")).1.map (·.key) = ["nickName", "\"2nd\""] := by
    decide +kernel
  obtain ⟨_, _, complete, _⟩ :=
    properties_kept_iff Sample.camel none .empty (Sample.pair "nick-name" "2nd") distinct
  refine ⟨distinct, keys, complete.mpr ?_⟩
  rw [keys]
  decide

/-- Two properties get one key in camelCase, in the codec and in the static type, and an object of the
codec has the second one only. -/
theorem property_lost :
    (Assoc.keys (Sample.pair "foo-bar" "foo_bar").properties).Nodup ∧
      (propertiesOf Sample.camel none .empty (Sample.pair "foo-bar" "foo_bar")).1.map (·.key) =
        ["fooBar", "fooBar"] ∧
      (definitionCodec Sample.camel (Sample.pair "foo-bar" "foo_bar")).text =
        "t.partial(\x7b fooBar: t.string, fooBar: t.Integer \x7d)" ∧
      (definitionType Sample.camel (Sample.pair "foo-bar" "foo_bar")).text =
        "\x7b fooBar?: string; fooBar?: number \x7d" ∧
      Assoc.ofList (fieldsOf (propertiesOf Sample.camel none .empty
        (Sample.pair "foo-bar" "foo_bar")).1) = [("fooBar", "t.Integer")] := by
  decide +kernel

end ApiCodec

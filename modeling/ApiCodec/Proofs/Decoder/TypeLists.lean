import ApiCodec.Decoder.Payload
import ApiCodec.Proofs.Flatten.Schema

set_option autoImplicit false

namespace ApiCodec

open Document

namespace Document.Schema

def withTypes (s : Schema) (types : Option TypeSet) : Schema := { s with types }

/-- Nothing of a schema but one type, and whether it is nullable. -/
def onlyType (s : Schema) (type : SchemaType) : Schema :=
  { empty with types := some (.one type), nullable := s.nullable }

/-- A schema that is not composed of others. -/
structure Uncomposed (s : Schema) : Prop where
  oneOf : s.oneOf = []
  anyOf : s.anyOf = []
  allOf : s.allOf = []

/-- The schema comes to a definition that the value conforms to. -/
def Takes (s : Schema) (follow : Pointer → Transform Notice Node) (base : Option String)
    (definitions : Definitions) (depth : Nat) (value : Json) : Prop :=
  ∃ t, normalizeSchema follow base s = .ok t ∧ conforms definitions depth t.value value

end Document.Schema

def valueTypes (types : List SchemaType) : List SchemaType := types.filter (· != .null)

/-- A definition under another keyword `type`. -/
def Definition.retyped (d : Definition) (nullable : Option Bool) (types : Option TypeSet) :
    Definition :=
  { d with
    type := (typesOf nullable types).1
    nullable := (typesOf nullable types).2.1
    composition := unionOf (typesOf nullable types).2.2 }

section

variable (follow : Pointer → Transform Notice Node) (base : Option String)

theorem normalizeMembers_of_uncomposed {s : Schema} (uncomposed : s.Uncomposed) :
    normalizeMembers follow base s = pure (unionOf (typesOf s.nullable s.types).2.2) := by
  rw [normalizeMembers, uncomposed.oneOf, uncomposed.anyOf, uncomposed.allOf]
  rfl

/-- The keyword `type` of a schema that is not composed is read last. -/
theorem normalizeSchema_withTypes {s : Schema} (uncomposed : s.Uncomposed)
    (types : Option TypeSet) :
    normalizeSchema follow base (s.withTypes types) =
      (·.retyped s.nullable types) <$> normalizeSchema follow base (s.withTypes none) := by
  have members (types : Option TypeSet) := normalizeMembers_of_uncomposed follow base
    (s := s.withTypes types) ⟨uncomposed.oneOf, uncomposed.anyOf, uncomposed.allOf⟩
  rw [normalizeSchema_eq, normalizeSchema_eq]
  simp only [members, map_bind, map_pure, pure_bind]
  rfl

theorem normalizeSchema_onlyType (s : Schema) (type : SchemaType) :
    normalizeSchema follow base (s.onlyType type) =
      pure (Definition.untyped.retyped s.nullable (some (.one type))) := rfl

end

theorem Json.isNull_iff {value : Json} : value.isNull ↔ value = .null := by
  cases value <;> simp [Json.isNull]

def DataType.holds (type : DataType) (value : Json) : Bool :=
  (Definition.ofType type).fitsShape (fun _ _ => true) value

/-- Whether a value is listed, and of the shape that the keywords of a definition ask for beside a
type. -/
def Definition.fitsAs (d : Definition) (type : Option DataType) (test : Node → Json → Bool)
    (value : Json) : Bool :=
  d.fitsEnumeration value && ({ d with type } : Definition).fitsShape test value

section

variable (d : Definition) (test : Node → Json → Bool) (value : Json)

theorem fitsShape_ofType (type : DataType) :
    (Definition.ofType type).fitsShape test value = type.holds value := by
  cases type <;> cases value <;> rfl

theorem fits_ofType (type : DataType) :
    (Definition.ofType type).fits test value = type.holds value := by
  rw [← fitsShape_ofType test value type, Definition.fits]
  simp [Definition.ofType, Definition.untyped, Definition.fitsEnumeration, Definition.fitsComposition]

theorem fitsAs_untyped (type : DataType) :
    Definition.untyped.fitsAs (some type) test value = type.holds value := by
  rw [← fitsShape_ofType test value type]
  exact Bool.true_and _

end

section

variable {d : Definition} {test : Node → Json → Bool} {value : Json}
variable {nullable : Option Bool} {types : Option TypeSet} {type : Option DataType} {orNull : Bool}

theorem eq_null_of_fitsAs_null (fits : d.fitsAs (some .null) test value) : value = .null := by
  rw [Definition.fitsAs, Bool.and_eq_true] at fits
  exact Json.isNull_iff.mp fits.2

/-- A definition with one type or none lets null in, or takes what fits its type. -/
theorem fits_retyped_iff (read : typesOf nullable types = (type, orNull, [])) :
    (d.retyped nullable types).fits test value ↔
      (value = .null ∧ orNull) ∨ d.fitsAs type test value := by
  have alone : (d.retyped nullable types).composition = none := by
    rw [Definition.retyped, read]
    rfl
  rw [Definition.fits, Definition.fitsComposition, alone, Bool.and_true, Bool.or_eq_true,
    Bool.and_eq_true, Json.isNull_iff, Definition.retyped, read]
  rfl

/-- A definition with a union of types lets null in, or takes what fits it without a type and is of
one of the types. -/
theorem fits_retyped_union_iff {variants : List DataType}
    (read : typesOf nullable types = (type, orNull, variants)) (several : variants ≠ []) :
    (d.retyped nullable types).fits test value ↔
      (value = .null ∧ orNull) ∨
        (d.fitsAs type test value ∧ ∃ type ∈ variants, test (.inline (.ofType type)) value) := by
  have union : (d.retyped nullable types).composition =
      some (.mk .oneOf (variants.map fun type => .inline (.ofType type))) := by
    rw [Definition.retyped, read, unionOf, if_neg (by simpa using several)]
  have composed : (d.retyped nullable types).fitsComposition test value =
      variants.any fun type => test (.inline (.ofType type)) value := by
    rw [Definition.fitsComposition, union]
    exact List.any_map
  rw [Definition.fits, composed, Bool.or_eq_true, Bool.and_eq_true, Bool.and_right_comm,
    Bool.and_eq_true, List.any_eq_true, Json.isNull_iff, Definition.retyped, read]
  rfl

end

section

variable {nullable : Option Bool} {types : List SchemaType}

theorem mem_valueTypes {type : SchemaType} :
    type ∈ valueTypes types ↔ type ∈ types ∧ type ≠ .null := by
  rw [valueTypes, List.mem_filter, bne_iff_ne]

theorem null_mem_of_valueTypes (given : types ≠ []) (none : valueTypes types = []) : .null ∈ types := by
  obtain ⟨type, member⟩ := List.exists_mem_of_ne_nil types given
  by_cases same : type = .null
  · exact same ▸ member
  · have other := mem_valueTypes.mpr ⟨member, same⟩
    rw [none] at other
    cases other

theorem orNull_iff {orNull : Bool} :
    (orNull || types.contains .null) = true ↔ orNull = true ∨ .null ∈ types := by
  rw [Bool.or_eq_true, List.contains_iff_mem]

theorem typesOf_list_null (none : valueTypes types = []) :
    typesOf nullable (some (.list types)) =
      (some .null, nullable.getD false || types.contains .null, []) := by
  rw [valueTypes] at none
  simp only [typesOf, none, List.map_nil]

theorem typesOf_list_one {type : SchemaType} (single : valueTypes types = [type]) :
    typesOf nullable (some (.list types)) =
      (some (SchemaType.dataType type), nullable.getD false || types.contains .null, []) := by
  rw [valueTypes] at single
  simp only [typesOf, single, List.map_cons, List.map_nil]

theorem typesOf_list_several (several : 1 < (valueTypes types).length) :
    typesOf nullable (some (.list types)) =
      (none, nullable.getD false || types.contains .null,
        (valueTypes types).map SchemaType.dataType) := by
  unfold valueTypes at several ⊢
  rcases found : types.filter (· != .null) with _ | ⟨first, _ | ⟨second, rest⟩⟩
  · simp [found] at several
  · simp [found] at several
  · simp only [typesOf, found, List.map_cons]

/-- To let in null where any type does, or the list names null, is to let it in for null itself, or
for one of the types. What holds as of the type null must be null. -/
theorem exists_type_iff (given : types ≠ []) (isNull orNull : Prop) (holds : SchemaType → Prop)
    (ofNull : holds .null → isNull) :
    (isNull ∧ .null ∈ types) ∨ (∃ type ∈ types, (isNull ∧ orNull) ∨ holds type) ↔
      (isNull ∧ (orNull ∨ .null ∈ types)) ∨ ∃ type ∈ valueTypes types, holds type := by
  constructor
  · rintro (⟨null, named⟩ | ⟨type, member, ⟨null, lets⟩ | held⟩)
    · exact Or.inl ⟨null, Or.inr named⟩
    · exact Or.inl ⟨null, Or.inl lets⟩
    · by_cases same : type = .null
      · subst same
        exact Or.inl ⟨ofNull held, Or.inr member⟩
      · exact Or.inr ⟨type, mem_valueTypes.mpr ⟨member, same⟩, held⟩
  · rintro (⟨null, lets | named⟩ | ⟨type, member, held⟩)
    · obtain ⟨type, member⟩ := List.exists_mem_of_ne_nil types given
      exact Or.inr ⟨type, member, Or.inl ⟨null, lets⟩⟩
    · exact Or.inl ⟨null, named⟩
    · exact Or.inr ⟨type, (mem_valueTypes.mp member).1, Or.inr held⟩

end

namespace Document.Schema

abbrev nodeTest (definitions : Definitions) (depth : Nat) (node : Node) (part : Json) : Bool :=
  node.fits definitions (conforms definitions depth) part

variable {follow : Pointer → Transform Notice Node} {base : Option String} {s : Schema}
variable {definitions : Definitions} {depth : Nat} {value : Json}

theorem takes_iff_of_ok {t : Traced Notice Definition}
    (success : normalizeSchema follow base s = .ok t) :
    s.Takes follow base definitions depth value ↔ conforms definitions depth t.value value := by
  constructor
  · rintro ⟨u, same, conforming⟩
    rw [success] at same
    cases same
    exact conforming
  · exact fun conforming => ⟨t, success, conforming⟩

theorem takes_onlyType_iff (type : SchemaType) :
    (s.onlyType type).Takes follow base definitions (depth + 1) value ↔
      (value = .null ∧ s.nullable.getD false) ∨ (SchemaType.dataType type).holds value := by
  have read : typesOf s.nullable (some (.one type)) =
    (some (SchemaType.dataType type), s.nullable.getD false, []) := rfl
  rw [takes_iff_of_ok (normalizeSchema_onlyType follow base s type),
    ← fitsAs_untyped (nodeTest definitions depth), ← fits_retyped_iff read]
  rfl

section

variable {plain : Traced Notice Definition} (uncomposed : s.Uncomposed)
variable (success : normalizeSchema follow base (s.withTypes none) = .ok plain)

include uncomposed success

theorem takes_withTypes_iff (types : Option TypeSet) :
    (s.withTypes types).Takes follow base definitions (depth + 1) value ↔
      (plain.value.retyped s.nullable types).fits (nodeTest definitions depth) value := by
  have read := normalizeSchema_withTypes follow base uncomposed types
  rw [success] at read
  exact takes_iff_of_ok read

theorem takes_one_iff (type : SchemaType) :
    (s.withTypes (some (.one type))).Takes follow base definitions (depth + 1) value ↔
      (value = .null ∧ s.nullable.getD false) ∨
        plain.value.fitsAs (some (SchemaType.dataType type)) (nodeTest definitions depth) value := by
  rw [takes_withTypes_iff uncomposed success]
  exact fits_retyped_iff rfl

theorem takes_none_iff :
    (s.withTypes none).Takes follow base definitions (depth + 1) value ↔
      (value = .null ∧ s.nullable.getD false) ∨
        plain.value.fitsAs none (nodeTest definitions depth) value := by
  rw [takes_withTypes_iff uncomposed success]
  exact fits_retyped_iff rfl

variable {types : List SchemaType} (given : types ≠ [])

include given

/-- A list with at most one type besides null. -/
theorem takes_few_iff (few : (valueTypes types).length ≤ 1) :
    (s.withTypes (some (.list types))).Takes follow base definitions (depth + 1) value ↔
      (value = .null ∧ .null ∈ types) ∨
        ∃ type ∈ types,
          (s.withTypes (some (.one type))).Takes follow base definitions (depth + 1) value := by
  simp only [takes_one_iff uncomposed success]
  rw [exists_type_iff given _ _ _ eq_null_of_fitsAs_null, takes_withTypes_iff uncomposed success]
  rcases found : valueTypes types with _ | ⟨type, _ | ⟨_, _⟩⟩
  · rw [fits_retyped_iff (typesOf_list_null found), orNull_iff]
    have named := null_mem_of_valueTypes given found
    constructor
    · rintro (null | fits)
      · exact Or.inl null
      · exact Or.inl ⟨eq_null_of_fitsAs_null fits, Or.inr named⟩
    · rintro (null | ⟨type, member, _⟩)
      · exact Or.inl null
      · cases member
  · rw [fits_retyped_iff (typesOf_list_one found), orNull_iff]
    refine or_congr_right ?_
    simp only [List.mem_singleton, exists_eq_left]
  · simp [found] at few

/-- A list of several types besides null. -/
theorem takes_several_iff (several : 1 < (valueTypes types).length) :
    (s.withTypes (some (.list types))).Takes follow base definitions (depth + 2) value ↔
      (value = .null ∧ .null ∈ types) ∨
        ((s.withTypes none).Takes follow base definitions (depth + 2) value ∧
          ∃ type ∈ types, (s.onlyType type).Takes follow base definitions (depth + 2) value) := by
  have named := exists_type_iff given (value = .null) (s.nullable.getD false = true)
    (fun type => (SchemaType.dataType type).holds value) Json.isNull_iff.mp
  have variants : (valueTypes types).map SchemaType.dataType ≠ [] := by
    rw [ne_eq, List.map_eq_nil_iff]
    intro none
    simp [none] at several
  have members : (∃ type ∈ (valueTypes types).map SchemaType.dataType,
      nodeTest definitions (depth + 1) (.inline (.ofType type)) value) ↔
        ∃ type ∈ valueTypes types, (SchemaType.dataType type).holds value := by
    simp only [nodeTest, Node.fits, conforms, fits_ofType, List.mem_map, exists_exists_and_eq_and]
  rw [takes_none_iff uncomposed success, takes_withTypes_iff uncomposed success,
    fits_retyped_union_iff (typesOf_list_several several) variants, members, orNull_iff]
  simp only [takes_onlyType_iff]
  constructor
  · rintro (⟨null, lets | member⟩ | ⟨fits, held⟩)
    · obtain ⟨type, member⟩ := List.exists_mem_of_ne_nil types given
      exact Or.inr ⟨Or.inl ⟨null, lets⟩, type, member, Or.inl ⟨null, lets⟩⟩
    · exact Or.inl ⟨null, member⟩
    · exact (named.mpr (Or.inr held)).imp_right fun held => ⟨Or.inr fits, held⟩
  · rintro (⟨null, member⟩ | ⟨lets | fits, held⟩)
    · exact Or.inl ⟨null, Or.inr member⟩
    · exact Or.inl ⟨lets.1, Or.inl lets.2⟩
    · exact (named.mp (Or.inr held)).imp_right fun held => ⟨fits, held⟩

end

end Document.Schema

/-- A schema that is not composed comes to a definition whatever its types are, with the same notices
and targets on the way. A list with at most one type besides null then takes null, if it names it, and
what the schema takes with one of its types. A list of several types takes null, if it names it, and
what the schema takes without them and is also of one of them; the union of the types is one definition
deeper, hence the depth. -/
theorem type_list_accepts_iff (follow : Pointer → Transform Notice Node) (base : Option String)
    {s : Schema} (uncomposed : s.Uncomposed) {types : List SchemaType} (given : types ≠ []) :
    (∀ type,
      (fun _ => ()) <$> normalizeSchema follow base (s.withTypes (some (.list types))) =
        (fun _ => ()) <$> normalizeSchema follow base (s.withTypes (some (.one type)))) ∧
    ∀ {t}, normalizeSchema follow base (s.withTypes (some (.list types))) = .ok t →
      ∀ definitions depth value,
        conforms definitions (depth + 2) t.value value ↔
          (value = .null ∧ .null ∈ types) ∨
            if (valueTypes types).length ≤ 1 then
              ∃ type ∈ types,
                (s.withTypes (some (.one type))).Takes follow base definitions (depth + 2) value
            else
              (s.withTypes none).Takes follow base definitions (depth + 2) value ∧
                ∃ type ∈ types,
                  (s.onlyType type).Takes follow base definitions (depth + 2) value := by
  constructor
  · intro type
    rw [normalizeSchema_withTypes follow base uncomposed,
      normalizeSchema_withTypes follow base uncomposed (some (.one type)), Functor.map_map,
      Functor.map_map]
  · intro t success definitions depth value
    rw [← Schema.takes_iff_of_ok success]
    rw [normalizeSchema_withTypes follow base uncomposed, Transform.map_eq_ok_iff] at success
    obtain ⟨plain, success, _⟩ := success
    split
    · rename_i few
      exact Schema.takes_few_iff uncomposed success given few
    · rename_i several
      exact Schema.takes_several_iff uncomposed success given (Nat.lt_of_not_le several)

namespace Sample

def named : Schema := { Schema.empty with properties := [("name", .inline Schema.empty)] }

def letter : Schema := { Schema.empty with values := [.str "a"] }

/-- Texts of at least three characters. -/
def word : Schema := { Schema.empty with limits := { minLength := some 3 } }

/-- What a document without fragments follows. -/
def follow : Pointer → Transform Notice Node :=
  Sources.follow { fragments := [], aliases := [], declared := [] } []

end Sample

/-- A short text is taken as one of the types, null as named, and nothing else. -/
theorem type_list_accepts_word :
    Sample.word.Uncomposed ∧ [SchemaType.string, .integer, .null] ≠ [] ∧
    ∃ t, normalizeSchema Sample.follow none
        (Sample.word.withTypes (some (.list [.string, .integer, .null]))) = .ok t ∧
      conforms [] depthLimit t.value (.str "ab") ∧ conforms [] depthLimit t.value .null ∧
      ¬ conforms [] depthLimit t.value (.bool true) := by
  have uncomposed : Sample.word.Uncomposed := ⟨rfl, rfl, rfl⟩
  have given : [SchemaType.string, .integer, .null] ≠ [] := by decide
  have law := (type_list_accepts_iff Sample.follow none uncomposed given).2 rfl [] 62
  have several : ¬ (valueTypes [SchemaType.string, .integer, .null]).length ≤ 1 := by decide
  refine ⟨uncomposed, given, _, rfl, (law (.str "ab")).mpr (Or.inr ?_), (law .null).mpr (Or.inl ?_),
    fun taken => ?_⟩
  · rw [if_neg several]
    exact ⟨⟨_, rfl, by decide⟩, .string, by decide, _, rfl, by decide⟩
  · exact ⟨rfl, by decide⟩
  · rcases (law (.bool true)).mp taken with ⟨null, _⟩ | typed
    · cases null
    · rw [if_neg several] at typed
      obtain ⟨_, type, member, only⟩ := typed
      rcases (Schema.takes_onlyType_iff type).mp only with ⟨null, _⟩ | held
      · cases null
      · have none : ∀ type ∈ [SchemaType.string, .integer, .null],
            (SchemaType.dataType type).holds (.bool true) = false := by decide
        rw [none type member] at held
        cases held

/-- With a list of types a schema takes what it takes with none of them: null that its enumeration
does not list, and a text that is too short. -/
theorem type_list_accepts_more :
    ((Sample.letter.withTypes (some (.list [.string, .null]))).Takes Sample.follow none []
        depthLimit .null ∧
      ∀ type ∈ [SchemaType.string, .null],
        ¬ (Sample.letter.withTypes (some (.one type))).Takes Sample.follow none [] depthLimit .null) ∧
    (Sample.word.withTypes (some (.list [.string, .integer]))).Takes Sample.follow none []
        depthLimit (.str "ab") ∧
      ∀ type ∈ [SchemaType.string, .integer],
        ¬ (Sample.word.withTypes (some (.one type))).Takes Sample.follow none [] depthLimit
          (.str "ab") := by
  refine ⟨⟨⟨_, rfl, by decide⟩, ?_⟩, ⟨_, rfl, by decide⟩, ?_⟩
  · rintro type member ⟨t, success, conforming⟩
    simp only [List.mem_cons, List.not_mem_nil, or_false] at member
    rcases member with rfl | rfl <;> cases success <;> revert conforming <;> decide
  · rintro type member ⟨t, success, conforming⟩
    simp only [List.mem_cons, List.not_mem_nil, or_false] at member
    rcases member with rfl | rfl <;> cases success <;> revert conforming <;> decide

/-- With a list of types a schema with properties takes objects only, not even a text that it takes
with one of the types. -/
theorem type_list_accepts_less :
    (Sample.named.withTypes (some (.one .string))).Takes Sample.follow none [] depthLimit
        (.str "ab") ∧
      ¬ (Sample.named.withTypes (some (.list [.object, .string]))).Takes Sample.follow none []
        depthLimit (.str "ab") := by
  refine ⟨⟨_, rfl, by decide⟩, ?_⟩
  rintro ⟨t, success, conforming⟩
  cases success
  revert conforming
  decide

end ApiCodec

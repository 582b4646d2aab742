import ApiCodec.Build.Definitions
import ApiCodec.Proofs.Flatten.Outline

set_option autoImplicit false

namespace ApiCodec

open Document

def DataType.schemaType : DataType → SchemaType
  | .string => .string
  | .number => .number
  | .integer => .integer
  | .boolean => .boolean
  | .object => .object
  | .array => .array
  | .null => .null
  | .file => .file

namespace Document

def Schema.ofType (type : SchemaType) : Schema := { Schema.empty with types := some (.one type) }

def ItemsSchema.node? : ItemsSchema → Option SchemaNode
  | .one node => some node
  | .list nodes => nodes.head?

def AdditionalSchema.flag? : AdditionalSchema → Option Bool
  | .flag allowed => some allowed
  | .node _ => none

def AdditionalSchema.node? : AdditionalSchema → Option SchemaNode
  | .flag _ => none
  | .node values => some values

namespace Schema

/-- The members of which a schema is composed. A list of types is a union of schemas that each name
one of them. -/
def members (schema : Schema) : List SchemaNode :=
  if !schema.oneOf.isEmpty then schema.oneOf
  else if !schema.anyOf.isEmpty then schema.anyOf
  else if !schema.allOf.isEmpty then schema.allOf
  else
    (typesOf schema.nullable schema.types).2.2.map fun type => .inline (.ofType type.schemaType)

def combination? (schema : Schema) : Option CompositionKind :=
  if !schema.oneOf.isEmpty then some .oneOf
  else if !schema.anyOf.isEmpty then some .oneOf
  else if !schema.allOf.isEmpty then some (if schema.disjoint = some true then .oneOf else .allOf)
  else if (typesOf schema.nullable schema.types).2.2.isEmpty then none
  else some .oneOf

def face (schema : Schema) : Face :=
  { type := (typesOf schema.nullable schema.types).1
    nullable := (typesOf schema.nullable schema.types).2.1
    format := schema.format
    required := schema.required
    additional := schema.additional.bind AdditionalSchema.flag?
    enumeration := enumerationOf schema.values schema.extensibleValues
    composition := schema.combination?
    constraints := constraintsOf schema.limits
    default := schema.default
    title := schema.title
    description := schema.description
    importFrom := schema.importFrom }

def outline (schema : Schema) : Outline SchemaNode :=
  { face := schema.face
    parts :=
      schema.properties.map (fun property => (.property property.1, property.2)) ++
        ((schema.items.bind ItemsSchema.node?).toList.map fun node => (.items, node)) ++
        ((schema.additional.bind AdditionalSchema.node?).toList.map fun node => (.values, node)) ++
        (schema.members.map fun node => (.member, node)) }

end Schema

end Document

/-- What the parts of a schema came to, in order, with the notes and targets on the way. -/
structure Gathered (follow : Pointer → Transform Notice Node) (base : Option String)
    (parts : List (Slot × SchemaNode)) (found : List (Slot × Traced Notice Node))
    (notes : List Notice) (promoted : List Pointer) : Prop where
  each : List.Forall₂
    (fun part f => part.1 = f.1 ∧ normalizeNode follow base part.2 = .ok f.2) parts found
  notes : ∀ n ∈ notes,
    (∃ count, n = .moreItemSchemas count) ∨ n = .allOfIgnored ∨ ∃ f ∈ found, n ∈ f.2.notes
  promoted : promoted = found.flatMap (·.2.promoted)

namespace Gathered

variable {follow : Pointer → Transform Notice Node} {base : Option String}

theorem nil : Gathered follow base [] [] [] [] := ⟨.nil, by simp, rfl⟩

theorem append {parts parts' : List (Slot × SchemaNode)} {found found' : List (Slot × Traced Notice Node)}
    {notes notes' : List Notice} {promoted promoted' : List Pointer}
    (front : Gathered follow base parts found notes promoted)
    (back : Gathered follow base parts' found' notes' promoted') :
    Gathered follow base (parts ++ parts') (found ++ found') (notes ++ notes')
      (promoted ++ promoted') := by
  refine ⟨List.rel_append front.each back.each, ?_, ?_⟩
  · intro n member
    rcases List.mem_append.mp member with member | member
    · rcases front.notes n member with more | ignored | ⟨f, hf, from_f⟩
      · exact Or.inl more
      · exact Or.inr (Or.inl ignored)
      · exact Or.inr (Or.inr ⟨f, by simp [hf], from_f⟩)
    · rcases back.notes n member with more | ignored | ⟨f, hf, from_f⟩
      · exact Or.inl more
      · exact Or.inr (Or.inl ignored)
      · exact Or.inr (Or.inr ⟨f, by simp [hf], from_f⟩)
  · rw [List.flatMap_append, ← front.promoted, ← back.promoted]

theorem single {slot : Slot} {node : SchemaNode} {u : Traced Notice Node}
    (success : normalizeNode follow base node = .ok u) :
    Gathered follow base [(slot, node)] [(slot, u)] u.notes u.promoted := by
  refine ⟨.cons ⟨rfl, success⟩ .nil, ?_, by simp⟩
  intro n member
  exact Or.inr (Or.inr ⟨(slot, u), by simp, member⟩)

/-- A note about the schema itself on the way to its parts. -/
theorem note {parts : List (Slot × SchemaNode)} {found : List (Slot × Traced Notice Node)}
    {notes own : List Notice} {promoted : List Pointer}
    (rest : Gathered follow base parts found notes promoted)
    (about : ∀ n ∈ own, (∃ count, n = .moreItemSchemas count) ∨ n = .allOfIgnored) :
    Gathered follow base parts found (own ++ notes) promoted := by
  refine ⟨rest.each, ?_, rest.promoted⟩
  intro n member
  rcases List.mem_append.mp member with member | member
  · rcases about n member with more | ignored
    · exact Or.inl more
    · exact Or.inr (Or.inl ignored)
  · exact rest.notes n member

theorem ofProperties {properties : List (String × SchemaNode)}
    {t : Traced Notice (List (String × Node))}
    (success : normalizeProperties follow base properties = .ok t) :
    ∃ found, Gathered follow base
        (properties.map fun property => (.property property.1, property.2)) found
        t.notes t.promoted ∧
      (t.value.map fun property => (Slot.property property.1, property.2)) =
        found.map fun f => (f.1, f.2.value) := by
  induction properties generalizing t with
  | nil =>
    simp only [normalizeProperties, Transform.pure_eq_ok_iff] at success
    subst success
    exact ⟨[], nil, rfl⟩
  | cons property rest ih =>
    obtain ⟨name, node⟩ := property
    simp only [normalizeProperties, Transform.bind_eq_ok_iff, Transform.pure_eq_ok_iff] at success
    obtain ⟨u, _, first, ⟨v, _, others, rfl, rfl⟩, rfl⟩ := success
    obtain ⟨found, gathered, values⟩ := ih others
    refine ⟨(.property name, u) :: found, ?_, by simp [values]⟩
    simpa using (single first).append gathered

theorem ofNodes {nodes : List SchemaNode} {t : Traced Notice (List Node)}
    (success : normalizeNodes follow base nodes = .ok t) :
    ∃ found, Gathered follow base (nodes.map fun node => (.member, node)) found
        t.notes t.promoted ∧
      (t.value.map fun node => (Slot.member, node)) = found.map fun f => (f.1, f.2.value) := by
  induction nodes generalizing t with
  | nil =>
    simp only [normalizeNodes, Transform.pure_eq_ok_iff] at success
    subst success
    exact ⟨[], nil, rfl⟩
  | cons node rest ih =>
    simp only [normalizeNodes, Transform.bind_eq_ok_iff, Transform.pure_eq_ok_iff] at success
    obtain ⟨u, _, first, ⟨v, _, others, rfl, rfl⟩, rfl⟩ := success
    obtain ⟨found, gathered, values⟩ := ih others
    refine ⟨(.member, u) :: found, ?_, by simp [values]⟩
    simpa using (single first).append gathered

theorem ofItems {items : Option ItemsSchema} {t : Traced Notice (Option Node)}
    (success : normalizeItems follow base items = .ok t) :
    ∃ found, Gathered follow base
        ((items.bind ItemsSchema.node?).toList.map fun node => (.items, node)) found
        t.notes t.promoted ∧
      (t.value.toList.map fun node => (Slot.items, node)) =
        found.map fun f => (f.1, f.2.value) := by
  rcases items with _ | (node | (_ | ⟨node, rest⟩))
  · simp only [normalizeItems, Transform.pure_eq_ok_iff] at success
    subst success
    exact ⟨[], nil, rfl⟩
  · simp only [normalizeItems, Transform.bind_eq_ok_iff, Transform.pure_eq_ok_iff] at success
    obtain ⟨u, _, first, rfl, rfl⟩ := success
    refine ⟨[(.items, u)], ?_, rfl⟩
    simpa [ItemsSchema.node?] using single first
  · simp only [normalizeItems, Transform.pure_eq_ok_iff] at success
    subst success
    exact ⟨[], nil, rfl⟩
  · have whole : ∃ own : List Notice, (∀ n ∈ own, ∃ count, n = .moreItemSchemas count) ∧
        ∃ u, normalizeNode follow base node = .ok u ∧
          t = ⟨some u.value, own ++ u.notes, u.promoted⟩ := by
      simp only [normalizeItems] at success
      split at success
      · simp only [Transform.bind_eq_ok_iff, Transform.note_eq_ok_iff, Transform.pure_eq_ok_iff]
          at success
        obtain ⟨_, _, rfl, ⟨u, _, first, rfl, rfl⟩, rfl⟩ := success
        exact ⟨[.moreItemSchemas (rest.length + 1)], by simp, u, first, by simp⟩
      · simp only [Transform.bind_eq_ok_iff, Transform.pure_eq_ok_iff] at success
        obtain ⟨u, _, first, rfl, rfl⟩ := success
        exact ⟨[], by simp, u, first, by simp⟩
    obtain ⟨own, about, u, first, rfl⟩ := whole
    refine ⟨[(.items, u)], ?_, rfl⟩
    exact (single first).note fun n member => Or.inl (about n member)

theorem ofAdditional {additional : Option AdditionalSchema} {t : Traced Notice (Option Additional)}
    (success : normalizeAdditional follow base additional = .ok t) :
    ∃ found, Gathered follow base
        ((additional.bind AdditionalSchema.node?).toList.map fun node => (.values, node)) found
        t.notes t.promoted ∧
      ((t.value.bind Additional.node?).toList.map fun node => (Slot.values, node)) =
        (found.map fun f => (f.1, f.2.value)) ∧
      t.value.bind Additional.flag? = additional.bind AdditionalSchema.flag? := by
  rcases additional with _ | (allowed | values)
  · simp only [normalizeAdditional, Transform.pure_eq_ok_iff] at success
    subst success
    exact ⟨[], nil, rfl, rfl⟩
  · simp only [normalizeAdditional, Transform.pure_eq_ok_iff] at success
    subst success
    exact ⟨[], nil, rfl, rfl⟩
  · simp only [normalizeAdditional, Transform.bind_eq_ok_iff, Transform.pure_eq_ok_iff] at success
    obtain ⟨u, _, first, rfl, rfl⟩ := success
    refine ⟨[(.values, u)], ?_, rfl, rfl⟩
    simpa [AdditionalSchema.node?] using single first

/-- The composition of a schema that has members. -/
theorem ofComposed {kind : CompositionKind} {own : List Notice} {nodes : List SchemaNode}
    {t : Traced Notice (Option Composition)}
    (about : ∀ n ∈ own, n = .allOfIgnored)
    (success : composed kind own (normalizeNodes follow base nodes) = .ok t) :
    ∃ found, Gathered follow base (nodes.map fun node => (.member, node)) found
        t.notes t.promoted ∧
      ((t.value.elim [] Composition.members).map fun node => (Slot.member, node)) =
        (found.map fun f => (f.1, f.2.value)) ∧
      t.value.map Composition.kind = some kind := by
  simp only [composed, Transform.bind_eq_ok_iff, Transform.tell_eq_ok_iff,
    Transform.pure_eq_ok_iff] at success
  obtain ⟨_, _, rfl, ⟨u, _, first, rfl, rfl⟩, rfl⟩ := success
  obtain ⟨found, gathered, values⟩ := ofNodes first
  refine ⟨found, ?_, values, rfl⟩
  simpa using gathered.note fun n member => Or.inr (about n member)

end Gathered

/-- A schema that only names a type is the structure of that type. -/
theorem normalizeNode_ofType (follow : Pointer → Transform Notice Node) (base : Option String)
    (type : DataType) :
    normalizeNode follow base (.inline (.ofType type.schemaType)) =
      .ok ⟨.inline (.ofType type), [], []⟩ := by
  cases type <;> rfl

/-- Naming several types is a union of schemas that each name one. -/
theorem Gathered.ofUnion (follow : Pointer → Transform Notice Node) (base : Option String)
    (variants : List DataType) :
    ∃ found, Gathered follow base
        (variants.map fun type => (Slot.member, SchemaNode.inline (.ofType type.schemaType)))
        found [] [] ∧
      (((unionOf variants).elim [] Composition.members).map fun node => (Slot.member, node)) =
        found.map fun f => (f.1, f.2.value) := by
  have members : (unionOf variants).elim [] Composition.members =
      variants.map fun type => .inline (.ofType type) := by
    cases variants <;> rfl
  rw [members]
  clear members
  induction variants with
  | nil => exact ⟨[], nil, rfl⟩
  | cons type rest ih =>
    obtain ⟨found, gathered, values⟩ := ih
    refine ⟨(.member, ⟨.inline (.ofType type), [], []⟩) :: found, ?_, by simpa using values⟩
    have first : Gathered follow base [(.member, .inline (.ofType type.schemaType))]
        [(.member, ⟨.inline (.ofType type), [], []⟩)] [] [] :=
      single (normalizeNode_ofType follow base type)
    simpa using first.append gathered

/-- What is said of `allOf` beside a union. -/
def allOfNotes (schema : Schema) : List Notice :=
  if schema.allOf.isEmpty then [] else [.allOfIgnored]

section

variable (follow : Pointer → Transform Notice Node) (base : Option String)

def normalizeMembers (schema : Schema) : Transform Notice (Option Composition) :=
  if !schema.oneOf.isEmpty then
    composed .oneOf (allOfNotes schema) (normalizeNodes follow base schema.oneOf)
  else if !schema.anyOf.isEmpty then
    composed .oneOf (allOfNotes schema) (normalizeNodes follow base schema.anyOf)
  else if !schema.allOf.isEmpty then
    composed (if schema.disjoint = some true then .oneOf else .allOf) []
      (normalizeNodes follow base schema.allOf)
  else pure (unionOf (typesOf schema.nullable schema.types).2.2)

theorem normalizeSchema_eq (schema : Schema) :
    normalizeSchema follow base schema = do
      let properties ← normalizeProperties follow base schema.properties
      let items ← normalizeItems follow base schema.items
      let additional ← normalizeAdditional follow base schema.additional
      let composition ← normalizeMembers follow base schema
      return {
        type := schema.face.type
        nullable := schema.face.nullable
        format := schema.format
        properties
        required := schema.required
        items
        additional
        enumeration := schema.face.enumeration
        composition
        constraints := schema.face.constraints
        default := schema.default
        title := schema.title
        description := schema.description
        importFrom := schema.importFrom } := by
  cases schema
  simp only [normalizeSchema, normalizeMembers, Schema.face]
  congr 1
  funext properties
  congr 1
  funext items
  congr 1
  funext additional
  split
  · rfl
  · split
    · rfl
    · split <;> rfl

end

theorem Gathered.ofMembers {follow : Pointer → Transform Notice Node} {base : Option String}
    {schema : Schema} {t : Traced Notice (Option Composition)}
    (success : normalizeMembers follow base schema = .ok t) :
    ∃ found, Gathered follow base (schema.members.map fun node => (.member, node)) found
        t.notes t.promoted ∧
      ((t.value.elim [] Composition.members).map fun node => (Slot.member, node)) =
        (found.map fun f => (f.1, f.2.value)) ∧
      t.value.map Composition.kind = schema.combination? := by
  have ignored : ∀ n ∈ allOfNotes schema, n = Notice.allOfIgnored := by
    intro n member
    unfold allOfNotes at member
    split at member
    · cases member
    · exact List.mem_singleton.mp member
  unfold normalizeMembers at success
  unfold Schema.members Schema.combination?
  split at success
  · rename_i one
    rw [if_pos one, if_pos one]
    exact ofComposed ignored success
  · rename_i noOne
    rw [if_neg noOne, if_neg noOne]
    split at success
    · rename_i any
      rw [if_pos any, if_pos any]
      exact ofComposed ignored success
    · rename_i noAny
      rw [if_neg noAny, if_neg noAny]
      split at success
      · rename_i all
        rw [if_pos all, if_pos all]
        exact ofComposed (by simp) success
      · rename_i noAll
        rw [if_neg noAll, if_neg noAll]
        rw [Transform.pure_eq_ok_iff] at success
        subst success
        obtain ⟨found, gathered, parts⟩ :=
          ofUnion follow base (typesOf schema.nullable schema.types).2.2
        rw [List.map_map]
        refine ⟨found, gathered, parts, ?_⟩
        cases (typesOf schema.nullable schema.types).2.2 <;> rfl

/-- What a schema that was brought to its one form came to, part by part. -/
structure Outlined (follow : Pointer → Transform Notice Node) (base : Option String)
    (schema : Schema) (t : Traced Notice Definition) (found : List (Slot × Traced Notice Node)) :
    Prop where
  gathered : Gathered follow base schema.outline.parts found t.notes t.promoted
  face : t.value.face = schema.face
  parts : t.value.outline.parts = found.map fun f => (f.1, f.2.value)

theorem outlined_of_normalizeSchema {follow : Pointer → Transform Notice Node}
    {base : Option String} {schema : Schema} {t : Traced Notice Definition}
    (success : normalizeSchema follow base schema = .ok t) :
    ∃ found, Outlined follow base schema t found := by
  simp only [normalizeSchema_eq, Transform.bind_eq_ok_iff, Transform.pure_eq_ok_iff] at success
  obtain ⟨a, _, ha, ⟨b, _, hb, ⟨c, _, hc, ⟨d, _, hd, rfl, rfl⟩, rfl⟩, rfl⟩, rfl⟩ := success
  obtain ⟨propertiesFound, ofProperties, propertyParts⟩ := Gathered.ofProperties ha
  obtain ⟨itemsFound, ofItems, itemParts⟩ := Gathered.ofItems hb
  obtain ⟨valuesFound, ofValues, valueParts, flag⟩ := Gathered.ofAdditional hc
  obtain ⟨membersFound, ofMembers, memberParts, kind⟩ := Gathered.ofMembers hd
  refine ⟨propertiesFound ++ itemsFound ++ valuesFound ++ membersFound, ?_, ?_, ?_⟩
  · simpa only [Schema.outline, List.append_assoc, List.append_nil] using
      ((ofProperties.append ofItems).append ofValues).append ofMembers
  · simp only [Definition.face, Schema.face, flag, kind]
  · simp only [Definition.outline, List.map_append, propertyParts, itemParts, valueParts,
      memberParts]

end ApiCodec

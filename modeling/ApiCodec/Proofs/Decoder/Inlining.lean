import ApiCodec.Decoder.Payload

set_option autoImplicit false

namespace ApiCodec

/-- A step down into a definition. -/
inductive Branch
  | property (name : String)
  | items
  | values
  | member (index : Nat)
  deriving DecidableEq, Repr

/-- A set of places in a definition, each told by the branches that lead to it. -/
abbrev Places := List Branch → Bool

namespace Places

def none : Places := fun _ => false

def under (places : Places) (branch : Branch) : Places := fun path => places (branch :: path)

@[simp] theorem under_none (branch : Branch) : none.under branch = none := rfl

end Places

section

variable (definitions : Definitions)

mutual

def Node.inlineAt (places : Places) : Node → Node
  | .ref name =>
      match Assoc.get? name definitions with
      | some d => if places [] then .inline d else .ref name
      | none => .ref name
  | .inline d => .inline (d.inlineAt places)

/-- A definition with the references in some places replaced by what they refer to. -/
def Definition.inlineAt (places : Places) : Definition → Definition
  | { type, nullable, format, properties, required, items, additional, enumeration, composition,
      constraints, default, title, description, importFrom } =>
      { properties := inlineProperties places properties
        items := inlineItems places items
        additional := inlineAdditional places additional
        composition := inlineComposition places composition
        type, nullable, format, required, enumeration, constraints, default, title, description,
        importFrom }

def inlineProperties (places : Places) : List (String × Node) → List (String × Node)
  | [] => []
  | (name, node) :: rest =>
      (name, node.inlineAt (places.under (.property name))) :: inlineProperties places rest

def inlineItems (places : Places) : Option Node → Option Node
  | none => none
  | some node => some (node.inlineAt (places.under .items))

def inlineAdditional (places : Places) : Option Additional → Option Additional
  | none => none
  | some (.flag allowed) => some (.flag allowed)
  | some (.node values) => some (.node (values.inlineAt (places.under .values)))

def inlineComposition (places : Places) : Option Composition → Option Composition
  | none => none
  | some (.mk kind members) => some (.mk kind (inlineMembers places 0 members))

def inlineMembers (places : Places) (index : Nat) : List Node → List Node
  | [] => []
  | node :: rest =>
      node.inlineAt (places.under (.member index)) :: inlineMembers places (index + 1) rest

end

end

/-- The table with the references in some places of each definition replaced. -/
def Definitions.inlineAll (definitions : Definitions) (places : String → Places) : Definitions :=
  definitions.map fun entry => (entry.1, entry.2.inlineAt definitions (places entry.1))

variable {definitions : Definitions}

mutual

theorem Node.inlineAt_none : ∀ node : Node, node.inlineAt definitions .none = node
  | .ref name => by
      rw [Node.inlineAt]
      cases Assoc.get? name definitions <;> rfl
  | .inline d => by rw [Node.inlineAt, Definition.inlineAt_none d]

theorem Definition.inlineAt_none : ∀ d : Definition, d.inlineAt definitions .none = d
  | { properties, items, additional, composition, .. } => by
      rw [Definition.inlineAt, inlineProperties_none properties, inlineItems_none items,
        inlineAdditional_none additional, inlineComposition_none composition]

theorem inlineProperties_none :
    ∀ properties : List (String × Node), inlineProperties definitions .none properties = properties
  | [] => rfl
  | (name, node) :: rest => by
      rw [inlineProperties, Places.under_none, Node.inlineAt_none node, inlineProperties_none rest]

theorem inlineItems_none : ∀ items : Option Node, inlineItems definitions .none items = items
  | none => rfl
  | some node => by rw [inlineItems, Places.under_none, Node.inlineAt_none node]

theorem inlineAdditional_none :
    ∀ additional : Option Additional, inlineAdditional definitions .none additional = additional
  | none => rfl
  | some (.flag _) => rfl
  | some (.node values) => by
      rw [inlineAdditional, Places.under_none, Node.inlineAt_none values]

theorem inlineComposition_none :
    ∀ composition : Option Composition,
      inlineComposition definitions .none composition = composition
  | none => rfl
  | some (.mk _ members) => by rw [inlineComposition, inlineMembers_none 0 members]

theorem inlineMembers_none :
    ∀ (index : Nat) (members : List Node), inlineMembers definitions .none index members = members
  | _, [] => rfl
  | index, node :: rest => by
      rw [inlineMembers, Places.under_none, Node.inlineAt_none node,
        inlineMembers_none (index + 1) rest]

end

theorem get?_inlineProperties (places : Places) (name : String)
    (properties : List (String × Node)) :
    Assoc.get? name (inlineProperties definitions places properties) =
      (Assoc.get? name properties).map
        fun node => node.inlineAt definitions (places.under (.property name)) := by
  induction properties with
  | nil => rfl
  | cons property rest ih =>
      obtain ⟨first, node⟩ := property
      rw [inlineProperties]
      by_cases same : first = name
      · simp [Assoc.get?, same]
      · simp [Assoc.get?, same, ih]

theorem isEmpty_inlineProperties (places : Places) (properties : List (String × Node)) :
    (inlineProperties definitions places properties).isEmpty = properties.isEmpty := by
  cases properties <;> rfl

theorem isSome_inlineAdditional (places : Places) (additional : Option Additional) :
    (inlineAdditional definitions places additional).isSome = additional.isSome := by
  rcases additional with _ | (_ | _) <;> rfl

theorem get?_inlineAll (definitions : Definitions) (places : String → Places) (name : String) :
    Assoc.get? name (definitions.inlineAll places) =
      (Assoc.get? name definitions).map fun d => d.inlineAt definitions (places name) :=
  Assoc.get?_mapKeyed (fun key (d : Definition) => d.inlineAt definitions (places key)) name
    definitions

namespace Definition

variable {test test' : Node → Json → Bool}
variable (agree : ∀ (node : Node) (places : Places) (value : Json),
  test' (node.inlineAt definitions places) value = test node value)

include agree

theorem any_inlineMembers (places : Places) (index : Nat) (members : List Node) (value : Json) :
    (inlineMembers definitions places index members).any (test' · value) =
      members.any (test · value) := by
  induction members generalizing index with
  | nil => rfl
  | cons node rest ih => rw [inlineMembers, List.any_cons, List.any_cons, agree, ih]

theorem all_inlineMembers (places : Places) (index : Nat) (members : List Node) (value : Json) :
    (inlineMembers definitions places index members).all (test' · value) =
      members.all (test · value) := by
  induction members generalizing index with
  | nil => rfl
  | cons node rest ih => rw [inlineMembers, List.all_cons, List.all_cons, agree, ih]

theorem fitsComposition_inlineAt (places : Places) (d : Definition) (value : Json) :
    (d.inlineAt definitions places).fitsComposition test' value = d.fitsComposition test value := by
  obtain ⟨_, _, _, _, _, _, _, _, composition, _, _, _, _, _⟩ := d
  simp only [fitsComposition, inlineAt]
  cases composition with
  | none => rfl
  | some composition =>
      obtain ⟨kind, members⟩ := composition
      cases kind with
      | oneOf => exact any_inlineMembers agree places 0 members value
      | allOf => exact all_inlineMembers agree places 0 members value

theorem fitsField_inlineAt (places : Places) (d : Definition) (field : String × Json) :
    (d.inlineAt definitions places).fitsField test' field = d.fitsField test field := by
  obtain ⟨_, _, _, properties, _, _, additional, _, _, _, _, _, _, _⟩ := d
  simp only [fitsField, inlineAt, get?_inlineProperties]
  cases Assoc.get? field.1 properties with
  | some node => exact agree node _ field.2
  | none =>
      cases additional with
      | none => rfl
      | some additional =>
          cases additional with
          | flag allowed => rfl
          | node values => exact agree values _ field.2

theorem fitsObject_inlineAt (places : Places) (d : Definition) (value : Json) :
    (d.inlineAt definitions places).fitsObject test' value = d.fitsObject test value := by
  have fields := fitsField_inlineAt agree places d
  have required : (d.inlineAt definitions places).required = d.required := by cases d; rfl
  cases value with
  | obj members =>
      simp only [fitsObject, required]
      congr 2
      funext field
      exact fields field
  | _ => rfl

theorem fitsArray_inlineAt (places : Places) (d : Definition) (value : Json) :
    (d.inlineAt definitions places).fitsArray test' value = d.fitsArray test value := by
  obtain ⟨_, _, _, _, _, items, _, _, _, _, _, _, _, _⟩ := d
  cases value with
  | arr values =>
      simp only [fitsArray, inlineAt]
      cases items with
      | none => rfl
      | some item =>
          have each : test' (item.inlineAt definitions (places.under .items)) = test item := by
            funext part
            exact agree item _ part
          simp only [inlineItems, each]
  | _ => rfl

theorem fitsShape_inlineAt (places : Places) (d : Definition) (value : Json) :
    (d.inlineAt definitions places).fitsShape test' value = d.fitsShape test value := by
  have object := fitsObject_inlineAt agree places d value
  have array := fitsArray_inlineAt agree places d value
  obtain ⟨type, _, _, properties, _, _, additional, _, _, _, _, _, _, _⟩ := d
  rcases type with _ | type
  · simp only [fitsShape, object]
    simp only [inlineAt, isEmpty_inlineProperties, isSome_inlineAdditional]
  · cases type with
    | object => exact object
    | array => exact array
    | _ => rfl

theorem fits_inlineAt (places : Places) (d : Definition) (value : Json) :
    (d.inlineAt definitions places).fits test' value = d.fits test value := by
  have composition := fitsComposition_inlineAt agree places d value
  have shape := fitsShape_inlineAt agree places d value
  have nullable : (d.inlineAt definitions places).nullable = d.nullable := by cases d; rfl
  have enumeration : (d.inlineAt definitions places).fitsEnumeration value =
      d.fitsEnumeration value := by cases d; rfl
  rw [fits, fits, composition, shape, nullable, enumeration]

end Definition

/-- A definition and what replacing makes of it take the same values, at every depth. -/
theorem conforms_inlineAt (definitions : Definitions) (tables : String → Places) (depth : Nat)
    (places : Places) (d : Definition) (value : Json) :
    conforms (definitions.inlineAll tables) depth (d.inlineAt definitions places) value =
      conforms definitions depth d value := by
  induction depth generalizing places d value with
  | zero => rfl
  | succ depth ih =>
      refine Definition.fits_inlineAt (fun node places part => ?_) places d value
      -- The copy of a definition has nothing replaced in it.
      have copy : ∀ d, conforms (definitions.inlineAll tables) depth d part =
          conforms definitions depth d part := by
        intro d
        have same := ih .none d part
        rwa [Definition.inlineAt_none] at same
      have named : ∀ name,
          (Node.ref name).fits (definitions.inlineAll tables)
              (conforms (definitions.inlineAll tables) depth) part =
            (Node.ref name).fits definitions (conforms definitions depth) part := by
        intro name
        simp only [Node.fits, get?_inlineAll]
        cases Assoc.get? name definitions with
        | none => rfl
        | some d => exact ih (tables name) d part
      cases node with
      | inline d => exact ih places d part
      | ref name =>
          rw [Node.inlineAt]
          cases known : Assoc.get? name definitions with
          | none => exact named name
          | some d =>
              by_cases chosen : places []
              · simp only [chosen, if_true, Node.fits, known]
                exact copy d
              · simp only [chosen]
                exact named name

theorem Strategy.accepts_inlineAll (definitions : Definitions) (places : String → Places)
    (value : Json) (s : Strategy) :
    s.accepts (definitions.inlineAll places) value = s.accepts definitions value := by
  have named : ∀ type,
      (Node.ref type).fits (definitions.inlineAll places)
          (conforms (definitions.inlineAll places) depthLimit) value =
        (Node.ref type).fits definitions (conforms definitions depthLimit) value := by
    intro type
    simp only [Node.fits, get?_inlineAll]
    cases Assoc.get? type definitions with
    | none => rfl
    | some d => exact conforms_inlineAt definitions places depthLimit _ d value
  cases s with
  | exact type => exact named type
  | errorEnvelope type => exact named type
  | binary => rfl
  | constant => rfl

/-- Replacing references by copies in place, anywhere in a table, leaves decoding as it is. -/
theorem decode_inlineAll (plan : DecoderPlan) (definitions : Definitions)
    (places : String → Places) (status : Nat) (value : Json) :
    plan.decode (definitions.inlineAll places) status value =
      plan.decode definitions status value := by
  unfold DecoderPlan.decode
  simp only [Strategy.accepts_inlineAll]

/-- A definition that refers to itself, unrolled once. -/
example :
    Definitions.inlineAll [("Nest", { Definition.ofType .array with items := some (.ref "Nest") })]
        (fun _ path => path == [.items]) =
      [("Nest",
        { Definition.ofType .array with
          items := some (.inline { Definition.ofType .array with
            items := some (.ref "Nest") }) })] := by
  rfl

end ApiCodec

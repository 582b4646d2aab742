import ApiCodec.Proofs.Flatten.Outline

set_option autoImplicit false

namespace ApiCodec

theorem mem_addName {names : List String} {name other : String} :
    other ∈ addName names name ↔ other ∈ names ∨ other = name := by
  unfold addName
  split
  · rename_i present
    have present : name ∈ names := by simpa using present
    constructor
    · exact Or.inl
    · rintro (known | rfl)
      · exact known
      · exact present
  · rw [List.mem_append, List.mem_singleton]

theorem nodup_addName {names : List String} {name : String} (distinct : names.Nodup) :
    (addName names name).Nodup := by
  unfold addName
  split
  · exact distinct
  · rename_i absent
    have absent : name ∉ names := by simpa using absent
    rw [List.nodup_append]
    refine ⟨distinct, by simp, ?_⟩
    intro a ha b hb
    rw [List.mem_singleton] at hb
    rintro rfl
    exact absent (hb ▸ ha)

theorem mem_foldl_addName {found names : List String} {name : String} :
    name ∈ found.foldl addName names ↔ name ∈ names ∨ name ∈ found := by
  induction found generalizing names with
  | nil => simp
  | cons first rest ih =>
    rw [List.foldl_cons, ih, mem_addName, List.mem_cons, or_assoc]

theorem nodup_foldl_addName {found names : List String} (distinct : names.Nodup) :
    (found.foldl addName names).Nodup := by
  induction found generalizing names with
  | nil => exact distinct
  | cons first rest ih => exact ih (nodup_addName distinct)

mutual

def Node.occurrences : Node → List String
  | .ref name => [name]
  | .inline definition => definition.occurrences

/-- The names that a definition refers to, as often as it does. -/
def Definition.occurrences : Definition → List String
  | { properties, items, additional, composition, .. } =>
      propertyOccurrences properties ++ itemsOccurrences items ++
        additionalOccurrences additional ++ compositionOccurrences composition

def propertyOccurrences : List (String × Node) → List String
  | [] => []
  | (_, node) :: rest => node.occurrences ++ propertyOccurrences rest

def itemsOccurrences : Option Node → List String
  | none => []
  | some node => node.occurrences

def additionalOccurrences : Option Additional → List String
  | none => []
  | some (.flag _) => []
  | some (.node values) => values.occurrences

def compositionOccurrences : Option Composition → List String
  | none => []
  | some (.mk _ members) => memberOccurrences members

def memberOccurrences : List Node → List String
  | [] => []
  | node :: rest => node.occurrences ++ memberOccurrences rest

end

mutual

theorem Node.addNames_eq :
    ∀ (names : List String) (node : Node),
      node.addNames names = node.occurrences.foldl addName names
  | names, .ref name => rfl
  | names, .inline definition => by
      simp only [Node.addNames, Node.occurrences]
      exact Definition.addNames_eq names definition

theorem Definition.addNames_eq :
    ∀ (names : List String) (d : Definition),
      d.addNames names = d.occurrences.foldl addName names
  | names, { properties, items, additional, composition, .. } => by
      simp only [Definition.addNames, Definition.occurrences, List.foldl_append]
      rw [addPropertyNames_eq, addItemsNames_eq, addAdditionalNames_eq, addCompositionNames_eq]

theorem addPropertyNames_eq :
    ∀ (names : List String) (properties : List (String × Node)),
      addPropertyNames names properties = (propertyOccurrences properties).foldl addName names
  | names, [] => rfl
  | names, (_, node) :: rest => by
      simp only [addPropertyNames, propertyOccurrences, List.foldl_append]
      rw [Node.addNames_eq, addPropertyNames_eq]

theorem addItemsNames_eq :
    ∀ (names : List String) (items : Option Node),
      addItemsNames names items = (itemsOccurrences items).foldl addName names
  | names, none => rfl
  | names, some node => by
      simp only [addItemsNames, itemsOccurrences]
      exact Node.addNames_eq names node

theorem addAdditionalNames_eq :
    ∀ (names : List String) (additional : Option Additional),
      addAdditionalNames names additional =
        (additionalOccurrences additional).foldl addName names
  | names, none => rfl
  | names, some (.flag _) => rfl
  | names, some (.node values) => by
      simp only [addAdditionalNames, additionalOccurrences]
      exact Node.addNames_eq names values

theorem addCompositionNames_eq :
    ∀ (names : List String) (composition : Option Composition),
      addCompositionNames names composition =
        (compositionOccurrences composition).foldl addName names
  | names, none => rfl
  | names, some (.mk _ members) => by
      simp only [addCompositionNames, compositionOccurrences]
      exact addMemberNames_eq names members

theorem addMemberNames_eq :
    ∀ (names : List String) (members : List Node),
      addMemberNames names members = (memberOccurrences members).foldl addName names
  | names, [] => rfl
  | names, node :: rest => by
      simp only [addMemberNames, memberOccurrences, List.foldl_append]
      rw [Node.addNames_eq, addMemberNames_eq]

end

theorem Definition.mem_names {d : Definition} {name : String} :
    name ∈ d.names ↔ name ∈ d.occurrences := by
  unfold Definition.names
  rw [Definition.addNames_eq, mem_foldl_addName]
  simp

theorem Definition.nodup_names (d : Definition) : d.names.Nodup := by
  unfold Definition.names
  rw [Definition.addNames_eq]
  exact nodup_foldl_addName List.nodup_nil

theorem propertyOccurrences_eq (properties : List (String × Node)) :
    propertyOccurrences properties = properties.flatMap (·.2.occurrences) := by
  induction properties with
  | nil => rfl
  | cons property rest ih => simp only [propertyOccurrences, List.flatMap_cons, ih]

theorem memberOccurrences_eq (members : List Node) :
    memberOccurrences members = members.flatMap Node.occurrences := by
  induction members with
  | nil => rfl
  | cons node rest ih => simp only [memberOccurrences, List.flatMap_cons, ih]

/-- The names of a definition are those of its parts. -/
theorem Definition.occurrences_eq (d : Definition) :
    d.occurrences = d.outline.parts.flatMap (·.2.occurrences) := by
  obtain ⟨_, _, _, properties, _, items, additional, _, composition, _, _, _, _, _⟩ := d
  simp only [Definition.occurrences, Definition.outline, List.flatMap_append, List.flatMap_map,
    propertyOccurrences_eq]
  congr 1
  · congr 1
    · cases items <;> simp [itemsOccurrences]
    · rcases additional with _ | (_ | values) <;>
        simp [additionalOccurrences, Additional.node?]
  · rcases composition with _ | ⟨kind, members⟩
    · simp [compositionOccurrences]
    · simp only [compositionOccurrences, memberOccurrences_eq]
      rfl

end ApiCodec

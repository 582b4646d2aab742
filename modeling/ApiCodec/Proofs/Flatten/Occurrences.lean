import ApiCodec.Proofs.Flatten.Names
import Mathlib.Data.List.Induction

set_option autoImplicit false

namespace ApiCodec

mutual

/-- A name occurs in a node. -/
inductive Node.Cites (name : String) : Node → Prop
  | ref : Node.Cites name (.ref name)
  | inline {d : Definition} (cited : Definition.Cites name d) : Node.Cites name (.inline d)

/-- A name occurs in a definition: in a property, in the items, in the values of an object, or in a
member of its composition. -/
inductive Definition.Cites (name : String) : Definition → Prop
  | property {d : Definition} {entry : String × Node} (inside : entry ∈ d.properties)
      (cited : Node.Cites name entry.2) : Definition.Cites name d
  | item {d : Definition} {node : Node} (given : d.items = some node)
      (cited : Node.Cites name node) : Definition.Cites name d
  | values {d : Definition} {node : Node} (given : d.additional = some (.node node))
      (cited : Node.Cites name node) : Definition.Cites name d
  | member {d : Definition} {kind : CompositionKind} {members : List Node} {node : Node}
      (composed : d.composition = some (.mk kind members)) (inside : node ∈ members)
      (cited : Node.Cites name node) : Definition.Cites name d

end

section

variable {name : String}

theorem Node.cites_ref_iff {other : String} : Node.Cites name (.ref other) ↔ name = other := by
  constructor
  · rintro ⟨⟩
    rfl
  · rintro rfl
    exact .ref

theorem Node.cites_inline_iff {d : Definition} :
    Node.Cites name (.inline d) ↔ Definition.Cites name d := by
  constructor
  · intro cited
    cases cited with
    | inline cited => exact cited
  · exact .inline

theorem Definition.cites_iff {d : Definition} :
    Definition.Cites name d ↔
      (∃ entry ∈ d.properties, Node.Cites name entry.2) ∨
        (∃ node, d.items = some node ∧ Node.Cites name node) ∨
          (∃ node, d.additional = some (.node node) ∧ Node.Cites name node) ∨
            ∃ kind members, d.composition = some (.mk kind members) ∧
              ∃ node ∈ members, Node.Cites name node := by
  constructor
  · intro cited
    cases cited with
    | property inside cited => exact Or.inl ⟨_, inside, cited⟩
    | item given cited => exact Or.inr (Or.inl ⟨_, given, cited⟩)
    | values given cited => exact Or.inr (Or.inr (Or.inl ⟨_, given, cited⟩))
    | member composed inside cited =>
        exact Or.inr (Or.inr (Or.inr ⟨_, _, composed, _, inside, cited⟩))
  · rintro (⟨entry, inside, cited⟩ | ⟨node, given, cited⟩ | ⟨node, given, cited⟩ |
      ⟨kind, members, composed, node, inside, cited⟩)
    · exact .property inside cited
    · exact .item given cited
    · exact .values given cited
    · exact .member composed inside cited

end

mutual

theorem Node.mem_occurrences_iff (name : String) :
    ∀ node : Node, name ∈ node.occurrences ↔ Node.Cites name node
  | .ref other => by
      rw [Node.occurrences, List.mem_singleton, Node.cites_ref_iff]
  | .inline d => by
      rw [Node.occurrences, Definition.mem_occurrences_iff name d, Node.cites_inline_iff]

/-- The walk meets the names that occur, and no others. -/
theorem Definition.mem_occurrences_iff (name : String) :
    ∀ d : Definition, name ∈ d.occurrences ↔ Definition.Cites name d
  | { properties, items, additional, composition, .. } => by
      rw [Definition.cites_iff]
      simp only [Definition.occurrences, List.mem_append, or_assoc,
        mem_propertyOccurrences_iff name properties, mem_itemsOccurrences_iff name items,
        mem_additionalOccurrences_iff name additional,
        mem_compositionOccurrences_iff name composition]

theorem mem_propertyOccurrences_iff (name : String) :
    ∀ properties : List (String × Node),
      name ∈ propertyOccurrences properties ↔ ∃ entry ∈ properties, Node.Cites name entry.2
  | [] => by simp [propertyOccurrences]
  | (_, node) :: rest => by
      have first := Node.mem_occurrences_iff name node
      have others := mem_propertyOccurrences_iff name rest
      simp [propertyOccurrences, first, others]

theorem mem_itemsOccurrences_iff (name : String) :
    ∀ items : Option Node,
      name ∈ itemsOccurrences items ↔ ∃ node, items = some node ∧ Node.Cites name node
  | none => by simp [itemsOccurrences]
  | some node => by simpa [itemsOccurrences] using Node.mem_occurrences_iff name node

theorem mem_additionalOccurrences_iff (name : String) :
    ∀ additional : Option Additional,
      name ∈ additionalOccurrences additional ↔
        ∃ node, additional = some (.node node) ∧ Node.Cites name node
  | none => by simp [additionalOccurrences]
  | some (.flag _) => by simp [additionalOccurrences]
  | some (.node values) => by
      simpa [additionalOccurrences] using Node.mem_occurrences_iff name values

theorem mem_compositionOccurrences_iff (name : String) :
    ∀ composition : Option Composition,
      name ∈ compositionOccurrences composition ↔
        ∃ kind members, composition = some (.mk kind members) ∧
          ∃ node ∈ members, Node.Cites name node
  | none => by simp [compositionOccurrences]
  | some (.mk _ members) => by
      simpa [compositionOccurrences] using mem_memberOccurrences_iff name members

theorem mem_memberOccurrences_iff (name : String) :
    ∀ members : List Node,
      name ∈ memberOccurrences members ↔ ∃ node ∈ members, Node.Cites name node
  | [] => by simp [memberOccurrences]
  | node :: rest => by
      have first := Node.mem_occurrences_iff name node
      have others := mem_memberOccurrences_iff name rest
      simp [memberOccurrences, first, others]

end

/-- What a walk adds to names that are known: the names it meets besides, from one first meeting to
the next. -/
structure AddedBy (found names added : List String) : Prop where
  mem_iff : ∀ name, name ∈ added ↔ name ∈ found ∧ name ∉ names
  ordered : added.Pairwise fun first second => found.idxOf first < found.idxOf second

namespace AddedBy

variable {found names added : List String}

theorem nodup (adds : AddedBy found names added) : added.Nodup :=
  adds.ordered.imp fun {first second} before same => by
    rw [same] at before
    exact Nat.lt_irrefl _ before

theorem nil (names : List String) : AddedBy [] names [] :=
  ⟨by simp, .nil⟩

theorem ordered_append (adds : AddedBy found names added) (more : List String) :
    added.Pairwise fun first second =>
      (found ++ more).idxOf first < (found ++ more).idxOf second := by
  refine adds.ordered.imp_of_mem fun {first second} here there before => ?_
  rwa [List.idxOf_append_of_mem ((adds.mem_iff first).mp here).1,
    List.idxOf_append_of_mem ((adds.mem_iff second).mp there).1]

/-- A name that was known from the start, or met before, is not added. -/
theorem skip (adds : AddedBy found names added) {name : String}
    (known : name ∈ names ∨ name ∈ found) : AddedBy (found ++ [name]) names added := by
  refine ⟨fun other => ?_, adds.ordered_append [name]⟩
  rw [adds.mem_iff, List.mem_append, List.mem_singleton]
  constructor
  · exact fun ⟨met, fresh⟩ => ⟨Or.inl met, fresh⟩
  · rintro ⟨met | rfl, fresh⟩
    · exact ⟨met, fresh⟩
    · exact ⟨known.resolve_left fresh, fresh⟩

/-- Any other name goes behind those that were added. -/
theorem push (adds : AddedBy found names added) {name : String} (fresh : name ∉ names)
    (unmet : name ∉ found) : AddedBy (found ++ [name]) names (added ++ [name]) := by
  refine ⟨fun other => ?_, List.pairwise_append.mpr
    ⟨adds.ordered_append [name], List.pairwise_singleton _ _, ?_⟩⟩
  · rw [List.mem_append, List.mem_append, List.mem_singleton, adds.mem_iff]
    constructor
    · rintro (⟨met, unknown⟩ | rfl)
      · exact ⟨Or.inl met, unknown⟩
      · exact ⟨Or.inr rfl, fresh⟩
    · rintro ⟨met | rfl, unknown⟩
      · exact Or.inl ⟨met, unknown⟩
      · exact Or.inr rfl
  · intro first here second there
    cases List.mem_singleton.mp there
    have met := ((adds.mem_iff first).mp here).1
    rw [List.idxOf_append_of_mem met, List.idxOf_append_of_notMem unmet]
    exact Nat.lt_add_right _ (List.idxOf_lt_length_of_mem met)

end AddedBy

/-- Names that are added one after the other leave those before them in front. -/
theorem exists_addedBy (found names : List String) :
    ∃ added, found.foldl addName names = names ++ added ∧ AddedBy found names added := by
  induction found using List.reverseRecOn with
  | nil => exact ⟨[], (List.append_nil names).symm, .nil names⟩
  | append_singleton found name ih =>
      obtain ⟨added, same, adds⟩ := ih
      rw [List.foldl_append, List.foldl_cons, List.foldl_nil, same]
      unfold addName
      split
      · rename_i present
        have known : name ∈ names ∨ name ∈ found := by
          rcases List.mem_append.mp (List.contains_iff_mem.mp present) with known | new
          · exact Or.inl known
          · exact Or.inr ((adds.mem_iff name).mp new).1
        exact ⟨added, rfl, adds.skip known⟩
      · rename_i absent
        rw [List.contains_iff_mem, List.mem_append, not_or] at absent
        have unmet : name ∉ found := fun met =>
          absent.2 ((adds.mem_iff name).mpr ⟨met, absent.1⟩)
        exact ⟨added ++ [name], List.append_assoc _ _ _, adds.push absent.1 unmet⟩

/-- To a list of names a definition adds at the end, each once, just the names that occur in it and
are not in the list, in the order in which a walk from left to right first meets them. So a list
without repetition stays one, and the names are those of the list and those of the definition. -/
theorem addNames_collects_citations (d : Definition) (names : List String) :
    (∃ added, d.addNames names = names ++ added ∧ added.Nodup ∧
      (∀ name, name ∈ added ↔ d.Cites name ∧ name ∉ names) ∧
      added.Pairwise fun first second =>
        d.occurrences.idxOf first < d.occurrences.idxOf second) ∧
    (names.Nodup → (d.addNames names).Nodup) ∧
    ∀ name, name ∈ d.addNames names ↔ name ∈ names ∨ d.Cites name := by
  rw [Definition.addNames_eq]
  refine ⟨?_, nodup_foldl_addName, fun name => ?_⟩
  · obtain ⟨added, same, adds⟩ := exists_addedBy d.occurrences names
    refine ⟨added, same, adds.nodup, fun name => ?_, adds.ordered⟩
    rw [adds.mem_iff, Definition.mem_occurrences_iff]
  · rw [mem_foldl_addName, Definition.mem_occurrences_iff]

/-- Someone with an address in place, and a member that occurs in the address too. -/
def Sample.resident : Definition :=
  { Definition.ofType .object with
    properties :=
      [("address", .inline
        { Definition.ofType .object with
          properties := [("zip", .ref "ZipCode"), ("town", .ref "Town"), ("owner", .ref "Person")] })]
    composition := some (.mk .oneOf [.ref "Person"]) }

/-- Behind a list that has one of the names, the others come in the order of the address. -/
theorem addNames_collects_citations_resident :
    ["Pet", "Town"].Nodup ∧ (Sample.resident.addNames ["Pet", "Town"]).Nodup ∧
      Sample.resident.addNames ["Pet", "Town"] = ["Pet", "Town", "ZipCode", "Person"] ∧
      Sample.resident.Cites "Person" := by
  have distinct : ["Pet", "Town"].Nodup := by decide
  obtain ⟨_, nodup, members⟩ := addNames_collects_citations Sample.resident ["Pet", "Town"]
  have collected : Sample.resident.addNames ["Pet", "Town"] =
      ["Pet", "Town", "ZipCode", "Person"] := by decide
  have person : "Person" ∈ Sample.resident.addNames ["Pet", "Town"] := by
    rw [collected]
    decide
  exact ⟨distinct, nodup distinct, collected,
    ((members "Person").mp person).resolve_left (by decide)⟩

end ApiCodec

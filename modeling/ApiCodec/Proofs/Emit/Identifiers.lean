import ApiCodec.Proofs.Emit.Contexts
import ApiCodec.Proofs.Emit.Recursion
import ApiCodec.Proofs.Emit.Sources

set_option autoImplicit false

namespace ApiCodec

namespace Emit

namespace DefinitionModule

section

variable (o : Options) (definitions : Definitions) (name : String) (d : Definition)

/-- What the properties of an object need, or what the codec and the type of any other definition
do. -/
def gathered : Context :=
  if moduleKind definitions name d = .object then
    (hoistedProperties o name d.required .empty d.properties).2
  else if moduleKind definitions name d = .recursive then
    Context.empty.importAll ((definitionType o d).imports ++ (definitionCodec o d).imports)
  else Context.empty.importAll (definitionCodec o d).imports

/-- A module does not import itself. -/
theorem context_of :
    (of o definitions name d).context =
      { gathered o definitions name d with
        imports := (gathered o definitions name d).imports.filter (· != name) } := by
  cases kind : moduleKind definitions name d with
  | object =>
      simp only [of, gathered, kind, propertiesOf, if_true]
      rfl
  | recursive => simp [of, gathered, kind]
  | plain =>
      simp only [of, gathered, kind]
      rfl

theorem tidy_gathered : (gathered o definitions name d).Tidy := by
  unfold gathered
  split
  · exact tidy_hoistedProperties
  · split <;> exact Context.tidy_empty.importAll _

theorem aliases_gathered (other : moduleKind definitions name d ≠ .object) :
    (gathered o definitions name d).aliases = [] := by
  unfold gathered
  rw [if_neg other]
  split <;> rfl

theorem nodup_imports : (of o definitions name d).context.imports.Nodup := by
  rw [context_of]
  exact (NameSet.nodup_of_pairwise (tidy_gathered o definitions name d).imports).filter _

theorem name_notMem_imports : name ∉ (of o definitions name d).context.imports := by
  rw [context_of]
  simp

theorem nodup_aliases : (Assoc.keys (of o definitions name d).context.aliases).Nodup := by
  rw [context_of]
  exact (tidy_gathered o definitions name d).aliases

/-- Only the properties of an object have aliases. -/
theorem exists_property_of_mem_aliases {a : String}
    (member : a ∈ Assoc.keys (of o definitions name d).context.aliases) :
    moduleKind definitions name d = .object ∧
      ∃ property ∈ d.properties, isHoisted property.2 ∧
        ∃ n, a = Context.variant (name ++ Text.pascalCase property.1) n := by
  rw [context_of] at member
  by_cases kind : moduleKind definitions name d = .object
  · refine ⟨kind, ?_⟩
    simp only [gathered, kind, if_true] at member
    exact namedAfter_hoistedProperties a member
  · rw [aliases_gathered o definitions name d kind] at member
    cases member

end

/-- The names of the parts that an object is put together from. -/
def partNames (m : DefinitionModule) : List String :=
  if m.kind = .object then [m.name ++ "R", m.name ++ "O"] else []

theorem flatMap_names_ofDefinition (definitions : Definitions) (leading : String)
    (names : List String) :
    (names.map (Import.ofDefinition definitions leading)).flatMap Import.names = names := by
  induction names with
  | nil => rfl
  | cons first rest ih =>
      rw [List.map_cons, List.flatMap_cons, ih]
      rfl

theorem values_declarationsOf (scope : Scope) (statements : List Statement) :
    namesWhere (fun d => d.kind != .type) (declarationsOf scope statements) =
      ((statements.filter fun s => s.kind != .type).map (·.name)).map (writtenAll scope) :=
  namesWhere_declarationsOf (fun _ => rfl) statements

theorem values_aliasStatements (definitions : Definitions) (m : DefinitionModule)
    (entry : String × String) :
    namesWhere (fun d => d.kind != .type)
      (declarationsOf (m.aliasScope definitions entry) aliasStatements) = [entry.1] := by
  have values : (aliasStatements.filter fun s => s.kind != .type).map (·.name) =
      [[fieldAt "alias" "name"]] := rfl
  have name : (fieldAt "alias" "name").written (m.aliasScope definitions entry) = entry.1 := rfl
  simp [values_declarationsOf, values, name]

theorem values_statements (definitions : Definitions) (m : DefinitionModule) :
    namesWhere (fun d => d.kind != .type)
      (declarationsOf (m.scope definitions) m.kind.statements) = m.partNames ++ [m.name] := by
  have name : (valueAt "name").written (m.scope definitions) = m.name := rfl
  cases kind : m.kind with
  | object =>
      have values : (objectStatements.filter fun s => s.kind != .type).map (·.name) =
        [[valueAt "name", .text "R"], [valueAt "name", .text "O"], [valueAt "name"]] := rfl
      simp [ModuleKind.statements, values_declarationsOf, values, name, partNames, kind]
  | recursive =>
      have values : (recursiveStatements.filter fun s => s.kind != .type).map (·.name) =
        [[valueAt "name"]] := rfl
      simp [ModuleKind.statements, values_declarationsOf, values, name, partNames, kind]
  | plain =>
      have values : (plainStatements.filter fun s => s.kind != .type).map (·.name) =
        [[valueAt "name"]] := rfl
      simp [ModuleKind.statements, values_declarationsOf, values, name, partNames, kind]

/-- The names at the top of a module are those of its imports, its aliases, the parts of an object
and the definition. -/
theorem identifiers_source (definitions : Definitions) (m : DefinitionModule) :
    (m.source definitions).identifiers =
      m.context.imports ++ (Assoc.keys m.context.aliases ++ (m.partNames ++ [m.name])) := by
  have aliases : (m.context.aliases.flatMap fun entry => [entry.1]) =
      Assoc.keys m.context.aliases := by
    rw [← List.map_eq_flatMap, Assoc.keys]
  simp only [Source.identifiers, source, declarations, flatMap_names_ofDefinition,
    namesWhere_append, namesWhere_flatMap, values_aliasStatements, values_statements, aliases]

theorem append_ne_self (name : String) {suffix : String} (long : suffix ≠ "") :
    name ++ suffix ≠ name := by
  intro same
  have length := congrArg String.length same
  rw [String.length_append] at length
  exact long (String.length_eq_zero_iff.mp (by omega))

/-- An object's own names are distinct. -/
theorem nodup_own (m : DefinitionModule) : (m.partNames ++ [m.name]).Nodup := by
  have required : m.name ++ "R" ≠ m.name := append_ne_self m.name (by decide)
  have optional : m.name ++ "O" ≠ m.name := append_ne_self m.name (by decide)
  have parts : m.name ++ "R" ≠ m.name ++ "O" := by
    intro same
    exact absurd ((String.append_right_inj m.name).mp same) (by decide)
  unfold partNames
  split <;> simp [required, optional, parts]

/-- No alias is imported or one of the definition's own names, and no part of an object is imported.
-/
structure Separate (m : DefinitionModule) : Prop where
  aliases_imports : ∀ a ∈ Assoc.keys m.context.aliases, a ∉ m.context.imports
  aliases_own : ∀ a ∈ Assoc.keys m.context.aliases, a ∉ m.partNames ++ [m.name]
  parts_imports : ∀ part ∈ m.partNames, part ∉ m.context.imports

/-- Where nothing is hoisted and there are no parts, nothing can clash. -/
theorem separate_of_ne_object {m : DefinitionModule} (other : m.kind ≠ .object)
    (aliases : m.context.aliases = []) : m.Separate := by
  have parts : m.partNames = [] := by simp [partNames, other]
  refine ⟨?_, ?_, ?_⟩
  · simp [aliases, Assoc.keys]
  · simp [aliases, Assoc.keys]
  · simp [parts]

theorem nodup_identifiers_iff_separate (definitions : Definitions) {m : DefinitionModule}
    (imports : m.context.imports.Nodup) (own : m.name ∉ m.context.imports)
    (aliases : (Assoc.keys m.context.aliases).Nodup) :
    (m.source definitions).identifiers.Nodup ↔ m.Separate := by
  rw [identifiers_source, List.nodup_append, List.nodup_append]
  constructor
  · rintro ⟨_, ⟨_, _, apartOwn⟩, apart⟩
    refine ⟨?_, ?_, ?_⟩
    · intro a declared imported
      exact apart a imported a (List.mem_append_left _ declared) rfl
    · intro a declared owned
      exact apartOwn a declared a owned rfl
    · intro part owned imported
      exact apart part imported part
        (List.mem_append_right _ (List.mem_append_left _ owned)) rfl
  · intro separate
    refine ⟨imports, ⟨aliases, m.nodup_own, ?_⟩, ?_⟩
    · rintro a declared _ owned rfl
      exact separate.aliases_own a declared owned
    · rintro a imported _ other rfl
      rcases List.mem_append.mp other with declared | owned
      · exact separate.aliases_imports a declared imported
      · rcases List.mem_append.mp owned with part | name
        · exact separate.parts_imports a part imported
        · rw [List.mem_singleton.mp name] at imported
          exact own imported

end DefinitionModule

/-- The module of a definition is always written. Its imports are distinct and without the
definition itself, and so are its aliases, which stem from hoisted properties of an object. All
names at its top are distinct exactly when no alias is imported or one of the object's own names and
no part of the object is imported; that is so of every module but that of an object. -/
theorem identifiers_distinct_iff (o : Options) (definitions : Definitions) (name : String)
    (d : Definition) :
    let m := DefinitionModule.of o definitions name d
    definitionFile o definitions name d = .ok (m.source definitions).file ∧
      (m.source definitions).identifiers =
        m.context.imports ++ (Assoc.keys m.context.aliases ++ (m.partNames ++ [name])) ∧
      m.context.imports.Nodup ∧ name ∉ m.context.imports ∧
      (Assoc.keys m.context.aliases).Nodup ∧
      (∀ a ∈ Assoc.keys m.context.aliases, moduleKind definitions name d = .object ∧
        ∃ property ∈ d.properties, isHoisted property.2 ∧
          ∃ n, a = Context.variant (name ++ Text.pascalCase property.1) n) ∧
      ((m.source definitions).identifiers.Nodup ↔ m.Separate) ∧
      (moduleKind definitions name d ≠ .object → m.Separate) := by
  intro m
  have file := definitionFile_eq o definitions name d
  have imports := DefinitionModule.nodup_imports o definitions name d
  have own := DefinitionModule.name_notMem_imports o definitions name d
  have aliases := DefinitionModule.nodup_aliases o definitions name d
  have stem := fun a =>
    DefinitionModule.exists_property_of_mem_aliases (a := a) o definitions name d
  refine ⟨file, m.identifiers_source definitions, imports, own, aliases, stem,
    DefinitionModule.nodup_identifiers_iff_separate definitions imports own aliases, ?_⟩
  intro other
  apply DefinitionModule.separate_of_ne_object other
  rw [DefinitionModule.context_of]
  exact DefinitionModule.aliases_gathered o definitions name d other

end Emit

open Emit

/-- An enumeration in place, as the type of a property. -/
def Sample.mood : Definition :=
  { Definition.ofType .string with enumeration := some ⟨[.str "calm"], false⟩ }

/-- An object with a property that is hoisted, and one that refers to a definition. -/
def Sample.pet (used : String) : Definition :=
  { Definition.ofType .object with
    properties := [("mood", .inline Sample.mood), ("before", .ref used)] }

def Sample.pets (used : String) : Definitions :=
  [("Pet", Sample.pet used), (used, .ofType .string)]

theorem Sample.moduleKind_pet {used : String} (other : used ≠ "Pet") :
    moduleKind (Sample.pets used) "Pet" (Sample.pet used) = .object := by
  have names : (Sample.pet used).names = [used] := rfl
  have none : (Definition.ofType .string).names = [] := rfl
  have known : Assoc.get? used (Sample.pets used) = some (.ofType .string) := by
    simp [Sample.pets, Assoc.get?, other.symm]
  have acyclic : isRecursive (Sample.pets used) "Pet" (Sample.pet used) = false := by
    rw [Bool.eq_false_iff, ne_eq, isRecursive_iff]
    rintro ⟨first, member, path⟩
    rw [names, List.mem_singleton] at member
    rcases path.cases_head with same | ⟨next, refers, _⟩
    · exact other (member ▸ same)
    · rw [member, refers_iff known, none] at refers
      cases refers
  rw [moduleKind, acyclic]
  rfl

/-- What the object's module has at its top, whatever definition it refers to. -/
theorem Sample.identifiers_pet {used : String} (other : used ≠ "Pet") :
    ((DefinitionModule.of {} (Sample.pets used) "Pet" (Sample.pet used)).source
      (Sample.pets used)).identifiers = [used, "PetMood", "PetR", "PetO", "Pet"] := by
  have kind := Sample.moduleKind_pet other
  have gathered : DefinitionModule.gathered {} (Sample.pets used) "Pet" (Sample.pet used) =
      { imports := [used], aliases := [("PetMood", "t.keyof(\x7b \"calm\": null \x7d)")] } := by
    rw [DefinitionModule.gathered, kind]
    rfl
  have imports : [used].filter (· != "Pet") = [used] := by simp [other]
  have parts : (DefinitionModule.of {} (Sample.pets used) "Pet" (Sample.pet used)).partNames =
      ["PetR", "PetO"] := by
    have object : (DefinitionModule.of {} (Sample.pets used) "Pet" (Sample.pet used)).kind =
      .object := kind
    rw [DefinitionModule.partNames, if_pos object]
    rfl
  rw [DefinitionModule.identifiers_source, DefinitionModule.context_of, gathered, imports, parts]
  rfl

/-- Where the definition that is referred to has a name of its own, all names are distinct. -/
theorem identifiers_distinct_pet :
    moduleKind (Sample.pets "Mood") "Pet" (Sample.pet "Mood") = .object ∧
      ((DefinitionModule.of {} (Sample.pets "Mood") "Pet" (Sample.pet "Mood")).source
        (Sample.pets "Mood")).identifiers = ["Mood", "PetMood", "PetR", "PetO", "Pet"] ∧
      (DefinitionModule.of {} (Sample.pets "Mood") "Pet" (Sample.pet "Mood")).Separate := by
  have other : "Mood" ≠ "Pet" := by decide
  have names := Sample.identifiers_pet other
  obtain ⟨_, _, _, _, _, _, distinct, _⟩ :=
    identifiers_distinct_iff {} (Sample.pets "Mood") "Pet" (Sample.pet "Mood")
  refine ⟨Sample.moduleKind_pet other, names, distinct.mp ?_⟩
  rw [names]
  decide

/-- An alias takes the name of an import: the definition that is referred to is called like it. -/
theorem alias_clashes :
    definitionFile {} (Sample.pets "PetMood") "Pet" (Sample.pet "PetMood") =
        .ok ((DefinitionModule.of {} (Sample.pets "PetMood") "Pet" (Sample.pet "PetMood")).source
          (Sample.pets "PetMood")).file ∧
      ¬ ((DefinitionModule.of {} (Sample.pets "PetMood") "Pet" (Sample.pet "PetMood")).source
        (Sample.pets "PetMood")).identifiers.Nodup := by
  have other : "PetMood" ≠ "Pet" := by decide
  refine ⟨definitionFile_eq _ _ _ _, ?_⟩
  rw [Sample.identifiers_pet other]
  decide

end ApiCodec

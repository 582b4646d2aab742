import ApiCodec.Emit.DefinitionModule
import ApiCodec.Proofs.Flatten.Names

set_option autoImplicit false

namespace ApiCodec.Emit

/-- Names that differ only in their numbers are the same for one number. -/
theorem numbered_injective (name : String) :
    Function.Injective fun n : Nat => name ++ toString n := by
  intro m n same
  have digits := congrArg String.toList ((String.append_right_inj name).mp same)
  change (Nat.repr m).toList = (Nat.repr n).toList at digits
  rw [Nat.toList_repr, Nat.toList_repr] at digits
  have value := congrArg (Nat.ofDigitChars 10 · 0) digits
  simpa only [Nat.ofDigitChars_ten_toDigits] using value

namespace Context

variable {ctx : Context}

/-- Imports stand in order, and aliases have different names. -/
structure Tidy (ctx : Context) : Prop where
  imports : ctx.imports.Pairwise (· < ·)
  aliases : (Assoc.keys ctx.aliases).Nodup

theorem tidy_empty : empty.Tidy := ⟨List.Pairwise.nil, List.nodup_nil⟩

theorem mem_importAll {names : List String} {name : String} :
    name ∈ (ctx.importAll names).imports ↔ name ∈ ctx.imports ∨ name ∈ names :=
  NameSet.mem_union

@[simp] theorem aliases_importAll (names : List String) :
    (ctx.importAll names).aliases = ctx.aliases := rfl

@[simp] theorem imports_declare (name codec : String) :
    (ctx.declare name codec).imports = ctx.imports := by
  simp only [declare]
  split <;> rfl

/-- A codec that is declared adds its name, unless the name is there. -/
theorem keys_declare (name codec : String) :
    Assoc.keys (ctx.declare name codec).aliases =
      addName (Assoc.keys ctx.aliases) (ctx.aliasName name codec) := by
  have known : (Assoc.keys ctx.aliases).contains (ctx.aliasName name codec) =
      Assoc.has (ctx.aliasName name codec) ctx.aliases := by
    rw [Bool.eq_iff_iff, Assoc.has_iff, List.contains_iff_mem]
  simp only [declare, addName, known]
  split
  · rfl
  · simp [Assoc.keys]

/-- A codec is declared under the name it asks for, or under that name with a number. -/
theorem exists_variant (ctx : Context) (name codec : String) :
    ∃ n, ctx.aliasName name codec = variant name n := by
  unfold aliasName
  cases found : (ctx.variants name).find? (ctx.allows codec) with
  | none => exact ⟨0, rfl⟩
  | some chosen =>
      obtain ⟨n, _, same⟩ := List.mem_map.mp (List.mem_of_find?_eq_some found)
      exact ⟨n, same.symm⟩

def Within (names : List String) (ctx : Context) : Prop := ∀ name ∈ ctx.imports, name ∈ names

theorem within_empty (names : List String) : empty.Within names := by
  intro name member
  cases member

theorem Within.importAll {names added : List String} (within : ctx.Within names)
    (inside : ∀ name ∈ added, name ∈ names) : (ctx.importAll added).Within names := by
  intro name member
  rcases mem_importAll.mp member with known | new
  · exact within name known
  · exact inside name new

theorem Within.declare {names : List String} (within : ctx.Within names) (name codec : String) :
    (ctx.declare name codec).Within names := by
  intro other member
  rw [imports_declare] at member
  exact within other member

theorem Tidy.importAll (tidy : ctx.Tidy) (names : List String) : (ctx.importAll names).Tidy :=
  ⟨NameSet.pairwise_union tidy.imports, tidy.aliases⟩

theorem nodup_keys_declare (distinct : (Assoc.keys ctx.aliases).Nodup) (name codec : String) :
    (Assoc.keys (ctx.declare name codec).aliases).Nodup := by
  rw [keys_declare]
  exact nodup_addName distinct

theorem Tidy.declare (tidy : ctx.Tidy) (name codec : String) : (ctx.declare name codec).Tidy :=
  ⟨by simpa using tidy.imports, nodup_keys_declare tidy.aliases name codec⟩

end Context

variable {o : Options} {owner : String} {required : List String}
  {properties : List (String × Node)}

/-- What each import of a property's codec and each declaration of a hoisted codec keeps holds after
all properties. -/
theorem hoistedProperties_keeps {keeps : Context → Prop}
    (imports : ∀ ctx, ∀ property ∈ properties, keeps ctx →
      keeps (ctx.importAll (nodeCodec o property.2).imports))
    (aliases : ∀ ctx, ∀ property ∈ properties, isHoisted property.2 → keeps ctx →
      keeps (ctx.declare (owner ++ Text.pascalCase property.1) (nodeCodec o property.2).text))
    {ctx : Context} (start : keeps ctx) :
    keeps (hoistedProperties o owner required ctx properties).2 := by
  induction properties generalizing ctx with
  | nil => exact start
  | cons property rest ih =>
      obtain ⟨name, node⟩ := property
      have there : (name, node) ∈ (name, node) :: rest := List.mem_cons_self
      have imported : keeps (ctx.importAll (nodeCodec o node).imports) :=
        imports ctx (name, node) there start
      have later : ∀ {ctx}, keeps ctx → keeps (hoistedProperties o owner required ctx rest).2 :=
        ih (fun ctx other member => imports ctx other (List.mem_cons_of_mem _ member))
          (fun ctx other member => aliases ctx other (List.mem_cons_of_mem _ member))
      unfold hoistedProperties
      cases hoisted : isHoisted node with
      | true =>
          have declared := aliases _ (name, node) there hoisted imported
          exact later declared
      | false => exact later imported

/-- Each alias has a name that an owner and one of its hoisted properties make up, perhaps with a
number after it. -/
def Context.NamedAfter (owner : String) (properties : List (String × Node)) (ctx : Context) :
    Prop :=
  ∀ name ∈ Assoc.keys ctx.aliases, ∃ property ∈ properties, isHoisted property.2 ∧
    ∃ n, name = variant (owner ++ Text.pascalCase property.1) n

theorem namedAfter_hoistedProperties :
    (hoistedProperties o owner required .empty properties).2.NamedAfter owner properties := by
  apply hoistedProperties_keeps
  · intro ctx property _ before
    exact before
  · intro ctx property there hoisted before name member
    rw [Context.keys_declare, mem_addName] at member
    rcases member with known | rfl
    · exact before name known
    · have chosen := ctx.exists_variant (owner ++ Text.pascalCase property.1)
        (nodeCodec o property.2).text
      exact ⟨property, there, hoisted, chosen⟩
  · intro name member
    cases member

theorem tidy_hoistedProperties :
    (hoistedProperties o owner required .empty properties).2.Tidy :=
  hoistedProperties_keeps (fun _ _ _ tidy => tidy.importAll _)
    (fun _ _ _ _ tidy => tidy.declare _ _) Context.tidy_empty

/-- The imports of an object are among the names that its properties' codecs are. -/
theorem within_hoistedProperties {names : List String}
    (inside : ∀ property ∈ properties, ∀ name ∈ (nodeCodec o property.2).imports, name ∈ names) :
    (hoistedProperties o owner required .empty properties).2.Within names :=
  hoistedProperties_keeps (fun _ property there within => within.importAll (inside property there))
    (fun _ _ _ _ within => within.declare _ _) (Context.within_empty names)

end ApiCodec.Emit

import ApiCodec.Proofs.Emit.Runs

set_option autoImplicit false

namespace ApiCodec

namespace Emit

open Context (variant)

namespace Context

variable {ctx : Context} {name codec : String}

def Binds (ctx : Context) (name codec : String) : Prop :=
  ∀ other, (name, other) ∈ ctx.aliases ↔ other = codec

theorem binds_of_get? (distinct : (Assoc.keys ctx.aliases).Nodup)
    (known : Assoc.get? name ctx.aliases = some codec) : ctx.Binds name codec := by
  intro other
  constructor
  · intro member
    rw [Assoc.get?_of_mem distinct member] at known
    exact Option.some.inj known
  · rintro rfl
    exact Assoc.mem_of_get? known

end Context

/-- A property without an owner. -/
def plainProperty (o : Options) (required : List String) (entry : String × Node) : Property :=
  { key := propertyKey o entry.1
    codec := nodeCodec o entry.2
    required := required.contains entry.1 }

theorem propertyCodecs_eq_map (o : Options) (required : List String)
    (properties : List (String × Node)) :
    propertyCodecs o required properties = properties.map (plainProperty o required) := by
  induction properties with
  | nil => rfl
  | cons entry rest ih => rw [propertyCodecs, ih, List.map_cons, plainProperty]

/-- The name that a property's codec asks for. -/
def aliasFor (owner : String) (entry : String × Node) : String :=
  owner ++ Text.pascalCase entry.1

section

variable (o : Options) (owner : String) (required : List String) (ctx : Context)
  (entry : String × Node)

def hoistedProperty : Property × Context :=
  let plain := plainProperty o required entry
  let ctx := ctx.importAll plain.codec.imports
  if isHoisted entry.2 then
    ({ plain with codec := .plain (ctx.aliasName (aliasFor owner entry) plain.codec.text) },
      ctx.declare (aliasFor owner entry) plain.codec.text)
  else (plain, ctx)

theorem hoistedProperties_cons (rest : List (String × Node)) :
    hoistedProperties o owner required ctx (entry :: rest) =
      let first := hoistedProperty o owner required ctx entry
      let others := hoistedProperties o owner required first.2 rest
      (first.1 :: others.1, others.2) := by
  obtain ⟨name, node⟩ := entry
  rw [hoistedProperties]
  cases hoisted : isHoisted node <;> simp [hoistedProperty, plainProperty, aliasFor, hoisted]

/-- How a property with an owner stands beside the same without one: the codec of an enumeration in
place has a name that asks for the owner's, and any other codec is the same. -/
structure Stands (final : Context) (p : Property) : Prop where
  key : p.key = propertyKey o entry.1
  required : p.required = required.contains entry.1
  hoisted : isHoisted entry.2 → ∃ n, p.codec = .plain (variant (aliasFor owner entry) n) ∧
    Assoc.get? (variant (aliasFor owner entry) n) final.aliases = some (nodeCodec o entry.2).text
  inPlace : isHoisted entry.2 = false → p.codec = nodeCodec o entry.2

variable {o owner required ctx entry}

theorem Stands.grows {now final : Context} {p : Property}
    (stands : Stands o owner required entry now p) (grows : now.Grows final) :
    Stands o owner required entry final p := by
  refine ⟨stands.key, stands.required, fun hoisted => ?_, stands.inPlace⟩
  obtain ⟨n, written, known⟩ := stands.hoisted hoisted
  exact ⟨n, written, grows.get? known⟩

/-- Where no name is declared twice, the codec of an enumeration is all that its name stands for. -/
theorem Stands.binds {final : Context} {p : Property}
    (stands : Stands o owner required entry final p)
    (distinct : (Assoc.keys final.aliases).Nodup) (hoisted : isHoisted entry.2) :
    ∃ n, p.codec = .plain (variant (aliasFor owner entry) n) ∧
      final.Binds p.codec.text (nodeCodec o entry.2).text := by
  obtain ⟨n, written, known⟩ := stands.hoisted hoisted
  rw [written]
  exact ⟨n, rfl, Context.binds_of_get? distinct known⟩

theorem stands_hoistedProperty :
    Stands o owner required entry (hoistedProperty o owner required ctx entry).2
      (hoistedProperty o owner required ctx entry).1 := by
  unfold hoistedProperty
  split
  · rename_i which
    let now := ctx.importAll (nodeCodec o entry.2).imports
    obtain ⟨n, chosen⟩ := now.exists_variant (aliasFor owner entry) (nodeCodec o entry.2).text
    have known := now.get?_declare (aliasFor owner entry) (nodeCodec o entry.2).text
    rw [chosen] at known
    refine ⟨rfl, rfl, fun _ => ⟨n, congrArg Expr.plain chosen, known⟩, fun inPlace => ?_⟩
    rw [which] at inPlace
    cases inPlace
  · rename_i which
    exact ⟨rfl, rfl, fun hoisted => absurd hoisted which, fun _ => rfl⟩

theorem imports_hoistedProperty :
    (hoistedProperty o owner required ctx entry).2.imports =
      NameSet.union ctx.imports (nodeCodec o entry.2).imports := by
  unfold hoistedProperty
  split
  · exact Context.imports_declare _ _
  · rfl

end

section

variable (o : Options) (owner : String) (required : List String)

/-- What is bound before the properties stays bound. -/
theorem grows_hoistedProperties (ctx : Context) (properties : List (String × Node)) :
    ctx.Grows (hoistedProperties o owner required ctx properties).2 :=
  hoistedProperties_keeps (fun _ _ _ grows => grows)
    (fun now _ _ _ grows => grows.trans (now.grows_declare _ _)) (Context.Grows.refl ctx)

theorem nodup_aliases_hoistedProperties {ctx : Context}
    (distinct : (Assoc.keys ctx.aliases).Nodup) (properties : List (String × Node)) :
    (Assoc.keys (hoistedProperties o owner required ctx properties).2.aliases).Nodup :=
  @hoistedProperties_keeps o owner required properties (fun now => (Assoc.keys now.aliases).Nodup)
    (fun _ _ _ before => before)
    (fun _ _ _ _ before => Context.nodup_keys_declare before _ _) ctx distinct

/-- Whatever is declared for later properties, a codec stands under the name that it got. -/
theorem stands_hoistedProperties (ctx : Context) (properties : List (String × Node)) :
    List.Forall₂
      (fun entry p => Stands o owner required entry
        (hoistedProperties o owner required ctx properties).2 p)
      properties (hoistedProperties o owner required ctx properties).1 := by
  induction properties generalizing ctx with
  | nil => exact List.Forall₂.nil
  | cons entry rest ih =>
      rw [hoistedProperties_cons]
      have grows := grows_hoistedProperties o owner required
        (hoistedProperty o owner required ctx entry).2 rest
      exact List.Forall₂.cons (stands_hoistedProperty.grows grows) (ih _)

theorem imports_hoistedProperties (ctx : Context) (properties : List (String × Node)) :
    (hoistedProperties o owner required ctx properties).2.imports =
      NameSet.union ctx.imports
        (properties.flatMap fun entry => (nodeCodec o entry.2).imports) := by
  induction properties generalizing ctx with
  | nil => rfl
  | cons entry rest ih =>
      rw [hoistedProperties_cons, ih, imports_hoistedProperty]
      simp only [NameSet.union, List.flatMap_cons, List.foldl_append]

end

/-- Properties with an owner have the keys and the required flags of those without one, in the same
order, and leave the same imports. Each codec is the same or stands under a name that in the end is
bound to it and to nothing else; the latter are the enumerations in place, and their names ask for
the owner's. -/
theorem hoisting_is_transparent (o : Options) (owner : String) (ctx : Context) (d : Definition)
    (distinct : (Assoc.keys ctx.aliases).Nodup) :
    let hoisted := propertiesOf o (some owner) ctx d
    let plain := propertiesOf o none ctx d
    List.Forall₂
        (fun p q => p.key = q.key ∧ p.required = q.required ∧
          (p.codec = q.codec ∨ hoisted.2.Binds p.codec.text q.codec.text))
        hoisted.1 plain.1 ∧
      hoisted.2.imports = plain.2.imports ∧
      List.Forall₂
        (fun entry p => if isHoisted entry.2 then
            ∃ n, p.codec = .plain (variant (owner ++ Text.pascalCase entry.1) n) ∧
              hoisted.2.Binds p.codec.text (nodeCodec o entry.2).text
          else p.codec = nodeCodec o entry.2)
        d.properties hoisted.1 := by
  have stands := stands_hoistedProperties o owner d.required ctx d.properties
  have imports := imports_hoistedProperties o owner d.required ctx d.properties
  have bound := nodup_aliases_hoistedProperties o owner d.required distinct d.properties
  simp only [propertiesOf, propertyCodecs_eq_map]
  refine ⟨?_, ?_, ?_⟩
  · rw [List.forall₂_map_right_iff]
    refine stands.flip.imp fun p entry stands => ⟨stands.key, stands.required, ?_⟩
    cases which : isHoisted entry.2 with
    | false => exact Or.inl (stands.inPlace which)
    | true =>
        obtain ⟨_, _, binds⟩ := stands.binds bound which
        exact Or.inr binds
  · rw [imports, List.flatMap_map]
    rfl
  · refine stands.imp fun entry p stands => ?_
    cases which : isHoisted entry.2 with
    | false => exact stands.inPlace which
    | true => exact stands.binds bound which

end Emit

open Emit

def Sample.feeling (value : String) : Node :=
  .inline { Definition.ofType .string with enumeration := some ⟨[.str value], false⟩ }

/-- Enumerations whose names ask for one name, two of them with the same codec. -/
def Sample.feelings : Definition :=
  { Definition.ofType .object with
    properties :=
      [("mood", Sample.feeling "calm"), ("owner", .ref "Person"), ("Mood", Sample.feeling "wild"),
       ("mood_", Sample.feeling "calm")]
    required := ["owner"] }

/-- A context in which the name is taken already. -/
def Sample.moody : Context := { imports := ["Tag"], aliases := [("PetMood", "t.null")] }

/-- Three enumerations share two names, none of which is the one that was taken before. -/
theorem hoisting_is_transparent_feelings :
    (Assoc.keys Sample.moody.aliases).Nodup ∧
      (propertiesOf {} (some "Pet") Sample.moody Sample.feelings).1.map (·.codec.text) =
        ["PetMood2", "Person", "PetMood3", "PetMood2"] ∧
      (propertiesOf {} (some "Pet") Sample.moody Sample.feelings).2.imports =
        (propertiesOf {} none Sample.moody Sample.feelings).2.imports ∧
      (propertiesOf {} (some "Pet") Sample.moody Sample.feelings).2.Binds "PetMood2"
        (nodeCodec {} (Sample.feeling "calm")).text := by
  have distinct : (Assoc.keys Sample.moody.aliases).Nodup := by decide
  have names : (propertiesOf {} (some "Pet") Sample.moody Sample.feelings).1.map (·.codec.text) =
      ["PetMood2", "Person", "PetMood3", "PetMood2"] := by
    decide +kernel
  obtain ⟨_, imports, stand⟩ :=
    hoisting_is_transparent {} "Pet" Sample.moody Sample.feelings distinct
  refine ⟨distinct, names, imports, ?_⟩
  obtain ⟨first, others, mood, _, listed⟩ := List.forall₂_cons_left_iff.mp stand
  obtain ⟨_, _, binds⟩ := mood
  have chosen : first.codec.text = "PetMood2" := by
    rw [listed] at names
    exact (List.cons.inj names).1
  rwa [chosen] at binds

end ApiCodec

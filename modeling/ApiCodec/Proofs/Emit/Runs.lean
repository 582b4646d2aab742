import ApiCodec.Proofs.Emit.Contexts
import Mathlib.Data.List.Nodup
import Mathlib.Data.Nat.Find

set_option autoImplicit false

namespace ApiCodec.Emit

namespace Context

theorem variant_eq (name : String) (n : Nat) :
    variant name n = name ++ if n = 0 then "" else Nat.repr (n + 1) := by
  unfold variant
  split
  · exact (String.append_empty).symm
  · rfl

theorem variant_injective (name : String) : Function.Injective (variant name) := by
  intro m n same
  rw [variant_eq, variant_eq, String.append_right_inj] at same
  split at same
  · split at same
    · omega
    · exact absurd same.symm Nat.repr_ne_empty
  · split at same
    · exact absurd same Nat.repr_ne_empty
    · have next : m + 1 = n + 1 := numbered_injective name (congrArg (name ++ ·) same)
      omega

variable {ctx later : Context} {name codec : String} {n : Nat}

/-- A name is refused to a codec if it stands for another one. -/
theorem allows_eq_false_iff :
    ctx.allows codec name = false ↔
      ∃ other, Assoc.get? name ctx.aliases = some other ∧ other ≠ codec := by
  unfold allows
  cases Assoc.get? name ctx.aliases <;> simp

/-- The variant of a name that is a codec's: the first one that is not refused. -/
structure First (ctx : Context) (name codec : String) (n : Nat) : Prop where
  allowed : ctx.allows codec (variant name n)
  refused : ∀ m < n, ctx.allows codec (variant name m) = false

/-- There are fewer aliases than variants to try, so not all of these are refused. -/
theorem exists_allowed (ctx : Context) (name codec : String) :
    ∃ n < ctx.aliases.length + 1, ctx.allows codec (variant name n) := by
  by_contra none
  have taken : ctx.variants name ⊆ Assoc.keys ctx.aliases := by
    intro key member
    obtain ⟨n, small, rfl⟩ := List.mem_map.mp member
    have refused : ctx.allows codec (variant name n) = false := by
      rw [← Bool.not_eq_true]
      exact fun allowed => none ⟨n, List.mem_range.mp small, allowed⟩
    obtain ⟨other, known, _⟩ := allows_eq_false_iff.mp refused
    exact Assoc.mem_keys_iff.mpr ⟨other, known⟩
  have distinct : (ctx.variants name).Nodup :=
    List.Nodup.map (variant_injective name) List.nodup_range
  have short := distinct.length_le_of_subset taken
  rw [variants, List.length_map, List.length_range, Assoc.keys, List.length_map] at short
  omega

theorem exists_first (ctx : Context) (name codec : String) : ∃ n, ctx.First name codec n := by
  have free : ∃ n, ctx.allows codec (variant name n) := by
    obtain ⟨n, _, allowed⟩ := ctx.exists_allowed name codec
    exact ⟨n, allowed⟩
  refine ⟨Nat.find free, Nat.find_spec free, fun m before => ?_⟩
  rw [← Bool.not_eq_true]
  exact Nat.find_min free before

/-- The search among as many variants as there are aliases, and one more, finds the first one. -/
theorem First.aliasName_eq (first : ctx.First name codec n) :
    ctx.aliasName name codec = variant name n := by
  obtain ⟨m, small, allowed⟩ := ctx.exists_allowed name codec
  have within : n < ctx.aliases.length + 1 := by
    refine Nat.lt_of_le_of_lt (Nat.le_of_not_lt fun before => ?_) small
    rw [first.refused m before] at allowed
    cases allowed
  have found : (List.range (ctx.aliases.length + 1)).find? (ctx.allows codec ∘ variant name) =
      some n := by
    rw [List.find?_range_eq_some]
    refine ⟨first.allowed, List.mem_range.mpr within, fun m before => ?_⟩
    rw [Function.comp_apply, first.refused m before, Bool.not_false]
  rw [aliasName, variants, List.find?_map, found]
  rfl

/-- A context has all aliases of another, and perhaps more after them. -/
def Grows (ctx later : Context) : Prop := ctx.aliases <+: later.aliases

theorem Grows.refl (ctx : Context) : ctx.Grows ctx := List.prefix_rfl

theorem Grows.trans {last : Context} (grows : ctx.Grows later) (more : later.Grows last) :
    ctx.Grows last :=
  List.IsPrefix.trans grows more

theorem Grows.get? (grows : ctx.Grows later) (known : Assoc.get? name ctx.aliases = some codec) :
    Assoc.get? name later.aliases = some codec := by
  obtain ⟨added, same⟩ := grows
  rw [← same, Assoc.get?_append, known, Option.some_or]

theorem grows_declare (ctx : Context) (name codec : String) : ctx.Grows (ctx.declare name codec) := by
  simp only [Grows, declare]
  split
  · exact List.prefix_rfl
  · exact List.prefix_append _ _

def Holds (ctx : Context) (name codec : String) : Prop :=
  Assoc.get? (ctx.aliasName name codec) ctx.aliases = some codec

theorem First.grows (first : ctx.First name codec n) (grows : ctx.Grows later)
    (bound : Assoc.get? (variant name n) later.aliases = some codec) : later.First name codec n := by
  refine ⟨?_, fun m before => ?_⟩
  · simp [allows, bound]
  · obtain ⟨other, known, differs⟩ := allows_eq_false_iff.mp (first.refused m before)
    exact allows_eq_false_iff.mpr ⟨other, grows.get? known, differs⟩

/-- A codec that is declared is bound to its name. -/
theorem get?_declare (ctx : Context) (name codec : String) :
    Assoc.get? (ctx.aliasName name codec) (ctx.declare name codec).aliases = some codec := by
  obtain ⟨n, first⟩ := ctx.exists_first name codec
  have allowed := first.allowed
  rw [← first.aliasName_eq, allows] at allowed
  simp only [declare]
  cases known : Assoc.get? (ctx.aliasName name codec) ctx.aliases with
  | none =>
      have absent : ¬ Assoc.has (ctx.aliasName name codec) ctx.aliases := by
        rw [Assoc.has_iff]
        exact Assoc.get?_eq_none_iff.mp known
      rw [if_neg absent, Assoc.get?_append, known]
      simp [Assoc.get?]
  | some other =>
      rw [known, beq_iff_eq] at allowed
      have present : Assoc.has (ctx.aliasName name codec) ctx.aliases :=
        Assoc.has_iff.mpr (Assoc.mem_keys_iff.mpr ⟨other, known⟩)
      rw [if_pos present, known, allowed]

/-- Once a codec is declared, it asks for the name and gets the same as before, whatever else is
declared meanwhile. -/
theorem aliasName_of_declared (grows : (ctx.declare name codec).Grows later) :
    later.aliasName name codec = ctx.aliasName name codec := by
  obtain ⟨n, first⟩ := ctx.exists_first name codec
  have bound := grows.get? (ctx.get?_declare name codec)
  rw [first.aliasName_eq] at bound ⊢
  exact (first.grows ((ctx.grows_declare name codec).trans grows) bound).aliasName_eq

theorem holds_of_declared (grows : (ctx.declare name codec).Grows later) : later.Holds name codec := by
  rw [Holds, aliasName_of_declared grows]
  exact grows.get? (ctx.get?_declare name codec)

theorem Holds.declare_eq (holds : ctx.Holds name codec) : ctx.declare name codec = ctx := by
  have present : Assoc.has (ctx.aliasName name codec) ctx.aliases :=
    Assoc.has_iff.mpr (Assoc.mem_keys_iff.mpr ⟨codec, holds⟩)
  simp only [declare, if_pos present]

/-- Declares codecs one after the other. -/
def declareAll (ctx : Context) (aliases : List (String × String)) : Context :=
  aliases.foldl (fun ctx (name, codec) => ctx.declare name codec) ctx

theorem merge_eq (ctx other : Context) :
    ctx.merge other = (ctx.importAll other.imports).declareAll other.aliases := rfl

@[simp] theorem declareAll_nil (ctx : Context) : ctx.declareAll [] = ctx := rfl

@[simp] theorem declareAll_cons (ctx : Context) (entry : String × String)
    (rest : List (String × String)) :
    ctx.declareAll (entry :: rest) = (ctx.declare entry.1 entry.2).declareAll rest := rfl

/-- What each declaration keeps holds after all of them. -/
theorem declareAll_keeps (keeps : Context → Prop)
    (each : ∀ ctx name codec, keeps ctx → keeps (declare ctx name codec)) (start : keeps ctx)
    (aliases : List (String × String)) : keeps (ctx.declareAll aliases) := by
  induction aliases generalizing ctx with
  | nil => exact start
  | cons entry rest ih => exact ih (each ctx entry.1 entry.2 start)

theorem grows_declareAll (ctx : Context) (aliases : List (String × String)) :
    ctx.Grows (ctx.declareAll aliases) :=
  declareAll_keeps ctx.Grows (fun now name codec grows => grows.trans (now.grows_declare name codec))
    (Grows.refl ctx) aliases

/-- After a list of declarations each of them holds. -/
theorem holds_declareAll {aliases : List (String × String)} {entry : String × String}
    (member : entry ∈ aliases) (ctx : Context) : (ctx.declareAll aliases).Holds entry.1 entry.2 := by
  induction aliases generalizing ctx with
  | nil => cases member
  | cons first rest ih =>
      rw [declareAll_cons]
      rcases List.mem_cons.mp member with rfl | member
      · exact holds_of_declared (grows_declareAll _ rest)
      · exact ih member _

/-- Declarations that hold already change nothing. -/
theorem declareAll_eq_self {aliases : List (String × String)}
    (holds : ∀ entry ∈ aliases, ctx.Holds entry.1 entry.2) : ctx.declareAll aliases = ctx := by
  induction aliases with
  | nil => rfl
  | cons entry rest ih =>
      obtain ⟨first, others⟩ := List.forall_mem_cons.mp holds
      rw [declareAll_cons, first.declare_eq, ih others]

section

variable (ctx other : Context)

theorem grows_merge : ctx.Grows (ctx.merge other) :=
  grows_declareAll (ctx.importAll other.imports) other.aliases

theorem imports_merge : (ctx.merge other).imports = NameSet.union ctx.imports other.imports := by
  have kept (imports : NameSet) (start : Context) (same : start.imports = imports) :
      (start.declareAll other.aliases).imports = imports :=
    declareAll_keeps (fun now => now.imports = imports)
      (fun now name codec before => (now.imports_declare name codec).trans before) same _
  exact kept _ (ctx.importAll other.imports) rfl

variable {ctx other}

theorem mem_imports_merge {name : String} :
    name ∈ (ctx.merge other).imports ↔ name ∈ ctx.imports ∨ name ∈ other.imports := by
  rw [imports_merge, NameSet.mem_union]

theorem holds_merge {entry : String × String} (member : entry ∈ other.aliases) :
    (ctx.merge other).Holds entry.1 entry.2 :=
  holds_declareAll member (ctx.importAll other.imports)

theorem Tidy.merge (tidy : ctx.Tidy) (other : Context) : (ctx.merge other).Tidy :=
  declareAll_keeps Tidy (fun _ name codec before => before.declare name codec)
    (tidy.importAll other.imports) other.aliases

/-- What is merged already is not merged again. -/
theorem merge_merge (tidy : ctx.Tidy) : (ctx.merge other).merge other = ctx.merge other := by
  have imported : (ctx.merge other).importAll other.imports = ctx.merge other := by
    have known : ∀ name ∈ other.imports, name ∈ (ctx.merge other).imports :=
      fun name member => mem_imports_merge.mpr (Or.inr member)
    rw [importAll, NameSet.union_eq_self (tidy.merge other).imports known]
  rw [merge_eq (ctx.merge other), imported]
  exact declareAll_eq_self fun _ member => holds_merge member

end

end Context

/-- A call on a context. What is merged comes from a run of its own. -/
inductive Call
  | importName (name : String)
  | declare (name codec : String)
  | merge (calls : List Call)

mutual

def Call.apply (ctx : Context) : Call → Context
  | .importName name => ctx.importName name
  | .declare name codec => ctx.declare name codec
  | .merge calls => ctx.merge (Context.after .empty calls)

def Context.after (ctx : Context) : List Call → Context
  | [] => ctx
  | call :: rest => Context.after (call.apply ctx) rest

end

namespace Context

variable {ctx : Context}

/-- What imports, declarations and merges keep holds after every run of them. -/
theorem after_keeps {keeps : Context → Prop}
    (imports : ∀ ctx name, keeps ctx → keeps (importName ctx name))
    (aliases : ∀ ctx name codec, keeps ctx → keeps (declare ctx name codec))
    (merges : ∀ ctx other, keeps ctx → keeps (merge ctx other)) (start : keeps ctx)
    (calls : List Call) : keeps (ctx.after calls) := by
  induction calls generalizing ctx with
  | nil => exact start
  | cons call rest ih =>
      apply ih
      cases call with
      | importName name => exact imports ctx name start
      | declare name codec => exact aliases ctx name codec start
      | merge calls => exact merges ctx _ start

theorem grows_after (ctx : Context) (calls : List Call) : ctx.Grows (ctx.after calls) :=
  after_keeps (fun _ _ grows => grows)
    (fun now name codec grows => grows.trans (now.grows_declare name codec))
    (fun now other grows => grows.trans (now.grows_merge other)) (Grows.refl ctx) calls

theorem tidy_after (calls : List Call) : (after .empty calls).Tidy :=
  after_keeps (fun _ name tidy => tidy.importAll [name])
    (fun _ name codec tidy => tidy.declare name codec) (fun _ other tidy => tidy.merge other)
    tidy_empty calls

/-- What becomes of a codec that is declared: it gets the first variant of its name that is not another
codec's, keeps it whatever is called later, and nothing changes when it is declared again. -/
structure Declares (ctx : Context) (name codec : String) : Prop where
  first : ∃ n, ctx.First name codec n ∧ ctx.aliasName name codec = variant name n
  bound : ∀ later,
    Assoc.get? (ctx.aliasName name codec) ((ctx.declare name codec).after later).aliases = some codec
  again : ∀ later,
    ((ctx.declare name codec).after later).aliasName name codec = ctx.aliasName name codec ∧
      ((ctx.declare name codec).after later).declare name codec = (ctx.declare name codec).after later

theorem declares (ctx : Context) (name codec : String) : ctx.Declares name codec := by
  have grows (later : List Call) := (ctx.declare name codec).grows_after later
  refine ⟨?_, fun later => ?_, fun later => ⟨?_, ?_⟩⟩
  · obtain ⟨n, first⟩ := ctx.exists_first name codec
    exact ⟨n, first, first.aliasName_eq⟩
  · exact (grows later).get? (ctx.get?_declare name codec)
  · exact aliasName_of_declared (grows later)
  · exact (holds_of_declared (grows later)).declare_eq

/-- What becomes of two contexts that are merged: the bindings of the one stay, each codec of the other
is bound to its name or a variant of it, the imports are united, and nothing changes when the other one
is merged again. -/
structure Merges (ctx other : Context) : Prop where
  kept : ∀ name codec, Assoc.get? name ctx.aliases = some codec →
    Assoc.get? name (ctx.merge other).aliases = some codec
  bound : ∀ name codec, (name, codec) ∈ other.aliases →
    ∃ n, Assoc.get? (variant name n) (ctx.merge other).aliases = some codec
  imports : ∀ name, name ∈ (ctx.merge other).imports ↔ name ∈ ctx.imports ∨ name ∈ other.imports
  again : (ctx.merge other).merge other = ctx.merge other

theorem Tidy.merges (tidy : ctx.Tidy) (other : Context) : ctx.Merges other := by
  refine ⟨fun name codec known => ?_, fun name codec member => ?_, fun name => ?_, ?_⟩
  · exact (ctx.grows_merge other).get? known
  · have holds : (ctx.merge other).Holds name codec := holds_merge member
    obtain ⟨n, same⟩ := (ctx.merge other).exists_variant name codec
    rw [Holds, same] at holds
    exact ⟨n, holds⟩
  · exact mem_imports_merge
  · exact merge_merge tidy

end Context

/-- After every run of calls aliases have different names, a codec can be declared for good under the
first variant of any name that is not another codec's, and any context can be merged for good. -/
theorem contexts_stay_consistent (calls : List Call) :
    (Assoc.keys (Context.after .empty calls).aliases).Nodup ∧
      (∀ name codec, (Context.after .empty calls).Declares name codec) ∧
      ∀ other, (Context.after .empty calls).Merges other := by
  have tidy := Context.tidy_after calls
  exact ⟨tidy.aliases, fun name codec => Context.declares _ name codec, tidy.merges⟩

/-- A name that ends in a number is passed by when it is another codec's. -/
example :
    (Context.after .empty
      [.declare "Mood2" "t.null", .declare "Mood" "t.string", .merge [.declare "Mood" "t.number"],
       .importName "Pet", .declare "Mood" "t.number"]) =
      { imports := ["Pet"]
        aliases := [("Mood2", "t.null"), ("Mood", "t.string"), ("Mood3", "t.number")] } := by
  decide

end ApiCodec.Emit

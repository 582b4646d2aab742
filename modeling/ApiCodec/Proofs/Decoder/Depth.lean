import ApiCodec.Proofs.Decoder.Conformance

set_option autoImplicit false

namespace ApiCodec

/-- What a rule concludes, it concludes from finitely many facts that hold. -/
def Backed (rule : (Node → Json → Prop) → Prop) (holds : Node → Json → Prop) : Prop :=
  ∃ premises : List (Node × Json), (∀ premise ∈ premises, holds premise.1 premise.2) ∧
    ∀ other : Node → Json → Prop, (∀ premise ∈ premises, other premise.1 premise.2) → rule other

namespace Backed

variable {rule rule' : (Node → Json → Prop) → Prop} {holds : Node → Json → Prop}

theorem outright (always : ∀ other, rule other) : Backed rule holds :=
  ⟨[], by simp, fun other _ => always other⟩

theorem map (backed : Backed rule holds) (step : ∀ other, rule other → rule' other) :
    Backed rule' holds := by
  obtain ⟨premises, known, applies⟩ := backed
  exact ⟨premises, known, fun other enough => step other (applies other enough)⟩

theorem and (left : Backed rule holds) (right : Backed rule' holds) :
    Backed (fun holds => rule holds ∧ rule' holds) holds := by
  obtain ⟨premises, known, applies⟩ := left
  obtain ⟨others, alsoKnown, alsoApplies⟩ := right
  refine ⟨premises ++ others, List.forall_mem_append.mpr ⟨known, alsoKnown⟩, ?_⟩
  intro other enough
  rw [List.forall_mem_append] at enough
  exact ⟨applies other enough.1, alsoApplies other enough.2⟩

end Backed

/-- A rule that needs finitely many premises. -/
def Finitary (rule : (Node → Json → Prop) → Prop) : Prop :=
  ∀ holds, rule holds → Backed rule holds

/-- Facts that hold at some depth each hold at one depth. -/
theorem exists_common_depth {within : Nat → Node → Json → Prop}
    (deeper : ∀ low high, low ≤ high → ∀ node value, within low node value → within high node value)
    {premises : List (Node × Json)}
    (known : ∀ premise ∈ premises, ∃ depth, within depth premise.1 premise.2) :
    ∃ depth, ∀ premise ∈ premises, within depth premise.1 premise.2 := by
  induction premises with
  | nil => exact ⟨0, by simp⟩
  | cons first rest ih =>
      rw [List.forall_mem_cons] at known
      obtain ⟨own, here⟩ := known.1
      obtain ⟨depth, all⟩ := ih known.2
      refine ⟨max own depth, List.forall_mem_cons.mpr ⟨?_, ?_⟩⟩
      · exact deeper _ _ (Nat.le_max_left own depth) _ _ here
      · intro premise inside
        exact deeper _ _ (Nat.le_max_right own depth) _ _ (all premise inside)

namespace Finitary

variable {rule : (Node → Json → Prop) → Prop}

theorem premise (node : Node) (value : Json) : Finitary fun holds => holds node value := by
  intro holds held
  refine ⟨[(node, value)], by simpa using held, ?_⟩
  intro other known
  exact known _ List.mem_cons_self

theorem forall_mem {α : Type} {items : List α} {rule : α → (Node → Json → Prop) → Prop}
    (each : ∀ item ∈ items, Finitary (rule item)) :
    Finitary fun holds => ∀ item ∈ items, rule item holds := by
  intro holds all
  induction items with
  | nil => exact .outright (by simp)
  | cons first rest ih =>
      rw [List.forall_mem_cons] at each all
      apply ((each.1 holds all.1).and (ih each.2 all.2)).map
      intro other both
      exact List.forall_mem_cons.mpr both

theorem mono (finitary : Finitary rule) {holds other : Node → Json → Prop} (held : rule holds)
    (weaker : ∀ node value, holds node value → other node value) : rule other := by
  obtain ⟨premises, known, applies⟩ := finitary holds held
  exact applies other fun premise inside => weaker _ _ (known premise inside)

/-- What follows from premises that hold at some depth each follows from premises at one depth. -/
theorem exists_depth (finitary : Finitary rule) {within : Nat → Node → Json → Prop}
    (deeper : ∀ low high, low ≤ high → ∀ node value, within low node value → within high node value)
    (held : rule fun node value => ∃ depth, within depth node value) :
    ∃ depth, rule (within depth) := by
  obtain ⟨premises, known, applies⟩ := finitary _ held
  obtain ⟨depth, all⟩ := exists_common_depth deeper known
  exact ⟨depth, applies _ all⟩

end Finitary

namespace Definition

variable (d : Definition) (value : Json)

theorem finitary_composes : Finitary fun holds => d.Composes holds value := by
  intro holds composes
  cases composes with
  | alone none => exact .outright fun _ => .alone none
  | oneOf composed inside held =>
      exact (Finitary.premise _ value holds held).map fun _ held => .oneOf composed inside held
  | allOf composed held =>
      have each := Finitary.forall_mem (fun member _ => Finitary.premise member value) holds held
      exact each.map fun _ held => .allOf composed held

theorem finitary_admits (field : String × Json) : Finitary fun holds => d.Admits holds field := by
  intro holds admits
  cases admits with
  | declared declared held =>
      exact (Finitary.premise _ field.2 holds held).map fun _ held => .declared declared held
  | additional unknown typed held =>
      exact (Finitary.premise _ field.2 holds held).map fun _ held =>
        .additional unknown typed held
  | allowed unknown flagged => exact .outright fun _ => .allowed unknown flagged
  | unsaid unknown silent => exact .outright fun _ => .unsaid unknown silent

theorem finitary_isObject : Finitary fun holds => d.IsObject holds value := by
  intro holds object
  cases object with
  | of required admitted =>
      have each := Finitary.forall_mem (fun field _ => d.finitary_admits field) holds admitted
      exact each.map fun _ admitted => .of required admitted

theorem finitary_hasShape : Finitary fun holds => d.HasShape holds value := by
  intro holds shape
  cases shape with
  | string typed length => exact .outright fun _ => .string typed length
  | integer typed whole size range => exact .outright fun _ => .integer typed whole size range
  | number typed size range => exact .outright fun _ => .number typed size range
  | boolean typed => exact .outright fun _ => .boolean typed
  | null typed => exact .outright fun _ => .null typed
  | file typed => exact .outright fun _ => .file typed
  | @array items typed count held =>
      have each : Finitary fun holds =>
          ∀ node ∈ d.items.toList, ∀ item ∈ items, holds node item :=
        Finitary.forall_mem fun node _ => Finitary.forall_mem fun item _ => .premise node item
      have backed := each holds fun node inside => held node (Option.mem_toList.mp inside)
      apply backed.map
      intro other held
      exact .array typed count fun node given => held node (Option.mem_toList.mpr given)
  | object typed object =>
      exact (d.finitary_isObject value holds object).map fun _ object => .object typed object
  | untypedObject untyped fields object =>
      exact (d.finitary_isObject value holds object).map fun _ object =>
        .untypedObject untyped fields object
  | untyped untyped bare silent => exact .outright fun _ => .untyped untyped bare silent

theorem finitary_obeys : Finitary fun holds => d.Obeys holds value := by
  intro holds obeys
  cases obeys with
  | null nullable => exact .outright fun _ => .null nullable
  | structural listed composed shaped =>
      have both := (d.finitary_composes value holds composed).and
        (d.finitary_hasShape value holds shaped)
      exact both.map fun _ both => .structural listed both.1 both.2

end Definition

namespace Node

variable {definitions : Definitions} {node : Node} {value : Json}

theorem ConformsWithin.mono {low high : Nat} (room : low ≤ high)
    (within : node.ConformsWithin definitions low value) :
    node.ConformsWithin definitions high value := by
  induction low generalizing high node value with
  | zero => cases within
  | succ low ih =>
      obtain ⟨next, rfl⟩ : ∃ next, high = next + 1 := ⟨high - 1, by omega⟩
      obtain ⟨d, means, obeys⟩ := within
      refine ⟨d, means, (d.finitary_obeys value).mono obeys ?_⟩
      intro inner part held
      exact ih (Nat.le_of_succ_le_succ room) held

theorem ConformsWithin.conforms {depth : Nat}
    (within : node.ConformsWithin definitions depth value) : node.Conforms definitions value := by
  induction depth generalizing node value with
  | zero => cases within
  | succ depth ih =>
      obtain ⟨d, means, obeys⟩ := within
      exact .of _ means obeys fun inner part held => ih held

/-- Every derivation nests finitely many definitions. -/
theorem conforms_iff_exists_within :
    node.Conforms definitions value ↔ ∃ depth, node.ConformsWithin definitions depth value := by
  constructor
  · intro conforms
    induction conforms with
    | @of node d value holds means obeys _ within =>
        have bounded := (d.finitary_obeys value).mono obeys within
        have deeper : ∀ low high, low ≤ high → ∀ (node : Node) (value : Json),
            node.ConformsWithin definitions low value →
              node.ConformsWithin definitions high value :=
          fun _ _ room _ _ => ConformsWithin.mono room
        obtain ⟨depth, obeys⟩ := (d.finitary_obeys value).exists_depth deeper bounded
        exact ⟨depth + 1, d, means, obeys⟩
  · intro within
    obtain ⟨depth, within⟩ := within
    exact within.conforms

end Node

/-- A strategy takes a body: null where none is expected, a text or bytes where they are not looked
into, or else a value that conforms to the type. -/
inductive Strategy.Takes (holds : Node → Json → Prop) : Strategy → Json → Prop
  | exact {type : String} {value : Json} (held : holds (.ref type) value) :
      Takes holds (.exact type) value
  | errorEnvelope {type : String} {value : Json} (held : holds (.ref type) value) :
      Takes holds (.errorEnvelope type) value
  | constant : Takes holds .constant .null
  | text {s : String} : Takes holds .binary (.str s)
  | bytes {items : List Json} (each : ∀ item ∈ items, ∃ byte : Nat, byte ≤ 255 ∧
      item = .num (.int byte)) : Takes holds .binary (.arr items)

namespace Strategy

/-- Whether a strategy takes a body, looking at definitions inside each other down to a depth. -/
def acceptsUpTo (definitions : Definitions) (limit : Nat) (value : Json) : Strategy → Bool
  | .exact type => (Node.ref type).fits definitions (conforms definitions limit) value
  | .errorEnvelope type => (Node.ref type).fits definitions (conforms definitions limit) value
  | .constant => accepts definitions value .constant
  | .binary => accepts definitions value .binary

theorem accepts_eq_acceptsUpTo (definitions : Definitions) (value : Json) (s : Strategy) :
    s.accepts definitions value = s.acceptsUpTo definitions depthLimit value := by
  cases s <;> rfl

theorem isByte_iff (item : Json) :
    item.isByte = true ↔ ∃ byte : Nat, byte ≤ 255 ∧ item = .num (.int byte) := by
  constructor
  · intro isByte
    unfold Json.isByte at isByte
    split at isByte
    · rename_i n
      rw [Bool.and_eq_true, decide_eq_true_eq, decide_eq_true_eq] at isByte
      exact ⟨n.toNat, by omega, by rw [Int.toNat_of_nonneg isByte.1]⟩
    · cases isByte
  · intro byte
    obtain ⟨byte, small, rfl⟩ := byte
    simp only [Json.isByte, Bool.and_eq_true, decide_eq_true_eq]
    omega

theorem acceptsUpTo_iff {definitions : Definitions} {limit : Nat} {value : Json} {s : Strategy} :
    s.acceptsUpTo definitions limit value = true ↔
      s.Takes (Node.ConformsWithin definitions limit) value := by
  constructor
  · intro accepts
    cases s with
    | exact type => exact .exact ((conforms_iff _ _ _ _).mp accepts)
    | errorEnvelope type => exact .errorEnvelope ((conforms_iff _ _ _ _).mp accepts)
    | constant =>
        cases value with
        | null => exact .constant
        | _ => cases accepts
    | binary =>
        cases value with
        | str s => exact .text
        | arr items =>
            have each : items.all Json.isByte = true := accepts
            exact .bytes fun item inside =>
              (isByte_iff item).mp (List.all_eq_true.mp each item inside)
        | _ => cases accepts
  · intro takes
    cases takes with
    | exact held => exact (conforms_iff _ _ _ _).mpr held
    | errorEnvelope held => exact (conforms_iff _ _ _ _).mpr held
    | constant => rfl
    | text => rfl
    | bytes each =>
        exact List.all_eq_true.mpr fun item inside => (isByte_iff item).mpr (each item inside)

theorem Takes.mono {holds other : Node → Json → Prop} {s : Strategy} {value : Json}
    (takes : s.Takes holds value)
    (weaker : ∀ node value, holds node value → other node value) : s.Takes other value := by
  cases takes with
  | exact held => exact .exact (weaker _ _ held)
  | errorEnvelope held => exact .errorEnvelope (weaker _ _ held)
  | constant => exact .constant
  | text => exact .text
  | bytes each => exact .bytes each

theorem takes_conforms_iff {definitions : Definitions} {s : Strategy} {value : Json} :
    s.Takes (Node.Conforms definitions) value ↔
      ∃ depth, s.Takes (Node.ConformsWithin definitions depth) value := by
  constructor
  · intro takes
    cases takes with
    | exact held =>
        obtain ⟨depth, within⟩ := Node.conforms_iff_exists_within.mp held
        exact ⟨depth, .exact within⟩
    | errorEnvelope held =>
        obtain ⟨depth, within⟩ := Node.conforms_iff_exists_within.mp held
        exact ⟨depth, .errorEnvelope within⟩
    | constant => exact ⟨0, .constant⟩
    | text => exact ⟨0, .text⟩
    | bytes each => exact ⟨0, .bytes each⟩
  · intro within
    obtain ⟨depth, takes⟩ := within
    exact takes.mono fun node value held => held.conforms

end Strategy

namespace DecoderPlan

/-- Decodes a response, looking at definitions inside each other down to a depth. -/
def decodeUpTo (plan : DecoderPlan) (definitions : Definitions) (limit status : Nat)
    (value : Json) : Except DecodeError Decoded :=
  match plan.entries.find? fun e =>
      e.status == status && e.strategy.acceptsUpTo definitions limit value with
  | some e => .ok { status, value, headers := e.headers }
  | none => .error (.noMatch status)

variable {plan : DecoderPlan} {definitions : Definitions} {limit status : Nat} {value : Json}

theorem decode_eq_decodeUpTo (plan : DecoderPlan) (definitions : Definitions) (status : Nat)
    (value : Json) :
    plan.decode definitions status value = plan.decodeUpTo definitions depthLimit status value := by
  have entry : (plan.entries.find? fun e =>
        e.status == status && e.strategy.accepts definitions value) =
      plan.entries.find? fun e =>
        e.status == status && e.strategy.acceptsUpTo definitions depthLimit value := by
    simp only [Strategy.accepts_eq_acceptsUpTo]
  let outcome : Option DecoderEntry → Except DecodeError Decoded
    | some e => .ok { status, value, headers := e.headers }
    | none => .error (.noMatch status)
  exact congrArg outcome entry

/-- What is decoded is the body, with the headers of an entry that takes it. -/
theorem exists_entry_of_decodeUpTo {decoded : Decoded}
    (success : plan.decodeUpTo definitions limit status value = .ok decoded) :
    ∃ e ∈ plan.entries, e.status = status ∧
      e.strategy.Takes (Node.ConformsWithin definitions limit) value ∧
      decoded = ⟨status, value, e.headers⟩ := by
  unfold decodeUpTo at success
  split at success
  · rename_i e found
    have matched := List.find?_some found
    rw [Bool.and_eq_true, beq_iff_eq] at matched
    exact ⟨e, List.mem_of_find?_eq_some found, matched.1, Strategy.acceptsUpTo_iff.mp matched.2,
      (Except.ok.inj success).symm⟩
  · cases success

theorem exists_decodeUpTo {e : DecoderEntry} (inside : e ∈ plan.entries)
    (named : e.status = status)
    (takes : e.strategy.Takes (Node.ConformsWithin definitions limit) value) :
    ∃ decoded, plan.decodeUpTo definitions limit status value = .ok decoded := by
  have matched : (e.status == status && e.strategy.acceptsUpTo definitions limit value) = true := by
    rw [Bool.and_eq_true, beq_iff_eq]
    exact ⟨named, Strategy.acceptsUpTo_iff.mpr takes⟩
  unfold decodeUpTo
  split
  · exact ⟨_, rfl⟩
  · rename_i absent
    exact absurd matched (List.find?_eq_none.mp absent e inside)

/-- A higher limit takes whatever a lower one takes. -/
theorem exists_decodeUpTo_of_le {high : Nat} (room : limit ≤ high) {decoded : Decoded}
    (success : plan.decodeUpTo definitions limit status value = .ok decoded) :
    ∃ again, plan.decodeUpTo definitions high status value = .ok again := by
  obtain ⟨e, inside, named, takes, _⟩ := exists_entry_of_decodeUpTo success
  exact exists_decodeUpTo inside named (takes.mono fun node part held => held.mono room)

theorem exists_limit_iff :
    (∃ limit decoded, plan.decodeUpTo definitions limit status value = .ok decoded) ↔
      ∃ e ∈ plan.entries, e.status = status ∧
        e.strategy.Takes (Node.Conforms definitions) value := by
  constructor
  · intro some
    obtain ⟨limit, decoded, success⟩ := some
    obtain ⟨e, inside, named, takes, _⟩ := exists_entry_of_decodeUpTo success
    exact ⟨e, inside, named, Strategy.takes_conforms_iff.mpr ⟨limit, takes⟩⟩
  · intro entry
    obtain ⟨e, inside, named, takes⟩ := entry
    obtain ⟨depth, within⟩ := Strategy.takes_conforms_iff.mp takes
    exact ⟨depth, exists_decodeUpTo inside named within⟩

end DecoderPlan

/-- What is decoded conforms by the rules without a limit, and what conforms by a derivation within
the limit is decoded. Raising the limit never refuses what was taken, and some limit takes whatever
conforms. -/
theorem decoding_follows_conformance (plan : DecoderPlan) (definitions : Definitions)
    (status : Nat) (value : Json) :
    (∀ decoded, plan.decode definitions status value = .ok decoded →
      ∃ e ∈ plan.entries, e.status = status ∧
        e.strategy.Takes (Node.Conforms definitions) value ∧
        decoded = ⟨status, value, e.headers⟩) ∧
    ((∃ e ∈ plan.entries, e.status = status ∧
        e.strategy.Takes (Node.ConformsWithin definitions depthLimit) value) →
      ∃ decoded, plan.decode definitions status value = .ok decoded) ∧
    plan.decode definitions status value = plan.decodeUpTo definitions depthLimit status value ∧
    (∀ low high, low ≤ high →
      (∃ decoded, plan.decodeUpTo definitions low status value = .ok decoded) →
      ∃ decoded, plan.decodeUpTo definitions high status value = .ok decoded) ∧
    ((∃ limit decoded, plan.decodeUpTo definitions limit status value = .ok decoded) ↔
      ∃ e ∈ plan.entries, e.status = status ∧
        e.strategy.Takes (Node.Conforms definitions) value) := by
  have same := plan.decode_eq_decodeUpTo definitions status value
  refine ⟨?_, ?_, same, ?_, DecoderPlan.exists_limit_iff⟩
  · intro decoded success
    rw [same] at success
    obtain ⟨e, inside, named, takes, rfl⟩ := DecoderPlan.exists_entry_of_decodeUpTo success
    exact ⟨e, inside, named, Strategy.takes_conforms_iff.mpr ⟨depthLimit, takes⟩, rfl⟩
  · intro entry
    obtain ⟨e, inside, named, takes⟩ := entry
    rw [same]
    exact DecoderPlan.exists_decodeUpTo inside named takes
  · intro low high room success
    obtain ⟨decoded, success⟩ := success
    exact DecoderPlan.exists_decodeUpTo_of_le room success

def Sample.trees : Definitions :=
  [("Tree",
    { Definition.ofType .object with
      properties :=
        [("label", .inline (.ofType .string)),
         ("children", .inline { Definition.ofType .array with items := some (.ref "Tree") })]
      required := ["label"] })]

def Sample.treePlan : DecoderPlan :=
  { primary := 200, entries := [⟨404, .constant, []⟩, ⟨200, .exact "Tree", ["Location"]⟩] }

/-- A tree with one child. -/
def Sample.twig : Json :=
  .obj [("label", .str "root"), ("children", .arr [.obj [("label", .str "leaf")]])]

theorem decoding_twig :
    Sample.treePlan.decode Sample.trees 200 Sample.twig = .ok ⟨200, Sample.twig, ["Location"]⟩ ∧
      (Node.ref "Tree").ConformsWithin Sample.trees depthLimit Sample.twig ∧
      (∃ e ∈ Sample.treePlan.entries, e.status = 200 ∧
        e.strategy.Takes (Node.Conforms Sample.trees) Sample.twig ∧
        e.headers = ["Location"]) ∧
      ∃ decoded, Sample.treePlan.decodeUpTo Sample.trees 1000 200 Sample.twig = .ok decoded := by
  obtain ⟨sound, complete, same, higher, _⟩ :=
    decoding_follows_conformance Sample.treePlan Sample.trees 200 Sample.twig
  have within : (Node.ref "Tree").ConformsWithin Sample.trees depthLimit Sample.twig :=
    (conforms_iff _ _ _ _).mp (by decide +kernel)
  have success : Sample.treePlan.decode Sample.trees 200 Sample.twig =
      .ok ⟨200, Sample.twig, ["Location"]⟩ := by rfl
  have entry := sound _ success
  have taken := complete ⟨⟨200, .exact "Tree", ["Location"]⟩, by decide, rfl, .exact within⟩
  rw [same] at taken
  have more := higher depthLimit 1000 (by decide) taken
  obtain ⟨e, inside, named, takes, made⟩ := entry
  refine ⟨success, within, ⟨e, inside, named, takes, ?_⟩, more⟩
  exact (congrArg Decoded.headers made).symm

end ApiCodec

import ApiCodec.Proofs.Decoder.Statuses
import ApiCodec.Proofs.Flatten.Run

set_option autoImplicit false

namespace ApiCodec

open Document

/-- The strategy that an override has for a status. Of several rows for one status the last counts. -/
def DecoderOverride.strategy? (primary status : Nat) : DecoderOverride → Option Strategy
  | .single strategy => if status = primary then some strategy else none
  | .table rows => rows.reverse.lookup status

namespace DecoderPlan

def statuses (plan : DecoderPlan) : List Nat := plan.entries.map (·.status)

/-- The plan with the strategies of an override in place of its own, all else as it was. -/
def replaced (plan : DecoderPlan) (o : DecoderOverride) : DecoderPlan :=
  { plan with
    entries := plan.entries.map fun e =>
      { e with strategy := (o.strategy? plan.primary e.status).getD e.strategy } }

/-- The first row of a table that is about a status without an entry. -/
def undeclared? (plan : DecoderPlan) (rows : List (Nat × Strategy)) : Option (Nat × Strategy) :=
  rows.find? fun row => !plan.statuses.contains row.1

@[simp] theorem statuses_replaced (plan : DecoderPlan) (o : DecoderOverride) :
    (plan.replaced o).statuses = plan.statuses := by
  simp [statuses, replaced]

@[simp] theorem headers_replaced (plan : DecoderPlan) (o : DecoderOverride) :
    (plan.replaced o).entries.map (·.headers) = plan.entries.map (·.headers) := by
  simp [replaced]

/-- Where no status repeats, setting the first entry of a status is setting all of them. -/
theorem replace?_eq {status : Nat} {strategy : Strategy} {entries : List DecoderEntry}
    (distinct : (entries.map (·.status)).Nodup) :
    DecoderEntry.replace? status strategy entries =
      if status ∈ entries.map (·.status) then
        some (entries.map fun e => if e.status = status then { e with strategy } else e)
      else none := by
  induction entries with
  | nil => rfl
  | cons entry rest ih =>
      simp only [List.map_cons, List.nodup_cons] at distinct
      unfold DecoderEntry.replace?
      by_cases same : entry.status = status
      · have others : rest.map (fun e => if e.status = status then { e with strategy } else e) =
            rest := by
          refine (List.map_congr_left fun e member => if_neg ?_).trans (List.map_id' rest)
          intro again
          exact distinct.1 (same ▸ again ▸ List.mem_map_of_mem member)
        simp [same, others]
      · rw [if_neg same, ih distinct.2]
        by_cases known : status ∈ rest.map (·.status)
        · simp [known, same]
        · simp [known, Ne.symm same]

variable {plan : DecoderPlan}

theorem strategy?_row (primary status other : Nat) (strategy : Strategy) :
    (DecoderOverride.table [(status, strategy)]).strategy? primary other =
      if other = status then some strategy else none := by
  have found : (other == status) = decide (other = status) := rfl
  by_cases same : other = status <;> simp [DecoderOverride.strategy?, List.lookup_cons, found, same]

theorem replaced_rows (plan : DecoderPlan) (first second : List (Nat × Strategy)) :
    (plan.replaced (.table first)).replaced (.table second) =
      plan.replaced (.table (first ++ second)) := by
  simp only [replaced, DecoderOverride.strategy?, List.map_map, List.reverse_append,
    List.lookup_append]
  congr 1
  refine List.map_congr_left fun e _ => ?_
  simp only [Function.comp_apply]
  cases second.reverse.lookup e.status <;> rfl

theorem set_eq (distinct : plan.statuses.Nodup) (status : Nat) (strategy : Strategy) :
    plan.set status strategy =
      if status ∈ plan.statuses then .ok (plan.replaced (.table [(status, strategy)]))
      else .error (.unknownStatus status) := by
  have rows : plan.entries.map (fun e => if e.status = status then { e with strategy } else e) =
      (plan.replaced (.table [(status, strategy)])).entries := by
    refine List.map_congr_left fun e _ => ?_
    rw [strategy?_row]
    by_cases same : e.status = status <;> simp [same]
  unfold set
  rw [replace?_eq distinct, rows]
  by_cases known : status ∈ plan.statuses
  · rw [if_pos known, if_pos (show status ∈ plan.entries.map (·.status) from known)]
    rfl
  · rw [if_neg known, if_neg (show status ∉ plan.entries.map (·.status) from known)]

/-- An override of the primary status alone succeeds. -/
theorem override_single (distinct : plan.statuses.Nodup) (known : plan.primary ∈ plan.statuses)
    (strategy : Strategy) :
    plan.override (.single strategy) = .ok (plan.replaced (.single strategy)) := by
  have same : plan.replaced (.table [(plan.primary, strategy)]) =
      plan.replaced (.single strategy) := by
    simp only [replaced, strategy?_row]
    rfl
  rw [override, set_eq distinct, if_pos known, same]

/-- A table fails for its first row without an entry. -/
theorem override_table (distinct : plan.statuses.Nodup) (rows : List (Nat × Strategy)) :
    plan.override (.table rows) =
      match plan.undeclared? rows with
      | some row => .error (.unknownStatus row.1)
      | none => .ok (plan.replaced (.table rows)) := by
  rw [override]
  induction rows generalizing plan with
  | nil => simp [setAll, undeclared?, replaced, DecoderOverride.strategy?]
  | cons row rest ih =>
      obtain ⟨status, strategy⟩ := row
      rw [setAll, set_eq distinct]
      by_cases known : status ∈ plan.statuses
      · have kept : (plan.replaced (.table [(status, strategy)])).statuses.Nodup := by
          rwa [statuses_replaced]
        have next := ih kept
        rw [if_pos known]
        simp only [next, replaced_rows, List.singleton_append, undeclared?, statuses_replaced]
        rw [List.find?_cons_of_neg (by simpa using known)]
      · rw [if_neg known, undeclared?, List.find?_cons_of_pos (by simpa using known)]

theorem override_eq_replaced (distinct : plan.statuses.Nodup)
    (known : plan.primary ∈ plan.statuses) {o : DecoderOverride} {last : DecoderPlan}
    (success : plan.override o = .ok last) : last = plan.replaced o := by
  cases o with
  | single strategy =>
      rw [override_single distinct known] at success
      exact (Except.ok.inj success).symm
  | table rows =>
      rw [override_table distinct] at success
      split at success
      · cases success
      · exact (Except.ok.inj success).symm

/-- A status for which an override has no strategy is decoded as before. -/
theorem decode_replaced {o : DecoderOverride} {status : Nat}
    (untouched : o.strategy? plan.primary status = none) (definitions : Definitions) (value : Json) :
    (plan.replaced o).decode definitions status value = plan.decode definitions status value := by
  have kept : ∀ e : DecoderEntry, e.status = status →
      { e with strategy := (o.strategy? plan.primary e.status).getD e.strategy } = e := by
    rintro e rfl
    rw [untouched]
    rfl
  have same : ∀ e : DecoderEntry,
      (e.status == status &&
          ((o.strategy? plan.primary e.status).getD e.strategy).accepts definitions value) =
        (e.status == status && e.strategy.accepts definitions value) := by
    intro e
    by_cases own : e.status = status
    · rw [own, untouched]
      rfl
    · have other : (e.status == status) = false := by simpa using own
      rw [other]
      rfl
  unfold decode replaced
  simp only [List.find?_map, Function.comp_def, same]
  cases found : plan.entries.find? fun e => e.status == status &&
      e.strategy.accepts definitions value with
  | none => rfl
  | some e => rfl

structure Describes (plan : DecoderPlan) (defaults : DefaultTypes) (op : Operation) : Prop where
  /-- One entry for each response with three digits, in declaration order. -/
  entries : List.Forall₂
    (fun response entry => statusText entry.status = response.status ∧
      entry.strategy = Strategy.ofType defaults response.type ∧ entry.headers = response.headers)
    (op.responses.filter fun response => isNumericStatus response.status) plan.entries
  distinct : plan.statuses.Nodup
  /-- The primary status is the first one of success. -/
  primary : (op.responses.map (·.status)).find? isSuccessStatus = some (statusText plan.primary)
  found : plan.primaryEntry?.isSome

structure Overridden (plan : DecoderPlan) (overrides : List DecoderOverride) (last : DecoderPlan) :
    Prop where
  primary : last.primary = plan.primary
  statuses : last.statuses = plan.statuses
  headers : last.entries.map (·.headers) = plan.entries.map (·.headers)
  single : ∀ strategy, last.override (.single strategy) = .ok (last.replaced (.single strategy))
  table : ∀ rows,
    last.override (.table rows) =
      match plan.undeclared? rows with
      | some row => .error (.unknownStatus row.1)
      | none => .ok (last.replaced (.table rows))
  untouched : ∀ definitions status value,
    (∀ o ∈ overrides, o.strategy? plan.primary status = none) →
    last.decode definitions status value = plan.decode definitions status value

theorem Overridden.nil (distinct : plan.statuses.Nodup) (known : plan.primary ∈ plan.statuses) :
    plan.Overridden [] plan where
  primary := rfl
  statuses := rfl
  headers := rfl
  single := override_single distinct known
  table := override_table distinct
  untouched := fun _ _ _ _ => rfl

theorem Overridden.cons {o : DecoderOverride} {overrides : List DecoderOverride}
    {last : DecoderPlan} (rest : (plan.replaced o).Overridden overrides last) :
    plan.Overridden (o :: overrides) last where
  primary := rest.primary
  statuses := rest.statuses.trans (statuses_replaced plan o)
  headers := rest.headers.trans (headers_replaced plan o)
  single := rest.single
  table := by
    intro rows
    have same : (plan.replaced o).undeclared? rows = plan.undeclared? rows := by
      simp only [undeclared?, statuses_replaced]
    rw [rest.table rows, same]
  untouched := by
    intro definitions status value silent
    have others : ∀ other ∈ overrides, other.strategy? plan.primary status = none :=
      fun other member => silent other (List.mem_cons_of_mem _ member)
    rw [rest.untouched definitions status value others,
      decode_replaced (silent o List.mem_cons_self)]

theorem overridden_of_foldlM (distinct : plan.statuses.Nodup)
    (known : plan.primary ∈ plan.statuses) {overrides : List DecoderOverride} {last : DecoderPlan}
    (success : overrides.foldlM override plan = .ok last) : plan.Overridden overrides last := by
  induction overrides generalizing plan with
  | nil =>
      cases Except.ok.inj success
      exact .nil distinct known
  | cons o rest ih =>
      rw [List.foldlM_cons] at success
      obtain ⟨next, first, others⟩ := Shape.bind_eq_ok_iff.mp success
      cases override_eq_replaced distinct known first
      exact .cons (ih (by rwa [statuses_replaced]) (by rwa [statuses_replaced]) others)

theorem statuses_ofOperation (defaults : DefaultTypes) (op : Operation) :
    (DecoderEntry.ofOperation defaults op).map (·.status) = op.responses.filterMap Response.code? := by
  unfold DecoderEntry.ofOperation
  rw [List.map_filterMap]
  refine List.filterMap_congr fun response _ => ?_
  unfold DecoderEntry.ofResponse?
  cases response.code? <;> rfl

theorem entries_ofOperation (defaults : DefaultTypes) (responses : List Response) :
    List.Forall₂
      (fun response entry => statusText entry.status = response.status ∧
        entry.strategy = Strategy.ofType defaults response.type ∧ entry.headers = response.headers)
      (responses.filter fun response => isNumericStatus response.status)
      (responses.filterMap (DecoderEntry.ofResponse? defaults)) := by
  induction responses with
  | nil => exact .nil
  | cons response rest ih =>
      have numeric := isSome_statusCode? response.status
      cases known : statusCode? response.status with
      | none =>
          rw [known] at numeric
          have skipped : DecoderEntry.ofResponse? defaults response = none := by
            rw [DecoderEntry.ofResponse?, Response.code?, known]
            rfl
          rw [List.filterMap_cons_none skipped, List.filter_cons_of_neg (by simp [← numeric])]
          exact ih
      | some code =>
          rw [known] at numeric
          have made : DecoderEntry.ofResponse? defaults response =
              some ⟨code, Strategy.ofType defaults response.type, response.headers⟩ := by
            rw [DecoderEntry.ofResponse?, Response.code?, known]
            rfl
          rw [List.filterMap_cons_some made, List.filter_cons_of_pos (by simp [← numeric])]
          exact .cons ⟨statusText_of_statusCode? known, rfl, rfl⟩ ih

/-- The first status of success, as a text and as a number. -/
theorem find?_isSuccessStatus (statuses : List String) :
    statuses.find? isSuccessStatus =
      ((statuses.filterMap statusCode?).find? isSuccess).map statusText := by
  induction statuses with
  | nil => rfl
  | cons status rest ih =>
      have numeric := isSome_statusCode? status
      cases known : statusCode? status with
      | none =>
          rw [known] at numeric
          rw [List.filterMap_cons_none known,
            List.find?_cons_of_neg (by simp [isSuccessStatus, ← numeric]), ih]
      | some code =>
          rw [List.filterMap_cons_some known]
          have same := isSuccess_of_statusCode? known
          by_cases success : isSuccessStatus status
          · rw [List.find?_cons_of_pos success, List.find?_cons_of_pos (by rw [same, success])]
            simp [statusText_of_statusCode? known]
          · rw [List.find?_cons_of_neg success, List.find?_cons_of_neg (by rwa [same]), ih]

theorem isSome_ofOperation?_iff (defaults : DefaultTypes) (op : Operation) :
    (ofOperation? defaults op).isSome ↔
      ∃ response ∈ op.responses, isSuccessStatus response.status := by
  have found := find?_isSuccessStatus (op.responses.map (·.status))
  rw [← filterMap_code?] at found
  rw [ofOperation?, Option.isSome_map, ← Option.isSome_map (f := statusText), ← found,
    List.find?_isSome]
  simp

theorem describes_of_operation {defaults : DefaultTypes} {op : Operation}
    (distinct : (op.responses.map (·.status)).Nodup)
    (planned : ofOperation? defaults op = some plan) : plan.Describes defaults op := by
  obtain ⟨primary, first, rfl⟩ := Option.map_eq_some_iff.mp planned
  have statuses : DecoderPlan.statuses ⟨primary, DecoderEntry.ofOperation defaults op⟩ =
      op.responses.filterMap Response.code? := statuses_ofOperation defaults op
  have known : primary ∈ DecoderPlan.statuses ⟨primary, DecoderEntry.ofOperation defaults op⟩ :=
    statuses ▸ List.mem_of_find?_eq_some first
  refine ⟨entries_ofOperation defaults op.responses, statuses ▸ nodup_codes distinct, ?_, ?_⟩
  · rw [find?_isSuccessStatus, ← filterMap_code?, first]
    rfl
  · obtain ⟨entry, member, same⟩ := List.mem_map.mp known
    exact List.find?_isSome.mpr ⟨entry, member, by simpa using same⟩

theorem Describes.primary_mem {defaults : DefaultTypes} {op : Operation}
    (describes : plan.Describes defaults op) : plan.primary ∈ plan.statuses := by
  obtain ⟨entry, member, same⟩ := List.find?_isSome.mp describes.found
  exact List.mem_map.mpr ⟨entry, member, by simpa using same⟩

end DecoderPlan

/-- The plans of operations that were built, and what any number of overrides makes of them. -/
theorem decoderPlan_of_operations {w : Workspace} {path : String} {item : PathItem}
    {t : Traced Diagnostic (List Operation)} {op : Operation}
    (success : w.operations path item = .ok t) (member : op ∈ t.value) (defaults : DefaultTypes) :
    ((DecoderPlan.ofOperation? defaults op).isSome ↔
      ∃ response ∈ op.responses, isSuccessStatus response.status) ∧
    ∀ plan, DecoderPlan.ofOperation? defaults op = some plan →
      plan.Describes defaults op ∧
      ∀ overrides last, overrides.foldlM DecoderPlan.override plan = .ok last →
        plan.Overridden overrides last := by
  refine ⟨DecoderPlan.isSome_ofOperation?_iff defaults op, fun plan planned => ?_⟩
  have describes := DecoderPlan.describes_of_operation (w.nodup_statuses success op member) planned
  exact ⟨describes, fun overrides last applied =>
    DecoderPlan.overridden_of_foldlM describes.distinct describes.primary_mem applied⟩

/-- A path with one operation, which has two numeric statuses and a default. -/
def Sample.listing : PathItem :=
  { summary := none, description := none, parameters := [], servers := none, path? := none
    entries :=
      [("get", .obj
        [("operationId", .str "list"),
         ("responses", .obj
           [("404", .obj []), ("200", .obj []), ("default", .obj [])])])] }

def Sample.listingPlan : DecoderPlan :=
  { primary := 200, entries := [⟨404, .constant, []⟩, ⟨200, .exact "Page", []⟩] }

/-- A table, then another strategy for the primary status. -/
def Sample.listingOverrides : List DecoderOverride :=
  [.table [(404, .exact "Missing")], .single .binary]

theorem decoderPlan_of_listing :
    ∃ t op last,
      (Workspace.ofDocument (.ofDefinitions []) []).operations "/items" Sample.listing = .ok t ∧
      op ∈ t.value ∧ DecoderPlan.ofOperation? ⟨"Page", absentType⟩ op = some Sample.listingPlan ∧
      Sample.listingOverrides.foldlM DecoderPlan.override Sample.listingPlan = .ok last ∧
      Sample.listingPlan.Describes ⟨"Page", absentType⟩ op ∧
      Sample.listingPlan.Overridden Sample.listingOverrides last := by
  let run : Except TransformError (Traced Diagnostic (List Operation)) :=
    (Workspace.ofDocument (.ofDefinitions []) []).operations "/items" Sample.listing
  have planned : run.toOption.map (fun t =>
      t.value.map (DecoderPlan.ofOperation? ⟨"Page", absentType⟩)) =
        some [some Sample.listingPlan] := by
    decide +kernel
  obtain ⟨t, success, plans⟩ := exists_ok_of_map planned
  obtain ⟨op, same, plan⟩ := List.map_eq_singleton_iff.mp plans
  have member : op ∈ t.value := by simp [same]
  obtain ⟨_, laws⟩ := decoderPlan_of_operations success member ⟨"Page", absentType⟩
  obtain ⟨describes, overridden⟩ := laws _ plan
  exact ⟨t, op, _, success, member, plan, rfl, describes, overridden _ _ rfl⟩

end ApiCodec

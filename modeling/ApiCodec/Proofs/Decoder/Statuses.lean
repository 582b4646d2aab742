import ApiCodec.Decoder.Payload
import ApiCodec.Proofs.Parameters.Entries
import ApiCodec.Proofs.Reading.Records
import Mathlib.Data.List.Nodup

set_option autoImplicit false

namespace ApiCodec

open Document

/-- Whether a status is three decimal digits. -/
def isNumericStatus (status : String) : Bool :=
  status.toList.length == 3 && status.toList.all Char.isDigit

/-- Whether a status is three decimal digits, the first of them a two. -/
def isSuccessStatus (status : String) : Bool :=
  isNumericStatus status && status.toList.head? == some '2'

/-- A number below a thousand as three decimal digits. -/
def statusText (code : Nat) : String :=
  String.ofList [Nat.digitChar (code / 100), Nat.digitChar (code / 10 % 10), Nat.digitChar (code % 10)]

theorem exists_digitChar {c : Char} (digit : c.isDigit) :
    ∃ n < 10, c = Nat.digitChar n ∧ c.toNat - 48 = n := by
  have bounds : 48 ≤ c.toNat ∧ c.toNat ≤ 57 := by
    simpa [Char.isDigit, UInt32.le_iff_toNat_le] using digit
  obtain ⟨lower, upper⟩ := bounds
  have same : c = Char.ofNat (48 + (c.toNat - 48)) := by
    rw [Nat.add_sub_cancel' lower, Char.ofNat_toNat]
  have small : c.toNat - 48 < 10 := by omega
  refine ⟨c.toNat - 48, small, same.trans ?_, rfl⟩
  generalize c.toNat - 48 = n at small
  revert n
  decide

theorem isSome_statusCode? (status : String) :
    (statusCode? status).isSome = isNumericStatus status := by
  unfold statusCode? isNumericStatus
  split
  · rename_i a b c spelled
    rw [spelled]
    by_cases digits : a.isDigit && b.isDigit && c.isDigit
    · simp_all
    · rw [if_neg digits]
      simp_all
  · rename_i other
    rcases spelled : status.toList with _ | ⟨a, _ | ⟨b, _ | ⟨c, _ | ⟨d, rest⟩⟩⟩⟩
    · rfl
    · rfl
    · rfl
    · exact absurd spelled (other a b c)
    · simp

/-- A status with a number is spelled by its three digits. -/
theorem exists_digits_of_statusCode? {status : String} {code : Nat}
    (known : statusCode? status = some code) :
    ∃ x < 10, ∃ y < 10, ∃ z < 10, code = 100 * x + 10 * y + z ∧
      status = String.ofList [Nat.digitChar x, Nat.digitChar y, Nat.digitChar z] := by
  unfold statusCode? at known
  split at known
  · rename_i a b c spelled
    split at known
    · rename_i digits
      simp only [Bool.and_eq_true] at digits
      obtain ⟨⟨first, second⟩, third⟩ := digits
      obtain ⟨x, hx, rfl, xv⟩ := exists_digitChar first
      obtain ⟨y, hy, rfl, yv⟩ := exists_digitChar second
      obtain ⟨z, hz, rfl, zv⟩ := exists_digitChar third
      rw [xv, yv, zv] at known
      refine ⟨x, hx, y, hy, z, hz, (Option.some.inj known).symm, ?_⟩
      rw [← spelled, String.ofList_toList]
    · cases known
  · cases known

theorem statusText_of_statusCode? {status : String} {code : Nat}
    (known : statusCode? status = some code) : statusText code = status := by
  obtain ⟨x, hx, y, hy, z, hz, rfl, rfl⟩ := exists_digits_of_statusCode? known
  have hundreds : (100 * x + 10 * y + z) / 100 = x := by omega
  have tens : (100 * x + 10 * y + z) / 10 % 10 = y := by omega
  have ones : (100 * x + 10 * y + z) % 10 = z := by omega
  rw [statusText, hundreds, tens, ones]

theorem isSuccess_of_statusCode? {status : String} {code : Nat}
    (known : statusCode? status = some code) : isSuccess code = isSuccessStatus status := by
  have numeric : isNumericStatus status = true := by
    rw [← isSome_statusCode?, known]
    rfl
  obtain ⟨x, hx, y, hy, z, hz, rfl, rfl⟩ := exists_digits_of_statusCode? known
  have first : (Nat.digitChar x == '2') = decide (x = 2) := by
    clear numeric known
    revert x
    decide
  have range : isSuccess (100 * x + 10 * y + z) = decide (x = 2) := by
    rw [isSuccess, Bool.eq_iff_iff]
    simp only [Bool.and_eq_true, decide_eq_true_eq]
    omega
  rw [range, isSuccessStatus, numeric, ← first]
  simp

namespace Workspace

/-- The responses that are kept have statuses that were declared, in their order. -/
theorem statuses_of_responses {w : Workspace} {declared : List (String × ResponseNode)}
    {t : Traced Notice (List Response)} (success : w.responses declared = .ok t) :
    (t.value.map (·.status)).Sublist (Assoc.keys declared) := by
  induction declared generalizing t with
  | nil =>
      cases Transform.pure_eq_ok_iff.mp success
      exact .slnil
  | cons entry rest ih =>
      obtain ⟨status, node⟩ := entry
      unfold responses at success
      split at success
      · simp only [Transform.bind_eq_ok_iff, Transform.note_eq_ok_iff] at success
        obtain ⟨_, b, rfl, others, rfl⟩ := success
        exact (ih others).cons status
      · simp only [Transform.bind_eq_ok_iff, Transform.pure_eq_ok_iff] at success
        obtain ⟨a, _, _, ⟨b, _, others, rfl, rfl⟩, rfl⟩ := success
        exact (ih others).cons_cons status

theorem nodup_statuses_of_operation {w : Workspace} {method : HttpMethod} {path id : String}
    {op : Document.Operation} {shared auth : List Parameter} {t : Traced Notice Operation}
    (distinct : (Assoc.keys op.responses).Nodup)
    (success : w.operation method path id op shared auth = .ok t) :
    (t.value.responses.map (·.status)).Nodup := by
  unfold operation at success
  simp only [Transform.bind_eq_ok_iff, Transform.tell_eq_ok_iff, Transform.pure_eq_ok_iff] at success
  obtain ⟨a, _, _, ⟨_, _, rfl, ⟨b, _, _, ⟨c, _, responses, rfl, rfl⟩, rfl⟩, rfl⟩, rfl⟩ := success
  exact (statuses_of_responses responses).nodup distinct

/-- An operation that was built has each status once. -/
theorem nodup_statuses {w : Workspace} {path : String} {item : PathItem}
    {t : Traced Diagnostic (List Operation)} (success : w.operations path item = .ok t) :
    ∀ op ∈ t.value, (op.responses.map (·.status)).Nodup := by
  intro op made
  obtain ⟨_, _, _, read, entry, member, method, id, u, _, _, built, rfl⟩ :=
    exists_operation_of_operations success made
  refine nodup_statuses_of_operation ?_ built
  obtain ⟨field, _, _, found⟩ := PathItem.exists_entry_of_mem_operations read member
  obtain ⟨r, _, _, _, _, _, _, _, _, responses, _⟩ := Operation.read_eq_ok_iff.mp found
  exact Shape.Record.nodup_keys_map responses

end Workspace

theorem filterMap_code? (responses : List Response) :
    responses.filterMap Response.code? = (responses.map (·.status)).filterMap statusCode? := by
  rw [List.filterMap_map]
  rfl

/-- Different statuses have different numbers. -/
theorem nodup_codes {responses : List Response} (distinct : (responses.map (·.status)).Nodup) :
    (responses.filterMap Response.code?).Nodup := by
  rw [filterMap_code?]
  refine List.Nodup.filterMap (fun first second code left right => ?_) distinct
  rw [← statusText_of_statusCode? left, ← statusText_of_statusCode? right]

end ApiCodec

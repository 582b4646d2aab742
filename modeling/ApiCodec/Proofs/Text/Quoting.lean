import ApiCodec.Json.Printer
import Mathlib.Data.List.Basic

set_option autoImplicit false

namespace ApiCodec.Json

/-- The characters that do not stand for themselves. -/
def escaped : List Char := '"' :: '\\' :: (List.range 32).map Char.ofNat

variable {c d : Char}

theorem escapeChar_of_notMem (plain : c ∉ escaped) : escapeChar c = [c] := by
  rw [escaped, List.mem_cons, List.mem_cons, not_or, not_or] at plain
  obtain ⟨quote, backslash, control⟩ := plain
  have printed : 0x20 ≤ c.toNat := by
    by_contra small
    exact control (List.mem_map.mpr ⟨c.toNat, List.mem_range.mpr (by omega), Char.ofNat_toNat c⟩)
  rw [escapeChar, if_neg quote, if_neg backslash, if_pos printed]

/-- The escapes begin with a backslash, and none of them begins another. -/
theorem escapes_apart :
    ∀ c ∈ escaped, (escapeChar c).head? = some '\\' ∧
      ∀ d ∈ escaped, (escapeChar c).isPrefixOf (escapeChar d) → c = d := by
  have checked : (escaped.all fun c => (escapeChar c).head? == some '\\' &&
      escaped.all fun d => !(escapeChar c).isPrefixOf (escapeChar d) || c == d) = true := by
    decide +kernel
  simpa only [List.all_eq_true, Bool.and_eq_true, Bool.or_eq_true, Bool.not_eq_true', beq_iff_eq,
    ← Bool.not_eq_true, ← imp_iff_not_or] using checked

theorem head?_escapeChar (c : Char) :
    (escapeChar c).head? = some (if c ∈ escaped then '\\' else c) := by
  split
  · rename_i special
    exact (escapes_apart c special).1
  · rename_i plain
    rw [escapeChar_of_notMem plain, List.head?_cons]

theorem eq_of_escapeChar_begins (begins : escapeChar c <+: escapeChar d) : c = d := by
  have heads : (if c ∈ escaped then '\\' else c) = if d ∈ escaped then '\\' else d := by
    obtain ⟨rest, same⟩ := begins
    have heads := congrArg List.head? same
    rwa [List.head?_append, head?_escapeChar, head?_escapeChar, Option.some_or,
      Option.some.injEq] at heads
  have backslash : '\\' ∈ escaped := by decide
  by_cases first : c ∈ escaped <;> by_cases second : d ∈ escaped
  · exact (escapes_apart c first).2 d second (List.isPrefixOf_iff_prefix.mpr begins)
  · rw [if_pos first, if_neg second] at heads
    exact absurd (heads ▸ backslash) second
  · rw [if_neg first, if_pos second] at heads
    exact absurd (heads ▸ backslash) first
  · rwa [if_neg first, if_neg second] at heads

/-- A text that is made of escapes is made of them in one way. -/
theorem flatMap_escapeChar_injective :
    Function.Injective fun text => List.flatMap escapeChar text := by
  intro text other same
  induction text generalizing other with
  | nil =>
      cases other with
      | nil => rfl
      | cons d rest =>
          have head := congrArg List.head? same
          simp [List.flatMap_cons, List.head?_append, head?_escapeChar] at head
  | cons c rest ih =>
      cases other with
      | nil =>
          have head := congrArg List.head? same
          simp [List.flatMap_cons, List.head?_append, head?_escapeChar] at head
      | cons d others =>
          simp only [List.flatMap_cons] at same
          have one : c = d := by
            have first := List.prefix_append (escapeChar c) (rest.flatMap escapeChar)
            have second := List.prefix_append (escapeChar d) (others.flatMap escapeChar)
            rw [same] at first
            rcases List.prefix_or_prefix_of_prefix first second with begins | begins
            · exact eq_of_escapeChar_begins begins
            · exact (eq_of_escapeChar_begins begins).symm
          rw [one, List.append_cancel_left_eq] at same
          rw [one, ih same]

theorem quote_injective : Function.Injective quote := by
  intro text other same
  have chars := String.ofList_inj.mp same
  simp only [quoteChars, List.cons_append, List.cons.injEq, true_and, List.append_cancel_right_eq]
    at chars
  exact String.toList_injective (flatMap_escapeChar_injective chars)

/-- What is left of a text behind the string whose opening quote was just read. -/
def afterString : List Char → List Char
  | [] => []
  | '"' :: rest => rest
  | '\\' :: _ :: rest => afterString rest
  | _ :: rest => afterString rest

theorem afterString_cons {c : Char} (quote : c ≠ '"') (backslash : c ≠ '\\') (rest : List Char) :
    afterString (c :: rest) = afterString rest := by
  rw [afterString]
  · exact quote
  · exact fun _ _ same _ => backslash same

theorem afterString_plain {chars : List Char} (plain : ∀ c ∈ chars, c ≠ '"' ∧ c ≠ '\\')
    (rest : List Char) : afterString (chars ++ rest) = afterString rest := by
  induction chars with
  | nil => rfl
  | cons c chars ih =>
      obtain ⟨first, others⟩ := List.forall_mem_cons.mp plain
      rw [List.cons_append, afterString_cons first.1 first.2, ih others]

/-- An escape has neither a quote nor a backslash behind its first two characters. -/
theorem exists_escapeChar_eq :
    ∀ c ∈ escaped, ∃ letter digits, escapeChar c = '\\' :: letter :: digits ∧
      ∀ d ∈ digits, d ≠ '"' ∧ d ≠ '\\' := by
  have checked : (escaped.all fun c =>
      (escapeChar c).head? == some '\\' && (decide (2 ≤ (escapeChar c).length) &&
        ((escapeChar c).drop 2).all fun d => d != '"' && d != '\\')) = true := by
    decide +kernel
  intro c special
  have shape := List.all_eq_true.mp checked c special
  simp only [Bool.and_eq_true, beq_iff_eq, decide_eq_true_eq, List.all_eq_true, bne_iff_ne] at shape
  obtain ⟨led, long, plain⟩ := shape
  cases same : escapeChar c with
  | nil => simp [same] at long
  | cons first rest =>
      rw [same] at led plain
      obtain rfl := Option.some.inj led
      cases rest with
      | nil => simp [same] at long
      | cons letter digits => exact ⟨letter, digits, rfl, plain⟩

theorem afterString_escapeChar (c : Char) (rest : List Char) :
    afterString (escapeChar c ++ rest) = afterString rest := by
  by_cases special : c ∈ escaped
  · obtain ⟨letter, digits, same, plain⟩ := exists_escapeChar_eq c special
    rw [same, List.cons_append, List.cons_append, afterString, afterString_plain plain]
  · have quote : c ≠ '"' := fun same => special (same ▸ by decide)
    have backslash : c ≠ '\\' := fun same => special (same ▸ by decide)
    rw [escapeChar_of_notMem special, List.singleton_append, afterString_cons quote backslash]

theorem afterString_string (text : List Char) (rest : List Char) :
    afterString (text.flatMap escapeChar ++ '"' :: rest) = rest := by
  induction text with
  | nil => rfl
  | cons c text ih => rw [List.flatMap_cons, List.append_assoc, afterString_escapeChar, ih]

theorem toList_quote_append (text : String) (rest : List Char) :
    (quote text).toList ++ rest = '"' :: (text.toList.flatMap escapeChar ++ '"' :: rest) := by
  rw [quote, String.toList_ofList, quoteChars, List.cons_append, List.cons_append,
    List.append_assoc]
  rfl

/-- Strings in quotes tell where they end. -/
theorem quote_append_inj {text other : String} {s t : List Char}
    (same : (quote text).toList ++ s = (quote other).toList ++ t) : text = other ∧ s = t := by
  have rests : s = t := by
    rw [toList_quote_append, toList_quote_append] at same
    have after := congrArg afterString (List.cons.inj same).2
    rwa [afterString_string, afterString_string] at after
  rw [rests, List.append_cancel_right_eq] at same
  exact ⟨quote_injective (String.toList_inj.mp same), rests⟩

end ApiCodec.Json

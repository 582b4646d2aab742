import ApiCodec.Json.Printer
import ApiCodec.Json.Reader
import ApiCodec.Proofs.Flatten.Run

set_option autoImplicit false

namespace ApiCodec.Json

/-- A character that stands for itself in a JSON string. -/
structure IsPlain (c : Char) : Prop where
  notQuote : c ≠ '"'
  notBackslash : c ≠ '\\'
  notControl : ¬ c.toNat < 0x20

instance (c : Char) : Decidable (IsPlain c) :=
  decidable_of_iff (c ≠ '"' ∧ c ≠ '\\' ∧ ¬ c.toNat < 0x20)
    ⟨fun ⟨quote, backslash, control⟩ => ⟨quote, backslash, control⟩,
      fun plain => ⟨plain.notQuote, plain.notBackslash, plain.notControl⟩⟩

/-- A text whose characters all stand for themselves. -/
def ArePlain (chars : List Char) : Prop := ∀ c ∈ chars, IsPlain c

instance (chars : List Char) : Decidable (ArePlain chars) := List.decidableBAll IsPlain chars

theorem IsPlain.escapeChar_eq {c : Char} (plain : IsPlain c) : escapeChar c = [c] := by
  rw [escapeChar, if_neg plain.notQuote, if_neg plain.notBackslash,
    if_pos (Nat.not_lt.mp plain.notControl)]

theorem shorter?_some {α : Type} {text rest : List Char} (value : α)
    (shorter : rest.length < text.length) :
    shorter? text (some (value, rest)) = some (value, ⟨rest, shorter⟩) := by
  simp only [shorter?, Option.bind_eq_bind, Option.bind_some, dif_pos shorter]

section

variable {chars : List Char} (plain : ArePlain chars) (rest : List Char)

include plain

theorem quoteChars_plain : quoteChars chars = '"' :: (chars ++ ['"']) := by
  have same : chars.flatMap escapeChar = chars.flatMap fun c => [c] :=
    List.flatMap_congr fun c member => (plain c member).escapeChar_eq
  rw [quoteChars, same, List.flatMap_singleton', List.cons_append]

theorem readChars?_plain {budget : Nat} (enough : chars.length < budget) :
    readChars? budget (chars ++ '"' :: rest) = some (chars, rest) := by
  induction chars generalizing budget with
  | nil =>
      obtain ⟨more, rfl⟩ := Nat.exists_eq_add_one_of_ne_zero (Nat.ne_zero_of_lt enough)
      rfl
  | cons c chars ih =>
      obtain ⟨more, rfl⟩ := Nat.exists_eq_add_one_of_ne_zero (Nat.ne_zero_of_lt enough)
      obtain ⟨first, later⟩ := List.forall_mem_cons.mp plain
      have left : chars.length < more := Nat.lt_of_succ_lt_succ enough
      simp only [List.cons_append, readChars?, if_neg first.notQuote, if_neg first.notBackslash,
        if_neg first.notControl, ih later left]
      rfl

theorem readString?_plain :
    readString? (chars ++ '"' :: rest) = some (String.ofList chars, rest) := by
  have enough : chars.length < (chars ++ '"' :: rest).length + 1 := by
    rw [List.length_append, List.length_cons]
    omega
  rw [readString?, readChars?_plain plain rest enough]
  rfl

theorem readValue?_plain (depth : Nat)
    (shorter : rest.length < ('"' :: (chars ++ '"' :: rest)).length) :
    readValue? depth ('"' :: (chars ++ '"' :: rest)) =
      some (.str (String.ofList chars), ⟨rest, shorter⟩) := by
  unfold readValue?
  show shorter? ('"' :: (chars ++ '"' :: rest))
    ((readString? (chars ++ '"' :: rest)).map fun found => (Json.str found.1, found.2)) = _
  rw [readString?_plain plain]
  exact shorter?_some _ shorter

/-- The fields of an object up to its end, if there is one field with a plain text under `$ref`. -/
theorem readFields?_reference (depth : Nat) :
    (readFields? depth ('"' :: ("$ref".toList ++ '"' :: ':' :: '"' :: (chars ++ ['"', '\x7d'])))).map
        (fun found => (found.1, found.2.1)) =
      some ([("$ref", .str (String.ofList chars))], []) := by
  have dollar : ArePlain "$ref".toList := by decide
  unfold readFields?
  split
  · rename_i quoted start
    have start : '"' :: ("$ref".toList ++ '"' :: ':' :: '"' :: (chars ++ ['"', '\x7d'])) =
        '"' :: quoted := start
    cases start
    rw [readString?_plain dollar, shorter?_some _ (by simp)]
    simp only [Option.bind_eq_bind, Option.bind_some]
    split
    · rename_i quoted colon
      have colon : ':' :: '"' :: (chars ++ ['"', '\x7d']) = ':' :: quoted := colon
      cases colon
      have shorter : ['\x7d'].length < ('"' :: (chars ++ ['"', '\x7d'])).length := by simp
      have value : readValue? depth (skipBlanks ('"' :: (chars ++ ['"', '\x7d']))).1 =
          some (.str (String.ofList chars), ⟨['\x7d'], shorter⟩) :=
        readValue?_plain plain ['\x7d'] depth shorter
      rw [value]
      rfl
    · rename_i other
      exact absurd rfl (other _)
  · rename_i other
    exact absurd rfl (other _)

/-- The object itself, up to its end. -/
theorem readValue?_reference {depth : Nat} (deep : 1 < depth) :
    (readValue? depth
        ('\x7b' :: '"' :: ("$ref".toList ++ '"' :: ':' :: '"' :: (chars ++ ['"', '\x7d'])))).map
        (fun found => (found.1, found.2.1)) =
      some (.obj [("$ref", .str (String.ofList chars))], []) := by
  obtain ⟨⟨fields, after⟩, fieldsRead, shape⟩ :=
    Option.map_eq_some_iff.mp (readFields?_reference plain (depth - 1))
  obtain ⟨rfl, ended⟩ := Prod.mk.inj shape
  have within : ¬ depth ≤ 1 := Nat.not_le.mpr deep
  unfold readValue?
  simp only [if_neg within]
  split
  · rename_i after closed
    exact absurd (List.cons.inj closed).1 (by decide)
  · rw [fieldsRead]
    exact congrArg (fun rest => some (_, rest)) ended

end

theorem toList_compact_reference {path : String} (plain : ArePlain path.toList) :
    (reference path).compact.toList =
      '\x7b' :: '"' :: ("$ref".toList ++ '"' :: ':' :: '"' :: (path.toList ++ ['"', '\x7d'])) := by
  have dollar : ArePlain "$ref".toList := by decide
  simp only [reference, compact, compactFields, quote, String.toList_append, String.toList_ofList,
    quoteChars_plain dollar, quoteChars_plain plain]
  simp

/-- A reference that needs no escapes is read back from its text. -/
theorem read?_compact_reference {path : String} (plain : ArePlain path.toList) :
    read? (reference path).compact = some (reference path) := by
  have start : (skipBlanks (reference path).compact.toList).1 =
      '\x7b' :: '"' :: ("$ref".toList ++ '"' :: ':' :: '"' :: (path.toList ++ ['"', '\x7d'])) := by
    rw [toList_compact_reference plain]
    rfl
  have deep : 1 < depthLimit := by decide
  have found := readValue?_reference plain deep
  rw [← start] at found
  obtain ⟨⟨value, after⟩, valueRead, shape⟩ := Option.map_eq_some_iff.mp found
  obtain ⟨rfl, ended⟩ := Prod.mk.inj shape
  unfold read?
  rw [valueRead]
  simp only [Option.bind_eq_bind, Option.bind_some]
  rw [show after.1 = [] from ended, String.ofList_toList]
  rfl

end ApiCodec.Json

import ApiCodec.Json.Basic

set_option autoImplicit false

/-!
Reading JSON text. `Json.read?` takes exactly one value with blanks around it; values nest at most
127 deep. A repeated field keeps its first place and its last value. A number without point and
exponent that fits 64 bits is an integer, any other number the binary64 number that
`NumberParts.float?` gives.
-/

namespace ApiCodec

namespace Json

def isBlank (c : Char) : Bool := c == ' ' || c == '\n' || c == '\t' || c == '\r'

def isDigit (c : Char) : Bool := '0' ≤ c && c ≤ '9'

def digitValue (c : Char) : Nat := c.toNat - '0'.toNat

/-- The value of a hexadecimal digit. -/
def hexValue? (c : Char) : Option Nat :=
  if isDigit c then some (digitValue c)
  else if 'a' ≤ c && c ≤ 'f' then some (c.toNat - 'a'.toNat + 10)
  else if 'A' ≤ c && c ≤ 'F' then some (c.toNat - 'A'.toNat + 10)
  else none

/-- The greatest unsigned integer of 64 bits. -/
def maxUnsigned : Nat := Nat.pow 2 64 - 1

/-- The leading digits of a number that fit 64 bits, and the power of ten by which the digits
read so far scale them. -/
structure Significand where
  value : Nat
  exponent : Int
  /-- No further digit is taken. -/
  full : Bool

/-- Takes one more whole digit; a digit that no longer fits counts as a factor ten. -/
def Significand.addWhole (s : Significand) (c : Char) : Significand :=
  let next := s.value * 10 + digitValue c
  if s.full || maxUnsigned < next then { s with exponent := s.exponent + 1, full := true }
  else { s with value := next }

/-- Takes one more fraction digit; from the first digit that does not fit all are dropped. -/
def Significand.addFraction (s : Significand) (c : Char) : Significand :=
  let next := s.value * 10 + digitValue c
  if s.full || maxUnsigned < next then { s with full := true }
  else { s with value := next, exponent := s.exponent - 1 }

/-- The number `significand * 10 ^ exponent`, computed by one multiplication or division of
binary64 numbers by a power of ten, after dividing by 10^308 as often as the exponent is below
it; `none` if the result is too large. `fuel` bounds how often. -/
def scale? : Nat → Binary64 → Int → Option Binary64
  | 0, x, _ => some x
  | fuel + 1, x, exponent =>
      if exponent.natAbs ≤ 308 then do
        let power ← Binary64.ofDecimal? false 1 exponent.natAbs
        if 0 ≤ exponent then x.mul? power else x.div? power
      else if x.units = 0 then some x
      else if 0 ≤ exponent then none
      else do
        let power ← Binary64.ofDecimal? false 1 308
        scale? fuel (← x.div? power) (exponent + 308)

structure NumberParts where
  negative : Bool
  whole : List Char
  fraction : Option (List Char)
  /-- Sign and digits. -/
  exponent : Option (Bool × List Char)

/-- The value of decimal digits. -/
def natOfDigits (digits : List Char) : Nat :=
  digits.foldl (fun n c => 10 * n + digitValue c) 0

/-- The binary64 number of written parts; `none` if it is too large. -/
def NumberParts.float? (parts : NumberParts) : Option Binary64 := do
  let whole := parts.whole.foldl Significand.addWhole ⟨0, 0, false⟩
  let all := (parts.fraction.getD []).foldl Significand.addFraction { whole with full := false }
  let x ← Binary64.ofInt? all.value
  let shift : Int :=
    match parts.exponent with
    | none => 0
    | some (negative, digits) => if negative then -natOfDigits digits else natOfDigits digits
  let magnitude ←
    if 2147483647 < shift.natAbs then
      if all.value = 0 || shift < 0 then some ⟨false, 0⟩ else none
    else scale? 3 x (all.exponent + shift)
  some { magnitude with negative := parts.negative }

def NumberParts.value? (parts : NumberParts) : Option Number :=
  let n := natOfDigits parts.whole
  if parts.fraction.isNone && parts.exponent.isNone &&
      (if parts.negative then 0 < n && n ≤ Nat.pow 2 63 else n ≤ maxUnsigned) then
    some (.int (if parts.negative then -(n : Int) else n))
  else parts.float?.map .float

/-- What a step of reading leaves over, shorter than what it was given. -/
abbrev Rest (text : List Char) := { rest : List Char // rest.length < text.length }

theorem length_dropWhile_le (test : Char → Bool) (text : List Char) :
    (text.dropWhile test).length ≤ text.length :=
  (List.dropWhile_suffix test).length_le

/-- Removes blanks at the front. -/
def skipBlanks (text : List Char) : { rest : List Char // rest.length ≤ text.length } :=
  ⟨text.dropWhile isBlank, length_dropWhile_le isBlank text⟩

/-- Removes a given text at the front. -/
def skipWord? : List Char → List Char → Option (List Char)
  | [], text => some text
  | w :: word, c :: text => if w = c then skipWord? word text else none
  | _ :: _, [] => none

/-- The optional fraction of a number: a point and at least one digit. -/
def readFraction? (text : List Char) : Option (Option (List Char) × List Char) :=
  match text with
  | '.' :: rest =>
      let digits := rest.takeWhile isDigit
      if digits.isEmpty then none else some (some digits, rest.dropWhile isDigit)
  | _ => some (none, text)

def readExponentDigits? (negative : Bool) (text : List Char) :
    Option (Option (Bool × List Char) × List Char) :=
  let digits := text.takeWhile isDigit
  if digits.isEmpty then none else some (some (negative, digits), text.dropWhile isDigit)

def readExponent? (text : List Char) : Option (Option (Bool × List Char) × List Char) :=
  match text with
  | c :: rest =>
      if c = 'e' || c = 'E' then
        match rest with
        | '+' :: digits => readExponentDigits? false digits
        | '-' :: digits => readExponentDigits? true digits
        | digits => readExponentDigits? false digits
      else some (none, text)
  | [] => some (none, text)

/-- The whole digits of a number: a zero alone, or digits that start with another one. -/
def readWhole? (text : List Char) : Option (List Char × List Char) :=
  match text with
  | '0' :: rest => if (rest.head?.map isDigit).getD false then none else some (['0'], rest)
  | _ =>
      let digits := text.takeWhile isDigit
      if digits.isEmpty then none else some (digits, text.dropWhile isDigit)

def readNumber? (text : List Char) : Option (Number × List Char) := do
  let (negative, unsigned) :=
    match text with
    | '-' :: rest => (true, rest)
    | _ => (false, text)
  let (whole, afterWhole) ← readWhole? unsigned
  let (fraction, afterFraction) ← readFraction? afterWhole
  let (exponent, rest) ← readExponent? afterFraction
  let number ← NumberParts.value? { negative, whole, fraction, exponent }
  some (number, rest)

/-- Four hexadecimal digits. -/
def readHex4? : List Char → Option (Nat × List Char)
  | a :: b :: c :: d :: rest => do
      let a ← hexValue? a
      let b ← hexValue? b
      let c ← hexValue? c
      let d ← hexValue? d
      some (((a * 16 + b) * 16 + c) * 16 + d, rest)
  | _ => none

/-- The character of a code unit whose digits were just read, with the second unit of a pair. -/
def readUnit? (text : List Char) : Option (Char × List Char) := do
  let (high, rest) ← readHex4? text
  if 0xd800 ≤ high && high < 0xdc00 then
    match rest with
    | '\\' :: 'u' :: rest => do
        let (low, rest) ← readHex4? rest
        if 0xdc00 ≤ low && low < 0xe000 then
          some (Char.ofNat (0x10000 + (high - 0xd800) * 0x400 + (low - 0xdc00)), rest)
        else none
    | _ => none
  else if 0xdc00 ≤ high && high < 0xe000 then none
  else some (Char.ofNat high, rest)

/-- The character that a letter after a backslash stands for. -/
def escaped? (c : Char) : Option Char :=
  if c = '"' || c = '\\' || c = '/' then some c
  else if c = 'b' then some (Char.ofNat 0x08)
  else if c = 'f' then some (Char.ofNat 0x0c)
  else if c = 'n' then some '\n'
  else if c = 'r' then some '\r'
  else if c = 't' then some '\t'
  else none

/-- The characters of a string up to its closing quote. Every step takes at least one character,
so a budget of the text's length is enough. -/
def readChars? : Nat → List Char → Option (List Char × List Char)
  | 0, _ => none
  | budget + 1, text =>
      match text with
      | [] => none
      | c :: rest =>
          if c = '"' then some ([], rest)
          else if c = '\\' then
            match rest with
            | 'u' :: rest => do
                let (char, rest) ← readUnit? rest
                let (chars, rest) ← readChars? budget rest
                some (char :: chars, rest)
            | letter :: rest => do
                let char ← escaped? letter
                let (chars, rest) ← readChars? budget rest
                some (char :: chars, rest)
            | [] => none
          else if c.toNat < 0x20 then none
          else do
            let (chars, rest) ← readChars? budget rest
            some (c :: chars, rest)

/-- A string whose opening quote was just read. -/
def readString? (text : List Char) : Option (String × List Char) :=
  (readChars? (text.length + 1) text).map fun (chars, rest) => (String.ofList chars, rest)

/-- Keeps what is left over if it is shorter, which it always is. -/
def shorter? {α : Type} (text : List Char) (read : Option (α × List Char)) :
    Option (α × Rest text) := do
  let (value, rest) ← read
  if h : rest.length < text.length then some (value, ⟨rest, h⟩) else none

mutual

/-- A value at the front of a text that starts with no blank; `depth` more levels may open. -/
def readValue? (depth : Nat) (text : List Char) : Option (Json × Rest text) :=
  match text with
  | [] => none
  | '[' :: rest => do
      if depth ≤ 1 then none
      match hb : (skipBlanks rest).1 with
      | ']' :: after => some (.arr [], ⟨after, by
          have := (skipBlanks rest).2; rw [hb] at this; simp at this ⊢; omega⟩)
      | _ =>
          let (items, after) ← readItems? (depth - 1) rest
          some (.arr items, ⟨after.1, by have := after.2; simp; omega⟩)
  | '\x7b' :: rest => do
      if depth ≤ 1 then none
      match hb : (skipBlanks rest).1 with
      | '\x7d' :: after => some (.obj [], ⟨after, by
          have := (skipBlanks rest).2; rw [hb] at this; simp at this ⊢; omega⟩)
      | _ =>
          let (fields, after) ← readFields? (depth - 1) rest
          some (.obj (Assoc.ofList fields), ⟨after.1, by have := after.2; simp; omega⟩)
  | c :: rest =>
      if c = '"' then
        shorter? (c :: rest) ((readString? rest).map fun (s, after) => (.str s, after))
      else if c = 'n' then
        shorter? (c :: rest) ((skipWord? ['u', 'l', 'l'] rest).map fun after => (.null, after))
      else if c = 't' then
        shorter? (c :: rest) ((skipWord? ['r', 'u', 'e'] rest).map fun after => (.bool true, after))
      else if c = 'f' then
        shorter? (c :: rest)
          ((skipWord? ['a', 'l', 's', 'e'] rest).map fun after => (.bool false, after))
      else
        shorter? (c :: rest)
          ((readNumber? (c :: rest)).map fun (number, after) => (.num number, after))
termination_by (text.length, 0)

/-- The items of an array up to its closing bracket. -/
def readItems? (depth : Nat) (text : List Char) : Option (List Json × Rest text) := do
  let start := skipBlanks text
  let (item, rest) ← readValue? depth start.1
  match hb : (skipBlanks rest.1).1 with
  | ']' :: after => some ([item], ⟨after, by
      have h₁ := (skipBlanks rest.1).2; have h₂ := rest.2; have h₃ := start.2
      rw [hb] at h₁; simp at h₁; omega⟩)
  | ',' :: after =>
      have h : after.length < text.length := by
        have h₁ := (skipBlanks rest.1).2; have h₂ := rest.2; have h₃ := start.2
        rw [hb] at h₁; simp at h₁; omega
      let (items, rest) ← readItems? depth after
      some (item :: items, ⟨rest.1, by have := rest.2; omega⟩)
  | _ => none
termination_by (text.length, 1)
decreasing_by
  · have := start.2
    by_cases h : start.1.length < text.length
    · exact Prod.Lex.left _ _ h
    · have : start.1.length = text.length := by omega
      rw [this]; exact Prod.Lex.right _ (by omega)
  · exact Prod.Lex.left _ _ h

/-- The fields of an object up to its closing brace. -/
def readFields? (depth : Nat) (text : List Char) : Option (List (String × Json) × Rest text) := do
  match hq : (skipBlanks text).1 with
  | '"' :: quoted =>
      have hquoted : quoted.length < text.length := by
        have := (skipBlanks text).2; rw [hq] at this; simp at this; omega
      let (key, afterKey) ← shorter? (' ' :: quoted) (readString? quoted)
      match hc : (skipBlanks afterKey.1).1 with
      | ':' :: afterColon =>
          let start := skipBlanks afterColon
          have hstart : start.1.length < text.length := by
            have h₁ := (skipBlanks afterKey.1).2; have h₂ := afterKey.2; have h₃ := start.2
            rw [hc] at h₁; simp at h₁ h₂; omega
          let (value, rest) ← readValue? depth start.1
          match hb : (skipBlanks rest.1).1 with
          | '\x7d' :: after => some ([(key, value)], ⟨after, by
              have h₁ := (skipBlanks rest.1).2; have h₂ := rest.2
              rw [hb] at h₁; simp at h₁; omega⟩)
          | ',' :: after =>
              have h : after.length < text.length := by
                have h₁ := (skipBlanks rest.1).2; have h₂ := rest.2
                rw [hb] at h₁; simp at h₁; omega
              let (fields, rest) ← readFields? depth after
              some ((key, value) :: fields, ⟨rest.1, by have := rest.2; omega⟩)
          | _ => none
      | _ => none
  | _ => none
termination_by (text.length, 1)
decreasing_by
  · exact Prod.Lex.left _ _ hstart
  · exact Prod.Lex.left _ _ h

end

/-- How deep values may nest. -/
def depthLimit : Nat := 128

/-- The value that a text holds, with blanks around it. -/
def read? (text : String) : Option Json := do
  let (value, rest) ← readValue? depthLimit (skipBlanks text.toList).1
  if (skipBlanks rest.1).1.isEmpty then some value else none

end Json

end ApiCodec

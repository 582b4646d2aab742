import ApiCodec.Proofs.Decoder.Conformance
import ApiCodec.Proofs.Decoder.TypeLists
import ApiCodec.Proofs.Walk.Paths
import Mathlib.Algebra.Order.Field.Rat
import Mathlib.Algebra.Order.Ring.Cast
import Mathlib.Tactic.NormNum

set_option autoImplicit false

/-!
The numeric range of a schema and of its one form. Each side of the range has an inclusive keyword
and an exclusive one, which is either a flag on the inclusive limit or a limit of its own; the one
form has room for one limit with a flag. Values are compared as rational numbers. Main statement:
the range check lets a number through exactly if it meets the limits in force, so it accepts what
the schema allows unless a number passes beyond a limit that was overridden (`range_check_iff`).
-/

namespace ApiCodec

open Document

namespace Binary64

/-- The value of a number. -/
def toRat (x : Binary64) : ℚ := x.toUnits / unitsPerOne

/-- One is a power of two in units, and whole numbers are finite beyond 53 binary digits. -/
theorem exists_digits :
    ∃ fraction whole, unitsPerOne = Nat.pow 2 fraction ∧ unitsLimit = Nat.pow 2 (fraction + whole) ∧
      53 ≤ whole := by
  refine ⟨1074, 1024, ?_, ?_, by decide⟩
  · delta unitsPerOne
    rfl
  · delta unitsLimit
    -- keeps the power from being computed
    generalize 1074 + 1024 = digits
    rfl

theorem unitsPerOne_pos : 0 < unitsPerOne := by
  obtain ⟨fraction, _, one, -⟩ := exists_digits
  rw [one]
  exact Nat.two_pow_pos fraction

theorem toRat_le_toRat_iff (x y : Binary64) : x.toRat ≤ y.toRat ↔ x.toUnits ≤ y.toUnits := by
  have positive : (0 : ℚ) < unitsPerOne := Nat.cast_pos.mpr unitsPerOne_pos
  rw [toRat, toRat, div_le_div_iff_of_pos_right positive, Int.cast_le]

theorem toRat_lt_toRat_iff (x y : Binary64) : x.toRat < y.toRat ↔ x.toUnits < y.toUnits := by
  rw [← not_le, ← not_le, toRat_le_toRat_iff]

theorem toRat_eq_of_toUnits {x : Binary64} {k : Int} (units : x.toUnits = k * unitsPerOne) :
    x.toRat = k := by
  have nonzero : (unitsPerOne : ℚ) ≠ 0 := Nat.cast_ne_zero.mpr unitsPerOne_pos.ne'
  rw [toRat, units, Int.cast_mul, Int.cast_natCast]
  exact mul_div_cancel_right₀ _ nonzero

theorem roundDiv_of_dvd {num den : Nat} (positive : 0 < den) (divides : den ∣ num) :
    roundDiv num den = num / den := by
  have twice : 2 * (num % den) < den := by
    rw [Nat.mod_eq_zero_of_dvd divides]
    exact positive
  exact if_pos twice

/-- Of a whole number of at most 53 binary digits, only digits of the fraction are not kept. -/
theorem excess_le {n fraction : Nat} (small : n < 2 ^ 53) :
    excess (n * Nat.pow 2 fraction) ≤ fraction := by
  rw [excess]
  split
  · exact Nat.zero_le _
  · rename_i nonzero
    have scaled : n * Nat.pow 2 fraction < 2 ^ (53 + fraction) := by
      rw [Nat.pow_add]
      exact Nat.mul_lt_mul_of_pos_right small (Nat.two_pow_pos fraction)
    have digits := (Nat.log2_lt nonzero).mpr scaled
    omega

theorem roundUnits_one {n : Nat} (small : n < 2 ^ 53) :
    roundUnits n 1 = some (n * unitsPerOne) := by
  obtain ⟨fraction, whole, one, limit, wide⟩ := exists_digits
  have divides : Nat.pow 2 (excess (n * unitsPerOne)) ∣ n * unitsPerOne := by
    rw [one]
    exact Dvd.dvd.mul_left (Nat.pow_dvd_pow 2 (excess_le small)) n
  have finite : n * unitsPerOne < unitsLimit := by
    rw [one, limit, Nat.pow_eq, Nat.pow_eq, Nat.pow_add, Nat.mul_comm]
    refine Nat.mul_lt_mul_of_pos_left (small.trans_le ?_) (Nat.two_pow_pos fraction)
    exact Nat.pow_le_pow_right Nat.two_pos wide
  have positive : 0 < Nat.pow 2 (excess (n * unitsPerOne)) := Nat.two_pow_pos _
  rw [roundUnits]
  simp only [Nat.div_one, Nat.one_mul]
  rw [roundDiv_of_dvd positive divides, Nat.div_mul_cancel divides, if_pos finite]

end Binary64

namespace Number

def toRat : Number → ℚ
  | .int k => k
  | .float x => x.toRat

/-- Some binary64 number has the value of the number. -/
def IsExact (n : Number) : Prop := ∃ x, n.toBinary64? = some x ∧ x.toRat = n.toRat

/-- Whole numbers of at most 53 binary digits are kept as they are. -/
theorem isExact_int {k : Int} (small : k.natAbs < 2 ^ 53) : (Number.int k).IsExact := by
  refine ⟨⟨k < 0, k.natAbs * Binary64.unitsPerOne⟩, ?_, Binary64.toRat_eq_of_toUnits ?_⟩
  · rw [toBinary64?, Binary64.ofInt?, Binary64.ofQuotient?, Binary64.roundUnits_one small]
    rfl
  · rw [Binary64.toUnits, Nat.cast_mul]
    by_cases negative : k < 0
    · simp only [negative, decide_true, if_true]
      rw [Int.ofNat_natAbs_of_nonpos (le_of_lt negative), neg_mul, neg_neg]
    · simp only [negative, decide_false, Bool.false_eq_true, if_false]
      rw [Int.natAbs_of_nonneg (not_lt.mp negative)]

/-- With one more digit there are whole numbers that are not. -/
example : (Number.int (2 ^ 53 + 1)).toBinary64? = (Number.int (2 ^ 53)).toBinary64? := by
  decide +kernel

end Number

/-- What the two keywords for one side of a range ask of a value, each as far as it is present:
the value is `within` the inclusive limit, and `inside` of it if that is flagged as exclusive, and
it is `inside` of an exclusive limit. -/
structure SideAllows (within inside : Binary64 → Prop) (inclusive : Option Binary64)
    (exclusive : Option ExclusiveLimit) : Prop where
  limited : ∀ limit, inclusive = some limit → within limit
  flagged : ∀ limit, inclusive = some limit → exclusive = some (.flag true) → inside limit
  bounded : ∀ limit, exclusive = some (.bound limit) → inside limit

/-- An inclusive limit, if there is no exclusive one beside it. -/
def limitInForce (inclusive : Option Binary64) : Option ExclusiveLimit → Option Binary64
  | some (.bound _) => none
  | none | some (.flag _) => inclusive

/-- An inclusive limit, if there is an exclusive one beside it. -/
def limitOverridden (inclusive : Option Binary64) : Option ExclusiveLimit → Option Binary64
  | some (.bound _) => inclusive
  | none | some (.flag _) => none

section

variable (within inside : Binary64 → Prop) (inclusive : Option Binary64)
  (exclusive : Option ExclusiveLimit)

/-- The keywords ask what those in force ask, and what the overridden one asks. -/
theorem sideAllows_iff :
    SideAllows within inside inclusive exclusive ↔
      SideAllows within inside (limitInForce inclusive exclusive) exclusive ∧
        SideAllows within inside (limitOverridden inclusive exclusive) none := by
  match exclusive with
  | none | some (.flag _) =>
      exact ⟨fun allows => ⟨allows, nofun, nofun, nofun⟩, fun both => both.1⟩
  | some (.bound _) =>
      constructor
      · exact fun allows => ⟨⟨nofun, nofun, allows.bounded⟩, ⟨allows.limited, nofun, nofun⟩⟩
      · exact fun both => ⟨both.2.limited, nofun, both.1.bounded⟩

/-- The one limit that is kept of a side asks what the keywords in force ask. -/
theorem limitOf_iff (weaken : ∀ limit, inside limit → within limit) :
    (∀ limit, (limitOf inclusive exclusive).1 = some limit →
        if (limitOf inclusive exclusive).2 then inside limit else within limit) ↔
      SideAllows within inside (limitInForce inclusive exclusive) exclusive := by
  match exclusive with
  | none =>
      exact ⟨fun meets => ⟨meets, nofun, nofun⟩, fun allows => allows.limited⟩
  | some (.flag false) =>
      exact ⟨fun meets => ⟨meets, nofun, nofun⟩, fun allows => allows.limited⟩
  | some (.flag true) =>
      constructor
      · intro meets
        exact ⟨fun limit given => weaken limit (meets limit given),
          fun limit given _ => meets limit given, nofun⟩
      · exact fun allows limit given => allows.flagged limit given rfl
  | some (.bound limit) =>
      constructor
      · intro meets
        refine ⟨nofun, nofun, ?_⟩
        rintro _ ⟨rfl⟩
        exact meets limit rfl
      · rintro allows _ ⟨rfl⟩
        exact allows.bounded limit rfl

end

theorem Constraints.covers_iff_toRat (c : Constraints) (x : Binary64) :
    c.Covers x ↔
      (∀ least, c.minimum = some least →
        if c.exclusiveMinimum then least.toRat < x.toRat else least.toRat ≤ x.toRat) ∧
      ∀ most, c.maximum = some most →
        if c.exclusiveMaximum then x.toRat < most.toRat else x.toRat ≤ most.toRat := by
  simp only [Binary64.toRat_le_toRat_iff, Binary64.toRat_lt_toRat_iff]
  exact ⟨fun covers => ⟨covers.above, covers.below⟩, fun both => ⟨both.1, both.2⟩⟩

namespace Document.Limits

/-- The values that the keywords for numbers allow. -/
structure Allows (l : Limits) (v : ℚ) : Prop where
  above : SideAllows (fun least => least.toRat ≤ v) (fun least => least.toRat < v)
    l.minimum l.exclusiveMinimum
  below : SideAllows (fun most => v ≤ most.toRat) (fun most => v < most.toRat)
    l.maximum l.exclusiveMaximum

/-- The keywords for numbers without the inclusive limits that are overridden. -/
def inForce (l : Limits) : Limits :=
  { minimum := limitInForce l.minimum l.exclusiveMinimum
    maximum := limitInForce l.maximum l.exclusiveMaximum
    exclusiveMinimum := l.exclusiveMinimum
    exclusiveMaximum := l.exclusiveMaximum }

/-- The inclusive limits that are overridden. -/
def overridden (l : Limits) : Limits :=
  { minimum := limitOverridden l.minimum l.exclusiveMinimum
    maximum := limitOverridden l.maximum l.exclusiveMaximum }

theorem allows_iff (l : Limits) (v : ℚ) :
    l.Allows v ↔ l.inForce.Allows v ∧ l.overridden.Allows v := by
  constructor
  · intro allows
    obtain ⟨aboveInForce, aboveOverridden⟩ := (sideAllows_iff _ _ _ _).mp allows.above
    obtain ⟨belowInForce, belowOverridden⟩ := (sideAllows_iff _ _ _ _).mp allows.below
    exact ⟨⟨aboveInForce, belowInForce⟩, ⟨aboveOverridden, belowOverridden⟩⟩
  · rintro ⟨inForce, overridden⟩
    exact ⟨(sideAllows_iff _ _ _ _).mpr ⟨inForce.above, overridden.above⟩,
      (sideAllows_iff _ _ _ _).mpr ⟨inForce.below, overridden.below⟩⟩

/-- The constraints that the keywords come to cover the values that those in force allow. -/
theorem covers_iff (l : Limits) (x : Binary64) :
    (constraintsOf l).Covers x ↔ l.inForce.Allows x.toRat := by
  have above := limitOf_iff (fun least => least.toRat ≤ x.toRat) (fun least => least.toRat < x.toRat)
    l.minimum l.exclusiveMinimum fun _ => le_of_lt
  have below := limitOf_iff (fun most => x.toRat ≤ most.toRat) (fun most => x.toRat < most.toRat)
    l.maximum l.exclusiveMaximum fun _ => le_of_lt
  rw [Constraints.covers_iff_toRat]
  constructor
  · exact fun covers => ⟨above.mp covers.1, below.mp covers.2⟩
  · exact fun allows => ⟨above.mpr allows.above, below.mpr allows.below⟩

end Document.Limits

namespace Definition

/-- The range check of a definition: its test of numbers, where any number will do. -/
def InRange (d : Definition) (n : Number) : Prop := d.fitsNumber (fun _ => true) (.num n) = true

instance (d : Definition) (n : Number) : Decidable (d.InRange n) :=
  inferInstanceAs (Decidable (_ = true))

theorem fitsNumber_num_iff (d : Definition) (kind : Number → Bool) (n : Number) :
    d.fitsNumber kind (.num n) = true ↔ kind n = true ∧ d.InRange n := by
  rw [InRange, fitsNumber, fitsNumber, Bool.and_eq_true, Bool.true_and]

theorem inRange_iff (d : Definition) (n : Number) :
    d.InRange n ↔ ∃ x, n.toBinary64? = some x ∧ d.constraints.Covers x := by
  rw [InRange, fitsNumber_iff]
  simp

/-- The decoder looks at the range of the values of both numeric types. -/
theorem fitsShape_num_iff {d : Definition} {type : DataType} (typed : d.type = some type)
    (numeric : type = .integer ∨ type = .number) (test : Node → Json → Bool) (n : Number) :
    d.fitsShape test (.num n) = true ↔ (type = .integer → n.isWhole = true) ∧ d.InRange n := by
  unfold fitsShape
  rw [typed]
  rcases numeric with rfl | rfl
  · simp [fitsNumber_num_iff]
  · simp [fitsNumber_num_iff]

end Definition

/-- A schema for numbers has its one form at least if it holds no references. Where it has, the
decoder asks of a number to be in range, and of one for an integer to be whole. In range are the
numbers whose nearest binary64 number the keywords in force allow. So the range check accepts an
exact number just when all the keywords allow it, unless it does so beyond an overridden limit. -/
theorem range_check_iff {schema : Schema} {type : DataType} (typed : schema.face.type = some type)
    (numeric : type = .integer ∨ type = .number) (follow : Pointer → Transform Notice Node)
    (base : Option String) :
    (schema.paths = [] → ∃ t, normalizeSchema follow base schema = .ok t) ∧
    ∀ {t}, normalizeSchema follow base schema = .ok t → ∀ test (n : Number),
      (t.value.fitsShape test (.num n) = true ↔
        (type = .integer → n.isWhole = true) ∧ t.value.InRange n) ∧
      (t.value.InRange n ↔ ∃ x, n.toBinary64? = some x ∧ schema.limits.inForce.Allows x.toRat) ∧
      (n.IsExact →
        ((t.value.InRange n ↔ schema.limits.Allows n.toRat) ↔
          (t.value.InRange n → schema.limits.overridden.Allows n.toRat))) := by
  refine ⟨fun plain => exists_normalizeSchema_of_plain plain follow base, ?_⟩
  intro t success test n
  obtain ⟨_, outlined⟩ := outlined_of_normalizeSchema success
  have kept : t.value.type = some type := (congrArg Face.type outlined.face).trans typed
  have constraints : t.value.constraints = constraintsOf schema.limits :=
    congrArg Face.constraints outlined.face
  have ranged : t.value.InRange n ↔
      ∃ x, n.toBinary64? = some x ∧ schema.limits.inForce.Allows x.toRat := by
    simp only [Definition.inRange_iff, constraints, Limits.covers_iff]
  refine ⟨Definition.fitsShape_num_iff kept numeric test n, ranged, ?_⟩
  rintro ⟨x, nearest, same⟩
  have inForce : t.value.InRange n ↔ schema.limits.inForce.Allows n.toRat := by
    simp [ranged, nearest, same]
  rw [Limits.allows_iff, inForce]
  exact iff_self_and

namespace Sample

def wholeLimit (n : Nat) : Binary64 := ⟨false, n * Binary64.unitsPerOne⟩

theorem toRat_wholeLimit (n : Nat) : (wholeLimit n).toRat = n :=
  Binary64.toRat_eq_of_toUnits (k := n) rfl

/-- The integers above 1 and below 10, the lower limit given with a flag. -/
def digits : Schema :=
  { Schema.ofType .integer with
    limits :=
      { minimum := some (wholeLimit 1), exclusiveMinimum := some (.flag true)
        exclusiveMaximum := some (.bound (wholeLimit 10)) } }

/-- The integers from 10 on, which are also above 5. -/
def tens : Schema :=
  { Schema.ofType .integer with
    limits := { minimum := some (wholeLimit 10), exclusiveMinimum := some (.bound (wholeLimit 5)) } }

end Sample

/-- Neither limit is overridden, so that an integer between them is in range and allowed. -/
theorem range_check_digit :
    Sample.digits.face.type = some .integer ∧ Sample.digits.paths = [] ∧ (Number.int 7).IsExact ∧
      ∃ t, normalizeSchema Sample.follow none Sample.digits = .ok t ∧
        t.value.fitsShape (fun _ _ => true) (.num (.int 7)) = true ∧
        Sample.digits.limits.Allows (Number.int 7).toRat := by
  have law := (@range_check_iff Sample.digits .integer rfl (Or.inl rfl) Sample.follow none).2 rfl
    (fun _ _ => true) (.int 7)
  have exact : (Number.int 7).IsExact := Number.isExact_int (by decide)
  have overridden : Sample.digits.limits.overridden.Allows (Number.int 7).toRat :=
    ⟨⟨nofun, nofun, nofun⟩, ⟨nofun, nofun, nofun⟩⟩
  have fits := law.1.mpr ⟨fun _ => rfl, by decide +kernel⟩
  refine ⟨rfl, rfl, exact, _, rfl, fits, ?_⟩
  exact ((law.2.2 exact).mpr fun _ => overridden).mp (law.1.mp fits).2

/-- The weaker exclusive limit overrides the inclusive one, so that an integer below that is in
range, though it is not allowed. -/
theorem seven_in_range_of_tens :
    ∃ t, normalizeSchema Sample.follow none Sample.tens = .ok t ∧
      Sample.tens.face.type = some .integer ∧ t.value.InRange (.int 7) ∧
      ¬ Sample.tens.limits.Allows (Number.int 7).toRat := by
  refine ⟨_, rfl, rfl, by decide +kernel, fun allows => ?_⟩
  have least := allows.above.limited (Sample.wholeLimit 10) rfl
  rw [Sample.toRat_wholeLimit, Number.toRat] at least
  norm_num at least

end ApiCodec

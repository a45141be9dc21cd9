import Mathlib.Algebra.Order.Floor.Ring
import Mathlib.Data.Rat.Floor
import Mathlib.Tactic.Linarith
import Mathlib.Tactic.Positivity
import PenRover.Numeric.Number

/-!
# Exact values

A finite double has an exact rational value, and so has an integer.  The statements of this library
about numbers are statements about these values.  This module says what the operations that do not
round come to on them: the integer parts of a double, and the comparison of a double with an
integer.
-/

namespace PenRover

/-- What follows a computation that succeeds. -/
lemma ok_bind {ε α β : Type} (a : α) (f : α → Except ε β) : (.ok a >>= f) = f a := rfl

/-- Two computations, one after the other, give a result when both do. -/
lemma bind_eq_ok {ε α β : Type} {x : Except ε α} {f : α → Except ε β} {b : β} :
    x >>= f = .ok b ↔ ∃ a, x = .ok a ∧ f a = .ok b := by
  cases x with
  | error fault => simp [bind, Except.bind]
  | ok a => simp [bind, Except.bind]

namespace Double

/-- The exact value of a double; none for an infinity and for what is not a number. -/
def value? (x : Float) : Option ℚ :=
  match view x with
  | .finite negative mantissa exponent => some (signed negative mantissa * 2 ^ exponent)
  | _ => none

/-- The value of a double with this mantissa and exponent. -/
lemma value?_of_view {x : Float} {negative : Bool} {mantissa : Nat} {exponent : Int}
    (h : view x = .finite negative mantissa exponent) :
    value? x = some ((signed negative mantissa : ℚ) * 2 ^ exponent) := by
  simp only [value?, h]

/-- A double with a value has a mantissa and an exponent. -/
lemma exists_view_of_value? {x : Float} {q : ℚ} (h : value? x = some q) :
    ∃ negative mantissa exponent, view x = .finite negative mantissa exponent ∧
      q = (signed negative mantissa : ℚ) * 2 ^ exponent := by
  unfold value? at h
  split at h
  next negative mantissa exponent hview =>
    exact ⟨negative, mantissa, exponent, hview, (Option.some.inj h).symm⟩
  next => simp at h

/-- A double is finite when it has a value. -/
lemma isFinite_iff_value? {x : Float} : isFinite x = true ↔ ∃ q, value? x = some q := by
  unfold isFinite value?
  cases view x <;> simp

/-- A positive mantissa is itself. -/
@[simp] lemma signed_false (m : Nat) : signed false m = m := rfl

/-- A negative mantissa is its negative. -/
@[simp] lemma signed_true (m : Nat) : signed true m = -(m : Int) := rfl

/-! ### Signed magnitudes and powers of two -/

/-- A sign is kept when a mantissa is multiplied. -/
lemma signed_mul (negative : Bool) (m k : Nat) :
    signed negative (m * k) = signed negative m * k := by
  cases negative <;> simp [signed]

/-- A mantissa with an exponent that is not negative is an integer. -/
lemma signed_cast_mul_zpow_ofNat (negative : Bool) (m e : Nat) :
    (signed negative m : ℚ) * 2 ^ (Int.ofNat e) = (signed negative (m * 2 ^ e) : Int) := by
  rw [signed_mul, Int.ofNat_eq_natCast, zpow_natCast]
  push_cast
  rfl

/-- A mantissa with a negative exponent is a quotient. -/
lemma signed_cast_mul_zpow_negSucc (negative : Bool) (m e : Nat) :
    (signed negative m : ℚ) * 2 ^ (Int.negSucc e) =
      (signed negative m : ℚ) / ((2 ^ (e + 1) : Nat) : ℚ) := by
  rw [zpow_negSucc, div_eq_mul_inv]
  push_cast
  rfl

/-- The greatest integer not above the number. -/
lemma floorOf_eq (negative : Bool) (m : Nat) (e : Int) :
    floorOf negative m e = ⌊(signed negative m : ℚ) * 2 ^ e⌋ := by
  cases e with
  | ofNat e =>
    rw [signed_cast_mul_zpow_ofNat, Int.floor_intCast]
    rfl
  | negSucc e =>
    rw [signed_cast_mul_zpow_negSucc, Rat.floor_intCast_div_natCast]
    exact Int.fdiv_eq_ediv_of_nonneg _ (Int.natCast_nonneg _)

end Double

/-- The integer part of a number: the nearest integer between zero and the number. -/
def integerPart (q : ℚ) : Int := if 0 ≤ q then ⌊q⌋ else ⌈q⌉

/-- The integer part of an integer is the integer. -/
@[simp] lemma integerPart_intCast (n : Int) : integerPart n = n := by
  unfold integerPart
  split <;> simp

namespace Double

/-- A quotient of natural numbers is not negative. -/
lemma natCast_div_nonneg (m k : Nat) : (0 : ℚ) ≤ (m : ℚ) / (k : ℚ) := by positivity

/-- A double is cut off at its integer part. -/
lemma truncateOf_eq (negative : Bool) (m : Nat) (e : Int) :
    truncateOf negative m e = integerPart ((signed negative m : ℚ) * 2 ^ e) := by
  cases e with
  | ofNat e =>
    rw [signed_cast_mul_zpow_ofNat, integerPart_intCast]
    rfl
  | negSucc e =>
    rw [signed_cast_mul_zpow_negSucc]
    have hfloor : ⌊(m : ℚ) / ((2 ^ (e + 1) : Nat) : ℚ)⌋ = ((m / 2 ^ (e + 1) : Nat) : Int) := by
      rw [← Int.cast_natCast m, Rat.floor_intCast_div_natCast]
      rfl
    have hnonneg := natCast_div_nonneg m (2 ^ (e + 1))
    change signed negative (m / 2 ^ (e + 1)) = _
    cases negative with
    | false =>
      rw [signed_false, signed_false, Int.cast_natCast, integerPart, if_pos hnonneg, hfloor]
    | true =>
      rw [signed_true, signed_true, Int.cast_neg, Int.cast_natCast, neg_div, integerPart]
      split
      next hle =>
        have hzero : (m : ℚ) / ((2 ^ (e + 1) : Nat) : ℚ) = 0 := by linarith
        rw [hzero] at hfloor ⊢
        simpa using hfloor.symm
      next => rw [Int.ceil_neg, hfloor]

/-- Integers are compared as the numbers that they are. -/
lemma compare_intCast (m n : Int) : compare (m : ℚ) n = compare m n := by
  rw [← cmp_eq_compare, ← cmp_eq_compare, Int.cast_strictMono.cmp_map_eq]

/-- The order of a finite double and an integer is the order of their values. -/
lemma compareFinite_eq (negative : Bool) (m : Nat) (e n : Int) :
    compareFinite negative m e n = compare ((signed negative m : ℚ) * 2 ^ e) (n : ℚ) := by
  cases e with
  | ofNat e =>
    rw [signed_cast_mul_zpow_ofNat, compare_intCast]
    rfl
  | negSucc e =>
    rw [signed_cast_mul_zpow_negSucc]
    change compare (signed negative m) (n * ((2 ^ (e + 1) : Nat) : Int)) = _
    have hpos : (0 : ℚ) < ((2 ^ (e + 1) : Nat) : ℚ) := by positivity
    rw [← compare_intCast, Int.cast_mul, Int.cast_natCast]
    rcases lt_trichotomy (signed negative m : ℚ) (n * ((2 ^ (e + 1) : Nat) : ℚ)) with h | h | h
    · rw [compare_lt_iff_lt.mpr h, compare_lt_iff_lt.mpr ((div_lt_iff₀ hpos).mpr h)]
    · rw [compare_eq_iff_eq.mpr h, compare_eq_iff_eq.mpr ((div_eq_iff hpos.ne').mpr h)]
    · rw [compare_gt_iff_gt.mpr h, compare_gt_iff_gt.mpr ((lt_div_iff₀ hpos).mpr h)]

/-- A double is compared with an integer by their values. -/
lemma compareInt_eq {x : Float} {q : ℚ} (h : value? x = some q) (n : Int) :
    compareInt x n = some (compare q (n : ℚ)) := by
  obtain ⟨negative, m, e, hview, rfl⟩ := exists_view_of_value? h
  simp only [compareInt, hview, compareFinite_eq]

end Double

namespace Number

/-- The exact value of a number; none for an infinity and for what is not a number. -/
def value? : Number → Option ℚ
  | .int n => some n
  | .double x => Double.value? x

/-- The value of an integer. -/
@[simp] lemma value?_int (n : Int) : (Number.int n).value? = some (n : ℚ) := rfl

/-- The value of a double as a number. -/
@[simp] lemma value?_double (x : Float) : (Number.double x).value? = Double.value? x := rfl

/-- A number with a value has a greatest integer not above it. -/
lemma floor_eq {a : Number} {q : ℚ} (h : a.value? = some q) : a.floor = .ok ⌊q⌋ := by
  cases a with
  | int n =>
    obtain rfl : (n : ℚ) = q := Option.some.inj h
    simp [floor]
  | double x =>
    obtain ⟨negative, m, e, hview, rfl⟩ := Double.exists_view_of_value? h
    simp only [floor, hview, Double.floorOf_eq]

/-- What has no value has no greatest integer not above it. -/
lemma value?_of_floor {a : Number} {n : Int} (h : a.floor = .ok n) :
    ∃ q, a.value? = some q ∧ n = ⌊q⌋ := by
  cases hvalue : a.value? with
  | some q =>
    rw [floor_eq hvalue] at h
    exact ⟨q, rfl, (Except.ok.inj h).symm⟩
  | none =>
    cases a with
    | int m => simp at hvalue
    | double x =>
      simp only [value?_double, Double.value?] at hvalue
      simp only [floor] at h
      split at h <;> simp_all

end Number

end PenRover

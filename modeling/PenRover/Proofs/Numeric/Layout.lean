import Mathlib
import PenRover.Proofs.Numeric.Exact

/-!
# The layout of doubles

The arithmetic of doubles is defined on unpacked doubles: a sign, a mantissa and an exponent, or a
special value.  An operation unpacks the bit patterns of its operands and packs its result.  This
module ties both directions to the exact content of a double: the operands have the content that
their patterns show (`view_eq_content`), and what is packed in canonical form is shown again
(`view_ofModel_pack`).
-/

namespace PenRover

namespace Double

open Float.Model Float.Model.UnpackedFloat

/-- The sign is that of a negative number. -/
def isNegative : Sign → Bool
  | .negative => true
  | .positive => false

/-- The exact content of an unpacked double. -/
def content : UnpackedFloat → DoubleView
  | .notANumber => .nan
  | .infinity sign => .infinite (isNegative sign)
  | .zero sign => .finite (isNegative sign) 0 (-1074)
  | .finite sign mantissa exponent _ => .finite (isNegative sign) mantissa exponent

/-- The unpacked double is in the form in which the bit patterns hold it. -/
def Canonical : UnpackedFloat → Prop
  | .finite _ mantissa exponent _ =>
    mantissa < 2 ^ 53 ∧ -1074 ≤ exponent ∧ exponent ≤ 971 ∧ (2 ^ 52 ≤ mantissa ∨ exponent = -1074)
  | _ => True

/-! ### The fields of a bit pattern -/

/-- The mantissa of a pattern is its lowest 52 bits. -/
lemma toNat_unpackMantissa (b : BitVec Format.binary64.numBits) :
    (unpackMantissa b).toNat = b.toNat % 2 ^ 52 := by
  simp [unpackMantissa, BitVec.extractLsb, BitVec.extractLsb'_toNat]

/-- The exponent of a pattern is the 11 bits above its mantissa. -/
lemma toNat_unpackExponent (b : BitVec Format.binary64.numBits) :
    (unpackExponent b).toNat = b.toNat / 2 ^ 52 % 2 ^ 11 := by
  simp [unpackExponent, BitVec.extractLsb, BitVec.extractLsb'_toNat, Nat.shiftRight_eq_div_pow]

/-- The sign of a pattern is its highest bit. -/
lemma toNat_unpackSign (b : BitVec Format.binary64.numBits) :
    (unpackSign b).toNat = b.toNat / 2 ^ 63 % 2 := by
  simp [unpackSign, BitVec.extractLsb, BitVec.extractLsb'_toNat, Nat.shiftRight_eq_div_pow]

/-- The bit pattern of three fields. -/
lemma toNat_packComponents (sign : Sign) (field : BitVec 11) (fraction : BitVec 52) :
    (packComponents Format.binary64 sign field fraction).toNat =
      sign.toBitVec.toNat * 2 ^ 63 + field.toNat * 2 ^ 52 + fraction.toNat := by
  unfold packComponents
  rw [BitVec.toNat_append, BitVec.toNat_append, ← Nat.shiftLeft_add_eq_or_of_lt field.isLt,
    ← Nat.shiftLeft_add_eq_or_of_lt fraction.isLt]
  simp only [Nat.shiftLeft_eq]
  ring

/-- The content of a bit pattern by its fields. -/
lemma viewBits_packComponents (sign : Sign) (field : BitVec 11) (fraction : BitVec 52) :
    viewBits (packComponents Format.binary64 sign field fraction).toNat =
      if field.toNat = 2047 then
        if fraction.toNat = 0 then .infinite (isNegative sign) else .nan
      else if field.toNat = 0 then .finite (isNegative sign) fraction.toNat (-1074)
      else .finite (isNegative sign) (2 ^ 52 + fraction.toNat) ((field.toNat : Int) - 1075) := by
  have hfield := field.isLt
  have hfraction := fraction.isLt
  rw [toNat_packComponents]
  generalize field.toNat = f at *
  generalize fraction.toNat = m at *
  have hsign : sign.toBitVec.toNat = if isNegative sign then 1 else 0 := by
    cases sign <;> rfl
  rw [hsign]
  have hf : ((if isNegative sign then 1 else 0) * 2 ^ 63 + f * 2 ^ 52 + m) / 2 ^ 52 % 2 ^ 11 =
      f := by
    split <;> omega
  have hm : ((if isNegative sign then 1 else 0) * 2 ^ 63 + f * 2 ^ 52 + m) % 2 ^ 52 = m := by
    split <;> omega
  have hbit : ((if isNegative sign then 1 else 0) * 2 ^ 63 + f * 2 ^ 52 + m) / 2 ^ 63 % 2 =
      if isNegative sign then 1 else 0 := by
    have hlow : f * 2 ^ 52 + m < 2 ^ 63 := by omega
    rw [Nat.add_assoc, Nat.mul_comm, Nat.mul_add_div (Nat.two_pow_pos 63), Nat.div_eq_of_lt hlow]
    split <;> rfl
  have hs : ((if isNegative sign then 1 else 0) == 1) = isNegative sign := by
    cases isNegative sign <;> rfl
  unfold viewBits
  rw [hf, hm, hbit, hs]

/-- A bit pattern is made of its fields. -/
lemma viewBits_toNat (b : BitVec Format.binary64.numBits) :
    viewBits b.toNat = content (UnpackedFloat.unpack Format.binary64 b) := by
  have hsign : (b.toNat / 2 ^ 63 % 2 == 1) = isNegative (Sign.ofBitVec (unpackSign b)) := by
    have hbit := toNat_unpackSign b
    by_cases hzero : unpackSign b = 0#1
    · rw [hzero] at hbit
      simp only [BitVec.toNat_zero] at hbit
      rw [hzero, ← hbit]
      rfl
    · have hone : (unpackSign b).toNat = 1 := by
        have hlt := (unpackSign b).isLt
        have hne : (unpackSign b).toNat ≠ 0 := fun h => hzero (BitVec.eq_of_toNat_eq h)
        omega
      rw [← hbit, hone, Sign.ofBitVec, if_neg hzero]
      rfl
  have hinfinite : (unpackExponent b = -1#11) ↔ b.toNat / 2 ^ 52 % 2 ^ 11 = 2047 := by
    rw [← BitVec.toNat_inj, toNat_unpackExponent]
    rfl
  have hsmall : (unpackExponent b = 0#11) ↔ b.toNat / 2 ^ 52 % 2 ^ 11 = 0 := by
    rw [← BitVec.toNat_inj, toNat_unpackExponent]
    rfl
  have hzero : (unpackMantissa b = 0#52) ↔ b.toNat % 2 ^ 52 = 0 := by
    rw [← BitVec.toNat_inj, toNat_unpackMantissa]
    rfl
  have himplicit : (1#1 ++ unpackMantissa b).toNat = 2 ^ 52 + b.toNat % 2 ^ 52 := by
    rw [BitVec.toNat_append, ← Nat.shiftLeft_add_eq_or_of_lt (unpackMantissa b).isLt,
      toNat_unpackMantissa]
    rfl
  unfold viewBits UnpackedFloat.unpack
  simp only [hsign]
  by_cases hi : b.toNat / 2 ^ 52 % 2 ^ 11 = 2047
  · rw [if_pos hi, if_pos (hinfinite.mpr hi)]
    by_cases hz : b.toNat % 2 ^ 52 = 0
    · rw [if_pos hz, if_pos (hzero.mpr hz)]
      rfl
    · rw [if_neg hz, if_neg (mt hzero.mp hz)]
      rfl
  · rw [if_neg hi, if_neg (mt hinfinite.mp hi)]
    by_cases hs : b.toNat / 2 ^ 52 % 2 ^ 11 = 0
    · rw [if_pos hs, if_pos (hsmall.mpr hs)]
      by_cases hz : b.toNat % 2 ^ 52 = 0
      · rw [dif_pos (hzero.mpr hz), hz]
        rfl
      · rw [dif_neg (mt hzero.mp hz)]
        simp only [content, toNat_unpackMantissa, toNat_unpackExponent, hs]
        rfl
    · rw [if_neg hs, if_neg (mt hsmall.mp hs)]
      simp only [content, himplicit, toNat_unpackExponent]
      rfl

/-- A double has the content of its unpacked form. -/
lemma view_eq_content (x : Float) : view x = content x.toModel.unpack :=
  viewBits_toNat x.toModel.toBits.toBitVec

/-! ### Packing -/

/-- A canonical double is recovered from its pattern. -/
lemma viewBits_pack (u : UnpackedFloat) (h : Canonical u) :
    viewBits (UnpackedFloat.pack Format.binary64 u).toNat = content u := by
  cases u with
  | notANumber => rfl
  | infinity sign => cases sign <;> rfl
  | zero sign => cases sign <;> rfl
  | finite sign m e hm =>
    obtain ⟨hmantissa, hlow, hhigh, hform⟩ := h
    have hbiased : ¬ 2 ^ 11 ≤ (e + 1023 + 52).toNat + 1 := by omega
    have hfield : (BitVec.ofNat 11 (e + 1023 + 52).toNat).toNat = (e + 1075).toNat := by
      rw [BitVec.toNat_ofNat]
      omega
    change viewBits (if 2 ^ 11 ≤ (e + 1023 + 52).toNat + 1 then packedInfinity Format.binary64 sign
      else if m.log2 + 1 = 53 then
        packComponents Format.binary64 sign (BitVec.ofNat 11 (e + 1023 + 52).toNat)
          (BitVec.ofNat 52 m)
      else packComponents Format.binary64 sign 0#11 (BitVec.ofNat 52 m)).toNat = _
    rw [if_neg hbiased]
    by_cases hnormal : 2 ^ 52 ≤ m
    · have hlog : m.log2 + 1 = 53 := by
        rw [(Nat.log2_eq_iff hm.ne').mpr ⟨hnormal, hmantissa⟩]
      have hfraction : (BitVec.ofNat 52 m).toNat = m - 2 ^ 52 := by
        rw [BitVec.toNat_ofNat]
        omega
      rw [if_pos hlog, viewBits_packComponents, hfield, hfraction, if_neg (by omega),
        if_neg (by omega)]
      simp only [content, DoubleView.finite.injEq, true_and]
      omega
    · have hsubnormal : m.log2 + 1 ≠ 53 := by
        have hlt := (Nat.log2_lt hm.ne').mpr (not_le.mp hnormal)
        omega
      have hfraction : (BitVec.ofNat 52 m).toNat = m := by
        rw [BitVec.toNat_ofNat]
        omega
      rw [if_neg hsubnormal, viewBits_packComponents, hfraction, if_neg (by simp), if_pos (by simp),
        hform.resolve_left hnormal]
      rfl

/-- What is packed in canonical form is shown again. -/
lemma view_ofModel_pack (u : UnpackedFloat) (h : Canonical u) :
    view (.ofModel (.pack u)) = content u :=
  viewBits_pack u h

/-- Every bit pattern is in canonical form. -/
lemma canonical_unpack (b : BitVec Format.binary64.numBits) :
    Canonical (UnpackedFloat.unpack Format.binary64 b) := by
  have hfield := (unpackExponent b).isLt
  have hfraction := (unpackMantissa b).isLt
  unfold UnpackedFloat.unpack
  dsimp only
  split
  · split <;> trivial
  next hnot =>
    have hne : (unpackExponent b).toNat ≠ 2047 := fun h => hnot (BitVec.eq_of_toNat_eq h)
    have hbias : ((Format.binary64.exponentBias +
        Format.binary64.mantissaBitsWithoutImplicit : Int)) = 1075 := rfl
    change (unpackExponent b).toNat < 2 ^ 11 at hfield
    change (unpackMantissa b).toNat < 2 ^ 52 at hfraction
    split
    next hsmall =>
      have hzero : (unpackExponent b).toNat = 0 := congrArg BitVec.toNat hsmall
      split
      · trivial
      · simp only [Canonical, hbias, hzero]
        omega
    next hlarge =>
      have hpos : (unpackExponent b).toNat ≠ 0 := fun h => hlarge (BitVec.eq_of_toNat_eq h)
      have himplicit : (1#1 ++ unpackMantissa b).toNat = 2 ^ 52 + (unpackMantissa b).toNat := by
        rw [BitVec.toNat_append, ← Nat.shiftLeft_add_eq_or_of_lt (unpackMantissa b).isLt]
        rfl
      simp only [Canonical, hbias, himplicit]
      omega

/-- Every double is unpacked in canonical form. -/
lemma canonical_unpack_toModel (x : Float) : Canonical x.toModel.unpack :=
  canonical_unpack x.toModel.toBits.toBitVec

/-- The double of a bit pattern shows the content of the pattern. -/
lemma view_ofBits (bits : UInt64) : view (.ofBits bits) = viewBits bits.toNat := by
  rw [show Float.ofBits bits =
      .ofModel (.pack (UnpackedFloat.unpack Format.binary64 bits.toBitVec)) from rfl,
    view_ofModel_pack _ (canonical_unpack _)]
  exact (viewBits_toNat bits.toBitVec).symm

/-! ### Doubles that are not finite -/

/-- A double is given by its bit pattern. -/
lemma eq_of_toBits_eq {x y : Float} (h : x.toBits = y.toBits) : x = y := by
  obtain ⟨bits, hx⟩ := x
  obtain ⟨bits', hy⟩ := y
  obtain rfl : bits = bits' := h
  rfl

/-- The bit patterns of the infinities. -/
lemma toNat_of_viewBits_infinite {bits : Nat} (hbits : bits < 2 ^ 64) {negative : Bool}
    (h : viewBits bits = .infinite negative) :
    bits = (if negative then 2 ^ 63 else 0) + 2047 * 2 ^ 52 := by
  unfold viewBits at h
  dsimp only at h
  split at h
  next hfield =>
    split at h
    next hfraction =>
      obtain rfl := DoubleView.infinite.inj h
      cases hsign : bits / 2 ^ 63 % 2 == 1 with
      | true =>
        rw [beq_iff_eq] at hsign
        rw [if_pos rfl]
        omega
      | false =>
        rw [beq_eq_false_iff_ne] at hsign
        rw [if_neg Bool.false_ne_true]
        omega
    · exact nomatch h
  · split at h <;> exact nomatch h

/-- There is one infinity of each sign. -/
lemma eq_of_view_infinite {x : Float} {negative : Bool} (h : view x = .infinite negative) :
    x = if negative then -1 / 0 else 1 / 0 := by
  refine eq_of_toBits_eq (UInt64.toNat_inj.mp ?_)
  rw [toNat_of_viewBits_infinite x.toBits.toNat_lt h]
  cases negative <;> decide +kernel

/-- A pattern that is not a number has the highest exponent and some mantissa. -/
lemma of_viewBits_nan {bits : Nat} (h : viewBits bits = .nan) :
    bits / 2 ^ 52 % 2 ^ 11 = 2047 ∧ bits % 2 ^ 52 ≠ 0 := by
  unfold viewBits at h
  dsimp only at h
  split at h
  next hfield =>
    split at h
    · exact nomatch h
    next hfraction => exact ⟨hfield, hfraction⟩
  · split at h <;> exact nomatch h

/-- There is only one double that is not a number. -/
lemma eq_of_view_nan {x : Float} (h : view x = .nan) : x = 0 / 0 := by
  have hbits (y : Float) (hy : view y = .nan) : y.toBits.toBitVec = packedNaN Format.binary64 := by
    obtain ⟨hfield, hfraction⟩ := of_viewBits_nan hy
    refine y.toModel.valid.eq_packedNaN (BitVec.eq_of_toNat_eq ?_) fun hzero => hfraction ?_
    · exact (toNat_unpackExponent _).trans hfield
    · exact (toNat_unpackMantissa _).symm.trans (congrArg BitVec.toNat hzero)
  refine eq_of_toBits_eq (UInt64.toBitVec_inj.mp ((hbits x h).trans ?_))
  exact (hbits (0 / 0) (by decide +kernel)).symm
end Double

end PenRover

import PenRover.Proofs.Numeric.Order

/-!
# Lengths are not negative

Rounding can lose a number in two ways, to an infinity or to what is not a number.  A square, a sum
and a root of numbers that are not negative go to an infinity only, and keep their sign on the way:
the sign of a result is decided before it is rounded, and packing a result that is too large gives
the infinity of its sign (`view_pack_finite`).
-/

namespace PenRover

open Float.Model Float.Model.UnpackedFloat

/-- The content is a number that is not negative, or the positive infinity. -/
def DoubleView.Nonneg : DoubleView → Prop
  | .nan => False
  | .infinite negative => negative = false
  | .finite negative mantissa _ => negative = false ∨ mantissa = 0

namespace Double

/-! ### Packing -/

/-- A result keeps its sign when it is packed, and becomes a number or an infinity. -/
lemma view_pack_finite (sign : Sign) (m : Nat) (e : Int) (hm : 0 < m) :
    view (.ofModel (.pack (.finite sign m e hm))) = .infinite (isNegative sign) ∨
      ∃ m' e', view (.ofModel (.pack (.finite sign m e hm))) =
        .finite (isNegative sign) m' e' := by
  have hpack : view (.ofModel (.pack (.finite sign m e hm))) =
      viewBits (if 2 ^ 11 ≤ (e + 1023 + 52).toNat + 1 then packedInfinity Format.binary64 sign
        else if m.log2 + 1 = 53 then
          packComponents Format.binary64 sign (BitVec.ofNat 11 (e + 1023 + 52).toNat)
            (BitVec.ofNat 52 m)
        else packComponents Format.binary64 sign 0#11 (BitVec.ofNat 52 m)).toNat := rfl
  rw [hpack]
  split
  · exact .inl (by cases sign <;> rfl)
  next hbiased =>
    have hfield : (BitVec.ofNat 11 (e + 1023 + 52).toNat).toNat ≠ 2047 := by
      rw [BitVec.toNat_ofNat]
      omega
    right
    split
    · rw [viewBits_packComponents, if_neg hfield]
      split <;> exact ⟨_, _, rfl⟩
    · rw [viewBits_packComponents, if_neg (by decide), if_pos (by decide)]
      exact ⟨_, _, rfl⟩

/-- A double that is a number stays one when it is packed. -/
lemma view_pack_ne_nan {u : UnpackedFloat} (h : content u ≠ .nan) :
    view (.ofModel (.pack u)) ≠ .nan := by
  cases u with
  | finite sign m e hm =>
    obtain hview | ⟨m', e', hview⟩ := view_pack_finite sign m e hm <;> rw [hview] <;> simp
  | _ =>
    rw [view_ofModel_pack]
    · exact h
    · trivial

/-- A double that is not negative stays so when it is packed. -/
lemma nonneg_pack {u : UnpackedFloat} (h : (content u).Nonneg) :
    (view (.ofModel (.pack u))).Nonneg := by
  cases u with
  | finite sign m e hm =>
    have hsign : isNegative sign = false := h.resolve_right hm.ne'
    obtain hview | ⟨m', e', hview⟩ := view_pack_finite sign m e hm
    · rw [hview]
      exact hsign
    · rw [hview]
      exact .inl hsign
  | _ =>
    rw [view_ofModel_pack]
    · exact h
    · trivial

/-- No double up to the positive infinity is negative. -/
lemma nonneg_viewBits {bits : Nat} (h : bits ≤ 2047 * 2 ^ 52) : (viewBits bits).Nonneg := by
  have hsign : (bits / 2 ^ 63 % 2 == 1) = false := by
    rw [Nat.div_eq_of_lt (by omega)]
    rfl
  unfold viewBits
  simp only [hsign]
  split
  next =>
    have hfraction : bits % 2 ^ 52 = 0 := by omega
    rw [if_pos hfraction]
    exact rfl
  next => split <;> exact .inl rfl

/-- The double of a quotient without a sign is not negative. -/
lemma nonneg_ofQuotient (num den : Nat) : (view (ofQuotient false num den)).Nonneg := by
  unfold ofQuotient
  rw [view_ofBits]
  generalize hbits : (if num = 0 ∨ den = 0 then 0 else nearestBits num den) = bits
  have hle : bits ≤ 2047 * 2 ^ 52 := by
    rw [← hbits]
    split
    · exact Nat.zero_le _
    · exact Nat.min_le_right _ _
  have hword : bits < 2 ^ 64 := by omega
  rw [if_neg Bool.false_ne_true, Nat.add_zero, UInt64.toNat_ofNat_of_lt' hword]
  exact nonneg_viewBits hle

/-- A double with a value that is not negative is not negative. -/
lemma nonneg_of_value? {x : Float} {q : ℚ} (h : value? x = some q) (hq : 0 ≤ q) :
    (view x).Nonneg := by
  obtain ⟨negative, m, e, hview, rfl⟩ := exists_view_of_value? h
  rw [hview]
  cases negative with
  | false => exact .inl rfl
  | true =>
    right
    by_contra hm
    have hpos : (0 : ℚ) < m * 2 ^ e := by
      have hcast : (0 : ℚ) < m := by exact_mod_cast Nat.pos_of_ne_zero hm
      positivity
    rw [signed_true, Int.cast_neg, Int.cast_natCast, neg_mul] at hq
    linarith

/-! ### Results before they are packed -/

/-- Rounding keeps the sign and gives a finite content. -/
lemma content_roundWithAccuracy (sign : Sign) (m : Nat) (e : Int) (a : Accuracy) :
    ∃ m' e', content (roundWithAccuracy Format.binary64 sign m e a) =
      .finite (isNegative sign) m' e' := by
  unfold roundWithAccuracy
  dsimp only
  split <;> exact ⟨_, _, rfl⟩

/-- Normalizing gives a number. -/
lemma content_normalize_ne_nan (m e : Int) (zero : Sign) :
    content (UnpackedFloat.normalize Format.binary64 m e zero) ≠ .nan := by
  unfold UnpackedFloat.normalize
  split
  · obtain ⟨m', e', hcontent⟩ := content_roundWithAccuracy .negative _ _ .exact
    exact fun h => nomatch hcontent.symm.trans h
  · exact nofun
  · obtain ⟨m', e', hcontent⟩ := content_roundWithAccuracy .positive _ _ .exact
    exact fun h => nomatch hcontent.symm.trans h

/-- Normalizing a mantissa that is not negative gives a number that is not negative. -/
lemma nonneg_normalize {m : Int} (hm : 0 ≤ m) (e : Int) (zero : Sign) :
    (content (UnpackedFloat.normalize Format.binary64 m e zero)).Nonneg := by
  unfold UnpackedFloat.normalize
  split
  next h => exact absurd (compare_lt_iff_lt.mp h) (not_lt.mpr hm)
  · exact .inr rfl
  · obtain ⟨m', e', hcontent⟩ := content_roundWithAccuracy .positive _ _ .exact
    exact hcontent ▸ .inl rfl

/-- The square of an unpacked double that is a number is not negative. -/
lemma nonneg_mul_self {u : UnpackedFloat} (h : content u ≠ .nan) :
    (content (UnpackedFloat.mul Format.binary64 u u)).Nonneg := by
  cases u with
  | notANumber => exact absurd rfl h
  | infinity sign => cases sign <;> rfl
  | zero sign => exact .inr rfl
  | finite sign m e hm =>
    obtain ⟨m', e', hcontent⟩ :=
      content_roundWithAccuracy (sign * sign) (m * m) (e + e) .exact
    have hsign : isNegative (sign * sign) = false := by cases sign <;> rfl
    rw [hsign] at hcontent
    exact hcontent ▸ .inl rfl

/-- A sign that is not the negative one is the positive one. -/
lemma eq_positive {s : Sign} (h : isNegative s = false) : s = .positive := by
  cases s
  · exact nomatch h
  · rfl

/-- The sum of unpacked doubles that are not negative is not negative. -/
lemma nonneg_add {u v : UnpackedFloat} (hu : (content u).Nonneg) (hv : (content v).Nonneg) :
    (content (UnpackedFloat.add Format.binary64 u v)).Nonneg := by
  cases u with
  | notANumber => exact hu.elim
  | infinity s =>
    obtain rfl := eq_positive hu
    cases v with
    | notANumber => exact hv.elim
    | infinity t =>
      obtain rfl := eq_positive hv
      exact rfl
    | zero s => exact rfl
    | finite s m e hm => exact rfl
  | zero s =>
    cases v with
    | notANumber => exact hv.elim
    | infinity s => exact hv
    | zero t =>
      simp only [UnpackedFloat.add]
      split <;> exact .inr rfl
    | finite t m e hm => exact hv
  | finite s m e hm =>
    cases v with
    | notANumber => exact hv.elim
    | infinity s => exact hv
    | zero t => exact hu
    | finite t m' e' hm' =>
      obtain rfl := eq_positive (hu.resolve_right hm.ne')
      obtain rfl := eq_positive (hv.resolve_right hm'.ne')
      exact nonneg_normalize (Int.add_nonneg (Int.natCast_nonneg _) (Int.natCast_nonneg _)) _ _

/-- The root of an unpacked double that is not negative is not negative. -/
lemma nonneg_sqrt {u : UnpackedFloat} (h : (content u).Nonneg) :
    (content (UnpackedFloat.sqrt Format.binary64 u)).Nonneg := by
  cases u with
  | notANumber => exact h
  | infinity s =>
    obtain rfl := eq_positive h
    exact rfl
  | zero s => exact .inr rfl
  | finite s m e hm =>
    obtain rfl := eq_positive (h.resolve_right hm.ne')
    obtain ⟨m', e', hcontent⟩ := content_roundWithAccuracy .positive
      (sqrtCore Format.binary64 m e).1 (sqrtCore Format.binary64 m e).2.1
      (sqrtCore Format.binary64 m e).2.2
    have hroot : content (UnpackedFloat.sqrt Format.binary64 (.finite .positive m e hm)) =
        .finite false m' e' := hcontent
    exact hroot ▸ .inl rfl

/-- The difference of a finite double and a number is a number. -/
lemma sub_ne_nan {u v : UnpackedFloat} {q : ℚ} (hu : amount u = some q) (hv : content v ≠ .nan) :
    content (UnpackedFloat.sub Format.binary64 u v) ≠ .nan := by
  obtain ⟨s, rfl, rfl⟩ | ⟨s, m, e, hm, rfl, rfl⟩ := amount_cases hu
  · cases v with
    | notANumber => exact absurd rfl hv
    | infinity t => rintro ⟨⟩
    | zero t =>
      simp only [UnpackedFloat.sub]
      split <;> rintro ⟨⟩
    | finite t m e hm => rintro ⟨⟩
  · cases v with
    | notANumber => exact absurd rfl hv
    | infinity t => rintro ⟨⟩
    | zero t => rintro ⟨⟩
    | finite t m' e' hm' => exact content_normalize_ne_nan _ _ _

end Double

/-! ### Numbers -/

namespace Number

/-- The number is an integer, a finite double or an infinity. -/
def IsNumber : Number → Prop
  | .int _ => True
  | .double x => Double.view x ≠ .nan

/-- The number is not negative; it may be the positive infinity. -/
def Nonneg : Number → Prop
  | .int n => 0 ≤ n
  | .double x => (Double.view x).Nonneg

variable {a b c : Number}

/-- The double of a number that is not negative is not negative. -/
lemma nonneg_toDouble {x : Float} (ha : a.Nonneg) (h : a.toDouble = .ok x) :
    (Double.view x).Nonneg := by
  cases a with
  | double y =>
    obtain rfl := Except.ok.inj h
    exact ha
  | int n =>
    simp only [Number.toDouble, Double.ofInt?] at h
    split at h
    next y hy =>
      obtain rfl := Except.ok.inj h
      split at hy
      next =>
        rw [← Option.some.inj hy, decide_eq_false (not_lt.mpr ha)]
        exact Double.nonneg_ofQuotient _ _
      next => cases hy
    next => cases h

/-- The double of an integer is finite. -/
lemma exists_value?_toDouble {n : Int} {x : Float} (h : (Number.int n).toDouble = .ok x) :
    ∃ q, Double.value? x = some q := by
  simp only [Number.toDouble, Double.ofInt?] at h
  split at h
  next y hy =>
    obtain rfl := Except.ok.inj h
    split at hy
    next hfinite =>
      obtain rfl := Option.some.inj hy
      exact Double.isFinite_iff_value?.mp hfinite
    next => cases hy
  next => cases h

/-- The square of a number is not negative. -/
lemma nonneg_mul_self (ha : a.IsNumber) (h : Number.mul a a = .ok c) : c.Nonneg := by
  cases a with
  | int n =>
    obtain rfl := Except.ok.inj h
    exact mul_self_nonneg n
  | double x =>
    obtain rfl := Except.ok.inj h
    refine Double.nonneg_pack (Double.nonneg_mul_self ?_)
    rwa [← Double.view_eq_content]

/-- The sum of numbers that are not negative is not negative. -/
lemma nonneg_add (ha : a.Nonneg) (hb : b.Nonneg) (h : Number.add a b = .ok c) : c.Nonneg := by
  -- a sum that is not of two integers is that of their doubles
  have hrounded {x y : Float} (hx : (Double.view x).Nonneg) (hy : (Double.view y).Nonneg) :
      (Number.double (x + y)).Nonneg := by
    rw [Double.view_eq_content] at hx hy
    exact Double.nonneg_pack (Double.nonneg_add hx hy)
  cases a with
  | int m =>
    cases b with
    | int n =>
      obtain rfl := Except.ok.inj h
      exact Int.add_nonneg ha hb
    | double y =>
      obtain ⟨x, hx, hc⟩ := bind_eq_ok.mp h
      obtain rfl := Except.ok.inj hc
      exact hrounded (nonneg_toDouble ha hx) hb
  | double x =>
    cases b with
    | int n =>
      obtain ⟨y, hy, hc⟩ := bind_eq_ok.mp h
      obtain rfl := Except.ok.inj hc
      exact hrounded ha (nonneg_toDouble hb hy)
    | double y =>
      obtain rfl := Except.ok.inj h
      exact hrounded ha hb

/-- A root is a double. -/
lemma nonneg_sqrt (ha : a.Nonneg) (h : Number.sqrt a = .ok c) : c.Nonneg := by
  obtain ⟨x, hx, hc⟩ := bind_eq_ok.mp h
  obtain rfl := Except.ok.inj hc
  have hview := nonneg_toDouble ha hx
  rw [Double.view_eq_content] at hview
  exact Double.nonneg_pack (Double.nonneg_sqrt hview)

/-- The way from a number to an integer. -/
lemma isNumber_sub {n : Int} (ha : a.IsNumber) (h : Number.sub (.int n) a = .ok c) :
    c.IsNumber := by
  cases a with
  | int m =>
    obtain rfl := Except.ok.inj h
    trivial
  | double y =>
    obtain ⟨x, hx, hc⟩ := bind_eq_ok.mp h
    obtain rfl := Except.ok.inj hc
    obtain ⟨q, hq⟩ := exists_value?_toDouble hx
    rw [Double.value?_eq_amount] at hq
    have hy : Double.view y ≠ .nan := ha
    rw [Double.view_eq_content] at hy
    exact Double.view_pack_ne_nan (Double.sub_ne_nan hq hy)

/-- What is not negative is at least zero. -/
lemma zero_le_of_nonneg (ha : a.Nonneg) : Number.le (.int 0) a = true := by
  cases a with
  | int n =>
    rcases (show 0 ≤ n from ha).lt_or_eq with hlt | rfl
    · simp [Number.le, Number.compare?, compare_lt_iff_lt.mpr hlt]
    · rfl
  | double x =>
    have hx : (Double.view x).Nonneg := ha
    cases hview : Double.view x with
    | nan =>
      rw [hview] at hx
      exact hx.elim
    | infinite negative =>
      rw [hview] at hx
      obtain rfl : negative = false := hx
      simp [Number.le, Number.compare?, Double.compareInt, hview]
    | finite negative m e =>
      have hq := Double.value?_of_view hview
      rw [hview] at hx
      rw [Number.le_eq_decide (a := .int 0) (b := .double x) rfl hq, decide_eq_true_eq,
        Int.cast_zero]
      obtain rfl | rfl : negative = false ∨ m = 0 := hx
      · rw [Double.signed_false]
        positivity
      · simp [Double.signed]

end Number

end PenRover

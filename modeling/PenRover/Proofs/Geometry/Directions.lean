import PenRover.Proofs.Geometry.Displacements
import PenRover.Proofs.Numeric.Integers

/-!
# Directions of vectors on doubles

Every vector of doubles has a direction and a length: whatever was lost to rounding before, the
cosine is brought back into `[-1, 1]` before its angle is taken (`exists_toPolar`).  So from a
heading within one turn the robot can turn to any such vector, and is within one turn afterwards
(`exists_towards`).

A vector of integers can be given by the integers themselves or by the doubles of them.  As long as
the sum of the squares is an exact double, it has the same direction and the same length
(`toPolar_whole`).
-/

namespace PenRover

open Arithmetic Double

namespace Machine

/-! ### Every vector has a direction -/

/-- A double between `-1` and `1` is finite. -/
lemma exists_value?_of_between {x : Float} (hlow : Number.lt (whole (-1)) (.double x) = true)
    (hhigh : Number.lt (.double x) (whole 1) = true) : ∃ q, value? x = some q := by
  cases hview : view x with
  | nan =>
    obtain rfl := eq_of_view_nan hview
    exact absurd hlow (by decide +kernel)
  | infinite negative =>
    obtain rfl := eq_of_view_infinite hview
    cases negative
    · exact absurd hhigh (by decide +kernel)
    · exact absurd hlow (by decide +kernel)
  | finite negative m e => exact ⟨_, value?_of_view hview⟩

/-- A small integer that is measured as a double keeps its value. -/
lemma value?_whole {n : Int} (h : |n| < 2 ^ 53) : (whole n : Number).value? = some (n : ℚ) :=
  value?_ofInt h

/-- Whatever the cosine was, it is brought into `[-1, 1]`. -/
lemma exists_clampCosine (x : Float) :
    ∃ y q, clampCosine (Number.double x) = .double y ∧ value? y = some q ∧ |q| ≤ 1 := by
  have hone := value?_whole (n := 1) (by decide)
  have hminus := value?_whole (n := -1) (by decide)
  unfold clampCosine
  by_cases hhigh : below (Number.double x) (whole 1) = true
  · rw [if_pos hhigh]
    by_cases hlow : below (whole (-1)) (Number.double x) = true
    · obtain ⟨q, hq⟩ := exists_value?_of_between hlow hhigh
      have hbelow : q < 1 := by
        exact_mod_cast of_decide_eq_true
          ((Number.lt_eq_decide (a := .double x) hq hone).symm.trans hhigh)
      have habove : -1 < q := by
        exact_mod_cast of_decide_eq_true
          ((Number.lt_eq_decide (b := .double x) hminus hq).symm.trans hlow)
      exact ⟨x, q, by rw [if_pos hlow], hq, abs_le.mpr ⟨habove.le, hbelow.le⟩⟩
    · exact ⟨Float.ofInt (-1), _, by rw [if_neg hlow]; rfl, value?_ofInt (by decide), by norm_num⟩
  · rw [if_neg hhigh]
    exact ⟨Float.ofInt 1, _, by rw [if_pos (by decide +kernel)]; rfl, value?_ofInt (by decide),
      by norm_num⟩

/-- The arc cosine of a double that was brought into its range is an angle below four. -/
lemma exists_acos_clampCosine (x : Float) :
    ∃ y q, Number.acos (clampCosine (.double x)) = .ok (.double y) ∧ value? y = some q ∧
      0 ≤ q ∧ q ≤ 2 ^ 2 := by
  obtain ⟨c, q, hclamp, hq, hunit⟩ := exists_clampCosine x
  obtain ⟨p, hp⟩ := exists_value?_acos hq hunit
  obtain ⟨negative, m, e, hview, -⟩ := exists_view_of_value? hq
  refine ⟨Double.acos c, p, ?_, hp, acos_bounds hp⟩
  rw [hclamp]
  refine bind_eq_ok.mpr ⟨c, rfl, ?_⟩
  rw [hview]
  rfl

/-- On doubles only the arc cosine can fail. -/
lemma toPolar_double (x y : Float) : ∃ r cosine : Float, toPolar (Number.double x) (.double y) =
    if below tolerance (Number.double r) then
      Number.acos (clampCosine (.double cosine)) >>= fun phi =>
        if below (Number.double y) (neg tolerance) then
          sub fullTurn phi >>= fun reflected => .ok (reflected, .double r)
        else .ok (phi, .double r)
    else .ok (whole 0, .double r) := by
  obtain ⟨r, hr⟩ : ∃ r, r = (x * x + y * y).sqrt := ⟨_, rfl⟩
  obtain ⟨c, hc⟩ : ∃ c : Float, c =
      ((r - x) * (r - x) + (Float.ofInt 0 - y) * (Float.ofInt 0 - y)).sqrt := ⟨_, rfl⟩
  refine ⟨r, Float.ofInt 1 - c * c / (Float.ofInt 2 * r * r), ?_⟩
  subst hc hr
  rfl

/-- Every vector of doubles has a direction and a length. -/
theorem exists_toPolar (x y : Float) :
    ∃ phi r q, toPolar (Number.double x) (.double y) = .ok (.double phi, .double r) ∧
      value? phi = some q := by
  obtain ⟨r, cosine, hpolar⟩ := toPolar_double x y
  obtain ⟨angle, q, hangle, hq, hlow, hhigh⟩ := exists_acos_clampCosine cosine
  rw [hpolar]
  by_cases hlong : below tolerance (Number.double r) = true
  · rw [if_pos hlong, hangle]
    by_cases hbelow : below (Number.double y) (neg tolerance) = true
    · have hwide : |fullTurnValue - q| ≤ 2 ^ 3 := by
        have hturn := fullTurnValue_bounds
        rw [abs_le]
        constructor <;> linarith
      obtain ⟨p, hp, -⟩ := rounds_sub value?_turn hq 3 (by norm_num) hwide
      exact ⟨_, r, p, by simp only [if_pos hbelow]; rfl, hp⟩
    · exact ⟨angle, r, q, by simp only [if_neg hbelow]; rfl, hq⟩
  · obtain ⟨zero, q, hzero, hq, -⟩ := inRange_whole_zero 0 le_rfl
    exact ⟨zero, r, q, by rw [if_neg hlong, hzero], hq⟩

/-! ### Turning to a vector -/

/-- A moderate angle can be brought into one turn. -/
lemma exists_normalizeAngle {a : Float} {q : ℚ} (ha : value? a = some q) (hq : |q| ≤ 2 ^ 53) :
    ∃ result, normalizeAngle (Number.double a) = .ok result := by
  obtain ⟨hlow, -⟩ := fullTurnValue_bounds
  have hpos : 0 < fullTurnValue := by linarith
  have hquotient : |q / fullTurnValue| ≤ 2 ^ 53 := by
    rw [abs_div, abs_of_pos hpos, div_le_iff₀ hpos]
    nlinarith [abs_nonneg q]
  obtain ⟨x, hx, hkeeps⟩ := rounds_div ha value?_turn hpos.ne' 53 (by norm_num) hquotient
  have hfloor := Number.floor_eq (a := Number.double (a / 6.283185307179586)) hx
  have hturns := abs_floor_le hkeeps.le
  obtain ⟨n, hn, -⟩ := ofInt?_exact (by exact_mod_cast hturns : |⌊x⌋| ≤ 2 ^ 53)
  have hdouble : (Number.int ⌊x⌋).toDouble = .ok n := by simp only [Number.toDouble, hn]
  have hproduct : mul (exact ⌊x⌋) (fullTurn : Number) = .ok (.double (n * 6.283185307179586)) :=
    bind_eq_ok.mpr ⟨n, hdouble, rfl⟩
  exact ⟨_, bind_eq_ok.mpr ⟨_, rfl, bind_eq_ok.mpr ⟨_, hfloor, bind_eq_ok.mpr ⟨_, hproduct,
    bind_eq_ok.mpr ⟨_, rfl, rfl⟩⟩⟩⟩⟩

/-- An angle from zero to eight can be brought into one turn. -/
lemma exists_isHeading {a : Float} {q : ℚ} (ha : value? a = some q) (hq : 0 ≤ q) (hq' : q ≤ 2 ^ 3) :
    ∃ result, normalizeAngle (Number.double a) = .ok result ∧ IsHeading result := by
  obtain ⟨result, hresult⟩ := exists_normalizeAngle ha
    ((abs_of_nonneg hq).le.trans (hq'.trans (by norm_num)))
  exact ⟨result, hresult, normalizeAngle_small ha hq hq' hresult⟩

/-- From a heading within one turn the robot can turn to every vector of doubles. -/
theorem exists_towards {pose : Pose Number} (hpose : IsHeading pose.heading) (x y : Float) :
    ∃ displacement next, Command.towards pose (.double x) (.double y) = .ok displacement ∧
      normalizeAngle displacement.heading = .ok next ∧ IsHeading next := by
  obtain ⟨phi, r, q, hpolar, hq⟩ := exists_toPolar x y
  obtain ⟨f, hf, hwithin⟩ := withinIfFinite_toPolar hpolar
  obtain rfl : phi = f := Number.double.inj hf
  obtain ⟨hlow, hhigh⟩ := hwithin q hq
  obtain ⟨b, g, hb, hg, hg₀, hg₁⟩ := hpose
  have hturn := fullTurnValue_bounds
  by_cases hshort : upTo (Number.double r) tolerance = true
  · obtain ⟨next, hnext, hheading⟩ := exists_isHeading hg hg₀ (by linarith)
    rw [← hb] at hnext
    exact ⟨_, next, bind_eq_ok.mpr ⟨_, hpolar, if_pos hshort⟩, hnext, hheading⟩
  · obtain ⟨next, hnext, hheading⟩ := exists_isHeading hq hlow hhigh
    have hwide : |q - g| ≤ 2 ^ 3 := by
      rw [abs_le]
      constructor <;> linarith
    obtain ⟨δ, hδ, hkeeps⟩ := rounds_sub hq hg 3 (by norm_num) hwide
    obtain ⟨turn, hresult⟩ := exists_normalizeAngle hδ (hkeeps.le.trans (by norm_num))
    have hdifference : sub (Number.double phi) pose.heading = .ok (.double (phi - b)) := by
      rw [hb]
      rfl
    exact ⟨_, next, bind_eq_ok.mpr ⟨_, hpolar, (if_neg hshort).trans
      (bind_eq_ok.mpr ⟨_, hdifference, bind_eq_ok.mpr ⟨turn, hresult, rfl⟩⟩)⟩, hnext, hheading⟩

/-! ### Vectors of integers -/

section Integers

variable {m n : Int}

/-- A moderate integer is one that doubles hold. -/
lemma abs_lt_of_moderate (h : |n| < 2 ^ 26) : |n| < 2 ^ 53 := h.trans (by norm_num)

/-- A small integer is turned into its double. -/
lemma toDouble_int (h : |n| < 2 ^ 53) : (Number.int n).toDouble = .ok (Float.ofInt n) := by
  simp only [Number.toDouble, ofInt?_eq_ofInt h]

/-- The square of a moderate integer is one that doubles hold. -/
lemma abs_mul_self_lt (h : |n| < 2 ^ 26) : |n * n| < 2 ^ 52 := by
  rw [abs_mul]
  nlinarith [abs_nonneg n]

/-- The square of a moderate integer is exact. -/
lemma mul_whole_self (h : |n| < 2 ^ 26) :
    mul (whole n : Number) (whole n) = .ok (whole (n * n)) := by
  have hproduct : Float.ofInt n * Float.ofInt n = Float.ofInt (n * n) :=
    ofInt_mul_self (abs_lt_of_moderate h) ((abs_mul_self_lt h).trans (by norm_num))
  have hmul : mul (whole n : Number) (whole n) =
    .ok (.double (Float.ofInt n * Float.ofInt n)) := rfl
  rw [hmul, hproduct]
  rfl

/-- The sum of small integers is exact when it is small. -/
lemma add_whole_whole (hm : |m| < 2 ^ 53) (hn : |n| < 2 ^ 53) (h : |m + n| < 2 ^ 53) :
    add (whole m : Number) (whole n) = .ok (whole (m + n)) := by
  have hadd : add (whole m : Number) (whole n) =
    .ok (.double (Float.ofInt m + Float.ofInt n)) := rfl
  rw [hadd, ofInt_add_ofInt hm hn h]
  rfl

/-- The difference of small integers is exact when it is small. -/
lemma sub_exact_whole (hm : |m| < 2 ^ 53) (hn : |n| < 2 ^ 53) (h : |m - n| < 2 ^ 53) :
    sub (exact m : Number) (whole n) = .ok (whole (m - n)) := by
  have hsub : sub (exact m : Number) (whole n) = (Number.int m).toDouble >>= fun x =>
    .ok (.double (x - Float.ofInt n)) := rfl
  rw [hsub, toDouble_int hm, ok_bind, ofInt_sub_ofInt hm hn h]
  rfl

/-- A measured integer comes to the same in a sum with a double as the integer does. -/
lemma add_double_whole (h : |n| < 2 ^ 53) (x : Float) :
    add (Number.double x) (exact n) = add (Number.double x) (whole n) :=
  bind_eq_ok.mpr ⟨_, toDouble_int h, rfl⟩

/-- A double less an integer is the double less the measured integer. -/
lemma sub_double_whole (h : |n| < 2 ^ 53) (x : Float) :
    sub (Number.double x) (exact n) = sub (Number.double x) (whole n) :=
  bind_eq_ok.mpr ⟨_, toDouble_int h, rfl⟩

/-- The way from a vector of integers to a point of the first axis. -/
lemma distance_whole (hm : |m| < 2 ^ 26) (hn : |n| < 2 ^ 26) (r : Float) :
    distance ((whole m : Number), whole n) (.double r, exact 0) =
      distance ((exact m : Number), exact n) (.double r, exact 0) := by
  have hn' : |0 - n| < 2 ^ 26 := by rwa [zero_sub, abs_neg]
  have hdx : sub (Number.double r) (whole m) = .ok (.double (r - Float.ofInt m)) := rfl
  have hxx : mul (Number.double (r - Float.ofInt m)) (.double (r - Float.ofInt m)) =
    .ok (.double ((r - Float.ofInt m) * (r - Float.ofInt m))) := rfl
  have hdy : sub (exact 0 : Number) (whole n) = .ok (whole (0 - n)) :=
    sub_exact_whole (by norm_num) (abs_lt_of_moderate hn) (abs_lt_of_moderate hn')
  have hdy' : sub (exact 0 : Number) (exact n) = .ok (exact (0 - n)) := rfl
  have hyy : mul (exact (0 - n) : Number) (exact (0 - n)) = .ok (exact ((0 - n) * (0 - n))) := rfl
  have hsquare : |(0 - n) * (0 - n)| < 2 ^ 53 := (abs_mul_self_lt hn').trans (by norm_num)
  simp only [distance, sub_double_whole (abs_lt_of_moderate hm), hdx, hdy, hdy', ok_bind, hxx, hyy,
    mul_whole_self hn', add_double_whole hsquare]

/-- A vector of integers has the same direction and the same length when it is given in doubles. -/
theorem toPolar_whole (hm : |m| < 2 ^ 26) (hn : |n| < 2 ^ 26) :
    toPolar (whole m : Number) (whole n) = toPolar (exact m) (exact n) := by
  have hxx := abs_mul_self_lt hm
  have hyy := abs_mul_self_lt hn
  have hsum : |m * m + n * n| < 2 ^ 53 := (abs_add_le _ _).trans_lt (by linarith)
  have hmul (k : Int) : mul (exact k : Number) (exact k) = .ok (exact (k * k)) := rfl
  have hadd : add (exact (m * m) : Number) (exact (n * n)) = .ok (exact (m * m + n * n)) := rfl
  have hroot : sqrt (exact (m * m + n * n) : Number) =
      .ok (.double (Float.ofInt (m * m + n * n)).sqrt) :=
    bind_eq_ok.mpr ⟨_, toDouble_int hsum, rfl⟩
  have hroot' : sqrt (whole (m * m + n * n) : Number) =
    .ok (.double (Float.ofInt (m * m + n * n)).sqrt) := rfl
  have hbelow : below (whole n : Number) (neg tolerance) =
      below (exact n : Number) (neg tolerance) := by
    obtain ⟨q, hq, -⟩ := exists_value?_tolerance
    have hn' := value?_whole (abs_lt_of_moderate hn)
    have hneg : (neg tolerance : Number).value? = some (-q) := value?_neg hq
    exact (Number.lt_eq_decide hn' hneg).trans (Number.lt_eq_decide (a := .int n) rfl hneg).symm
  simp only [toPolar, hmul, hadd, hroot, hroot', ok_bind, mul_whole_self hm, mul_whole_self hn,
    add_whole_whole (hxx.trans (by norm_num)) (hyy.trans (by norm_num)) hsum,
    distance_whole hm hn, hbelow]

end Integers

end Machine

end PenRover

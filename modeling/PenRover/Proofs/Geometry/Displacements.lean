import PenRover.Proofs.Geometry.Headings
import PenRover.Proofs.Motion.Itinerary
import PenRover.Proofs.Numeric.Sign

/-!
# Displacements in range

An angle is brought into one turn by subtracting whole turns, and every step of this rounds.  What
is left of a large angle can therefore be a full turn or a little more (`normalizeAngle_moderate`);
but a heading is brought into one turn twice, as the direction of a displacement and as the heading
of the next pose, and for an angle that is not negative and small the second time is exact enough
(`normalizeAngle_small`).

A turn is what is left of the difference of two headings, and that may be negative.  A full turn is
added to it then, and the sum is rounded to a full turn when the difference is less than half of the
last place of a full turn (`normalizeAngle_negative`).  So a robot that heads a hair beyond the
direction of its next line turns all the way round, and for moderate angles this is the only way in
which a turn leaves its range (`Plan.angles_of_walk`).  A line up the page is an example
(`Plan.fullTurn_of_walk`): a drawing starts with this heading, but the arc cosine for the line is
one unit of the last place less.

A way is a root or the magnitude of a length, and so not negative.  It can only be no number at all,
when the position is none after it left the range of doubles (`nonneg_distance`).
-/

namespace PenRover

open Arithmetic

/-- A full turn, as the double nearest to it. -/
def fullTurnValue : ℚ := 7074237752028440 / 2 ^ 50

/-- A full turn is somewhat more than six. -/
lemma fullTurnValue_bounds : 25 / 4 < fullTurnValue ∧ fullTurnValue < 19 / 3 := by
  unfold fullTurnValue
  norm_num

namespace Double

/-- The value of a full turn. -/
lemma value?_turn : value? 6.283185307179586 = some fullTurnValue := value?_fullTurn

/-- A double can hold its value. -/
lemma representable_of_value? {x : Float} {q : ℚ} (h : value? x = some q) : Representable q := by
  have hcanonical := canonical_unpack_toModel x
  rw [value?_eq_amount] at h
  obtain ⟨s, -, rfl⟩ | ⟨s, m, e, hm, hu, rfl⟩ := amount_cases h
  · exact representable_zero
  · rw [hu] at hcanonical
    obtain ⟨hmantissa, hlow, -⟩ := hcanonical
    refine ⟨signed (isNegative s) m, e, ?_, hlow, by rw [directed_signed]⟩
    have habs : |signed (isNegative s) m| = m := by
      unfold signed
      split <;> simp
    rw [habs]
    exact_mod_cast hmantissa.le

/-- A full turn has as many digits as a double can hold. -/
lemma representable_fullTurn : Representable fullTurnValue := representable_of_value? value?_turn

/-- The last double before a full turn. -/
lemma representable_before_fullTurn : Representable (fullTurnValue - 1 / 2 ^ 50) :=
  ⟨7074237752028439, -50, by norm_num, by norm_num, by unfold fullTurnValue; norm_num⟩

end Double

open Double

/-! ### Bringing one angle into one turn -/

/-- The steps of bringing an angle into one turn, with what each of them rounds. -/
lemma normalizeAngle_steps {a : Float} {q : ℚ} {result : Number} (ha : value? a = some q)
    (hq : |q| ≤ 2 ^ 53) (h : normalizeAngle (.double a) = .ok result) :
    ∃ x p y, Nearest (q / fullTurnValue) x ∧ Nearest (⌊x⌋ * fullTurnValue) p ∧
      value? y = some p ∧
      result = if Number.lt tolerance (.double (a - y)) then .double (a - y) else whole 0 := by
  obtain ⟨quotient, turns, product, rest, hdiv, hfloor, hmul, hsub, rfl⟩ := normalizeAngle_eq_ok h
  obtain ⟨hlow, hhigh⟩ := fullTurnValue_bounds
  have hpos : 0 < fullTurnValue := by linarith
  obtain rfl : Number.double (a / 6.283185307179586) = quotient := Except.ok.inj hdiv
  have hquotient : |q / fullTurnValue| ≤ 2 ^ 53 := by
    rw [abs_div, abs_of_pos hpos, div_le_iff₀ hpos]
    nlinarith [abs_nonneg q]
  obtain ⟨x, hx, hnearest⟩ := isNearest_div ha value?_turn hpos.ne'
    (two_pow_le_of_le (by norm_num) hquotient)
  obtain rfl : ⌊x⌋ = turns := by
    rw [Number.floor_eq (a := .double _) hx] at hfloor
    exact Except.ok.inj hfloor
  have hturns := abs_floor_le (hnearest.keeps hquotient).le
  obtain ⟨n, hn, hvalue⟩ := ofInt?_exact (by exact_mod_cast hturns : |⌊x⌋| ≤ 2 ^ 53)
  obtain ⟨y, hy, rfl⟩ := mul_fullTurn_eq_ok hmul
  obtain rfl : n = y := by
    simp only [Number.toDouble, hn] at hy
    exact Except.ok.inj hy
  have hproduct : |(⌊x⌋ : ℚ) * fullTurnValue| ≤ 2 ^ 56 := by
    rw [abs_mul, abs_of_pos hpos, show (56 : Nat) = 53 + 3 from rfl, pow_add]
    gcongr
    linarith
  obtain ⟨p, hp, hnearest'⟩ := isNearest_mul hvalue value?_turn
    (two_pow_le_of_le (by norm_num) hproduct)
  obtain rfl : Number.double (a - n * 6.283185307179586) = rest := Except.ok.inj hsub
  exact ⟨x, p, _, hnearest, hnearest', hp, rfl⟩

/-- Of a moderate angle little more than a full turn can be left. -/
lemma normalizeAngle_moderate {a : Float} {q : ℚ} {result : Number} (ha : value? a = some q)
    (hq : |q| ≤ 2 ^ 49) (h : normalizeAngle (.double a) = .ok result) :
    result.InRange 0 (2 ^ 3) := by
  obtain ⟨x, p, y, hx, hp, hy, rfl⟩ := normalizeAngle_steps ha (hq.trans (by norm_num)) h
  obtain ⟨hlow, hhigh⟩ := fullTurnValue_bounds
  have hpos : 0 < fullTurnValue := by linarith
  have hquotient : |q / fullTurnValue| ≤ 2 ^ 47 := by
    rw [abs_div, abs_of_pos hpos, div_le_iff₀ hpos]
    linarith
  have hturns := abs_floor_le (hx.keeps hquotient).le
  -- the quotient and the product are off by little, and so is what is left
  have hoff : |x - q / fullTurnValue| ≤ 1 / 64 := by
    refine (hx.error_le (e := -5) (by norm_num) (hquotient.trans ?_)).trans ?_ <;> norm_num
  have hoff' : |p - ⌊x⌋ * fullTurnValue| ≤ 1 / 8 := by
    refine (hp.error_le (e := -2) (by norm_num) ?_).trans (by norm_num)
    rw [abs_mul, abs_of_pos hpos]
    have hsize : |(⌊x⌋ : ℚ)| * fullTurnValue ≤ 2 ^ 47 * 7 := by
      gcongr
      linarith
    refine hsize.trans ?_
    norm_num
  have hrest : q - p = (q / fullTurnValue - x) * fullTurnValue + (x - ⌊x⌋) * fullTurnValue +
      (⌊x⌋ * fullTurnValue - p) := by
    have hq' : q / fullTurnValue * fullTurnValue = q := div_mul_cancel₀ _ hpos.ne'
    linear_combination hq'.symm
  have hfloor : 0 ≤ x - ⌊x⌋ := sub_nonneg.mpr (Int.floor_le x)
  have hfloor' : x - ⌊x⌋ ≤ 1 := by linarith [Int.lt_floor_add_one x]
  rw [abs_le] at hoff hoff'
  have hbound : |q - p| ≤ 2 ^ 3 := by
    rw [hrest, abs_le]
    constructor <;> nlinarith
  exact inRange_rest ha hy (two_pow_le_of_le (by norm_num) hbound) (representable_two_pow 3)
    (by norm_num) (abs_le.mp hbound).2

/-- An angle within one turn. -/
def IsHeading (a : Number) : Prop :=
  ∃ x q, a = .double x ∧ value? x = some q ∧ 0 ≤ q ∧ q < fullTurnValue

/-- A double from zero to below a full turn is a heading. -/
lemma Number.InRange.isHeading {a : Number} {v : ℚ} (h : a.InRange 0 v) (hv : v < fullTurnValue) :
    IsHeading a := by
  obtain ⟨x, q, rfl, hq, hlow, hhigh⟩ := h
  exact ⟨x, q, rfl, hq, hlow, hhigh.trans_lt hv⟩

/-- The heading at the start is zero. -/
lemma isHeading_start : IsHeading (Pose.start : Pose Number).heading := by
  have hview : view 1.5707963267948966 = .finite false 7074237752028440 (-52) := rfl
  refine ⟨_, _, rfl, value?_of_view hview, ?_, ?_⟩ <;> norm_num [fullTurnValue]

/-- Of a small angle that is not negative less than a full turn is left. -/
lemma normalizeAngle_small {a : Float} {q : ℚ} {result : Number} (ha : value? a = some q)
    (hq : 0 ≤ q) (hq' : q ≤ 2 ^ 3) (h : normalizeAngle (.double a) = .ok result) :
    IsHeading result := by
  obtain ⟨x, p, y, hx, hp, hy, rfl⟩ :=
    normalizeAngle_steps ha ((abs_of_nonneg hq).le.trans (hq'.trans (by norm_num))) h
  obtain ⟨hlow, hhigh⟩ := fullTurnValue_bounds
  have hpos : 0 < fullTurnValue := by linarith
  have hx₀ : 0 ≤ x := hx.ge representable_zero (div_nonneg hq hpos.le)
  have hx₁ : x ≤ 3 / 2 := by
    refine hx.le ⟨3, -1, by norm_num, by norm_num, by norm_num⟩ ?_
    rw [div_le_iff₀ hpos]
    linarith
  obtain hnone | hone : ⌊x⌋ = 0 ∨ ⌊x⌋ = 1 := by
    have hfloor : 0 ≤ ⌊x⌋ := Int.floor_nonneg.mpr hx₀
    have hfloor' : ⌊x⌋ < 2 := Int.floor_lt.mpr (by push_cast; linarith)
    omega
  · -- nothing is subtracted
    rw [hnone, Int.cast_zero, zero_mul] at hp
    obtain rfl := hp.eq representable_zero
    have hless : q < fullTurnValue := by
      by_contra hnot
      have hx₁ : 1 ≤ x := by
        have hquotient : 1 ≤ q / fullTurnValue := by
          rw [le_div_iff₀ hpos]
          linarith
        exact_mod_cast hx.ge (representable_two_pow 0) (by simpa using hquotient)
      have hfloor := Int.le_floor.mpr (by exact_mod_cast hx₁ : ((1 : Int) : ℚ) ≤ x)
      omega
    have hwide : |q - 0| ≤ 2 ^ 3 := by rwa [sub_zero, abs_of_nonneg hq]
    exact (inRange_rest ha hy (two_pow_le_of_le (by norm_num) hwide) (representable_of_value? ha) hq
      (by rw [sub_zero])).isHeading hless
  · -- a full turn is subtracted, and little is left
    rw [hone, Int.cast_one, one_mul] at hp
    obtain rfl := hp.eq representable_fullTurn
    have hwide : |q - fullTurnValue| ≤ 2 ^ 3 := by
      rw [abs_le]
      constructor <;> linarith
    exact (inRange_rest ha hy (two_pow_le_of_le (by norm_num) hwide) (representable_two_pow 1)
      (by norm_num) (by linarith)).isHeading (by linarith)

/-- A negative angle gets a full turn added, and only one that is barely negative is left as a full
turn. -/
lemma normalizeAngle_negative {a : Float} {q : ℚ} {result : Number} (ha : value? a = some q)
    (hq : -fullTurnValue ≤ q) (hq' : q < 0) (h : normalizeAngle (.double a) = .ok result) :
    result.InRange 0 fullTurnValue ∧
      (result.value? = some fullTurnValue → -(1 / 2 ^ 51) ≤ q) := by
  obtain ⟨hlow, hhigh⟩ := fullTurnValue_bounds
  have hpos : 0 < fullTurnValue := by linarith
  have hsize : |q| ≤ 2 ^ 3 := by
    rw [abs_le]
    constructor <;> linarith
  obtain ⟨x, p, y, hx, hp, hy, hresult⟩ := normalizeAngle_steps ha (hsize.trans (by norm_num)) h
  have hx₀ : x ≤ 0 := hx.le representable_zero (div_nonpos_of_nonpos_of_nonneg hq'.le hpos.le)
  have hx₁ : -1 ≤ x := by
    have hquotient : -1 ≤ q / fullTurnValue := by
      rw [le_div_iff₀ hpos]
      linarith
    exact_mod_cast hx.ge (representable_two_pow 0).neg (by simpa using hquotient)
  obtain hnone | hone : ⌊x⌋ = 0 ∨ ⌊x⌋ = -1 := by
    have hfloor : -1 ≤ ⌊x⌋ := Int.le_floor.mpr (by exact_mod_cast hx₁)
    have hfloor' : ⌊x⌋ ≤ 0 := by exact_mod_cast (Int.floor_le x).trans hx₀
    omega
  · -- the quotient is so small that it was rounded to zero
    rw [hnone, Int.cast_zero, zero_mul] at hp
    obtain rfl := hp.eq representable_zero
    have hwide : |q - 0| ≤ 2 ^ 3 := by rwa [sub_zero]
    have hrest := inRange_rest ha hy (two_pow_le_of_le (by norm_num) hwide) representable_zero
      le_rfl (by linarith)
    rw [← hresult] at hrest
    refine ⟨hrest.mono le_rfl hpos.le, fun hfull => ?_⟩
    obtain ⟨z, r, rfl, hr, -, hr₀⟩ := hrest
    obtain rfl : r = fullTurnValue := Option.some.inj (hr.symm.trans hfull)
    linarith
  · rw [hone, Int.cast_neg, Int.cast_one, neg_one_mul] at hp
    obtain rfl := hp.eq representable_fullTurn.neg
    have hwide : |q - -fullTurnValue| ≤ 2 ^ 3 := by
      rw [abs_le]
      constructor <;> linarith
    refine ⟨hresult ▸ inRange_rest ha hy (two_pow_le_of_le (by norm_num) hwide)
      representable_fullTurn hpos.le (by linarith), fun hfull => ?_⟩
    obtain ⟨r, hr, hnearest⟩ := isNearest_sub ha hy (two_pow_le_of_le (by norm_num) hwide)
    have hr' : r = fullTurnValue := by
      rw [hresult] at hfull
      split at hfull
      · exact Option.some.inj (hr.symm.trans hfull)
      · obtain ⟨z, v, hz, hv, -, hv₀⟩ := inRange_whole_zero 0 le_rfl
        rw [hz] at hfull
        have hv' : v = fullTurnValue := Option.some.inj (hv.symm.trans hfull)
        linarith
    subst hr'
    -- the last double before a full turn is no nearer
    have hcompare := hnearest _ representable_before_fullTurn
    rw [show fullTurnValue - (q - -fullTurnValue) = -q by ring, abs_of_nonneg (by linarith),
      show fullTurnValue - 1 / 2 ^ 50 - (q - -fullTurnValue) = -q - 1 / 2 ^ 50 by ring] at hcompare
    by_contra hbelow
    rcases abs_cases (-q - 1 / 2 ^ 50) with ⟨habs, -⟩ | ⟨habs, -⟩ <;> rw [habs] at hcompare <;>
      linarith

/-! ### One displacement -/

/-- The command does not start from a position that is not a number. -/
def Command.Placed (command : Command) (pose : Pose Number) : Prop :=
  ∀ x y, command = .lineTo x y → pose.position.1.IsNumber ∧ pose.position.2.IsNumber

/-- The way of a displacement is not negative. -/
lemma nonneg_distance {command : Command} {pose : Pose Number} {displacement : Displacement Number}
    (h : command.displacement pose = .ok displacement) (hplaced : command.Placed pose) :
    displacement.distance.Nonneg := by
  have htowards (dx dy : Number) (hdx : dx.IsNumber) (hdy : dy.IsNumber)
      (h : Command.towards pose dx dy = .ok displacement) : displacement.distance.Nonneg := by
    obtain ⟨-, hdistance, -⟩ | ⟨difference, hpolar, -⟩ := towards_eq_ok h
    · rw [hdistance]
      obtain ⟨x, q, hzero, hq, hlow, -⟩ := inRange_whole_zero 0 le_rfl
      rw [hzero]
      exact nonneg_of_value? hq hlow
    · obtain ⟨⟨xx, yy, sum, hxx, hyy, hsum, hroot⟩, -⟩ := toPolar_eq_ok hpolar
      have hsquares := Number.nonneg_add (Number.nonneg_mul_self hdx hxx)
        (Number.nonneg_mul_self hdy hyy) hsum
      exact Number.nonneg_sqrt hsquares hroot
  cases command with
  | lineTo x y =>
    obtain ⟨dx, hdx, h⟩ := bind_eq_ok.mp h
    obtain ⟨dy, hdy, h⟩ := bind_eq_ok.mp h
    obtain ⟨hx, hy⟩ := hplaced x y rfl
    exact htowards dx dy (Number.isNumber_sub hx hdx) (Number.isNumber_sub hy hdy) h
  | lineBy dx dy => exact htowards (.int dx) (.int dy) trivial trivial h
  | lineAt angle length =>
    obtain ⟨x, _, _, _, hlength, hdistance, -⟩ := along_eq_ok h
    obtain ⟨q, hq⟩ := Number.exists_value?_toDouble hlength
    rw [hdistance, Number.lt_eq_decide (a := .double x) (b := .int 0) hq rfl, Int.cast_zero]
    split
    next hneg => exact nonneg_of_value? (value?_neg hq) (by linarith [of_decide_eq_true hneg])
    next hpos => exact nonneg_of_value? hq (by simpa using hpos)

/-- The difference of a direction that is little more than within one turn and a heading is at least
a negative full turn, and so it is brought into one turn, or nearly. -/
lemma turn_of_headings {a b : Float} {p g : ℚ} {turn : Number} (ha : value? a = some p)
    (hp : 0 ≤ p) (hp' : p ≤ 2 ^ 3) (hb : value? b = some g) (hg : 0 ≤ g) (hg' : g < fullTurnValue)
    (h : normalizeAngle (.double (a - b)) = .ok turn) :
    turn.InRange 0 fullTurnValue ∧ (turn.value? = some fullTurnValue →
      ∃ δ, value? (a - b) = some δ ∧ -(1 / 2 ^ 51) ≤ δ ∧ δ < 0) := by
  obtain ⟨hlow, hhigh⟩ := fullTurnValue_bounds
  have hwide : |p - g| ≤ 2 ^ 3 := by
    rw [abs_le]
    constructor <;> linarith
  obtain ⟨δ, hδ, hnearest⟩ := isNearest_sub ha hb (two_pow_le_of_le (by norm_num) hwide)
  rcases lt_or_ge δ 0 with hneg | hpos
  · have hleast : -fullTurnValue ≤ δ := hnearest.ge representable_fullTurn.neg (by linarith)
    obtain ⟨hturn, hfull⟩ := normalizeAngle_negative hδ hleast hneg h
    exact ⟨hturn, fun hvalue => ⟨δ, hδ, hfull hvalue, hneg⟩⟩
  · have hgreatest : δ ≤ 2 ^ 3 := hnearest.le (representable_two_pow 3) (by linarith)
    obtain ⟨y, t, rfl, ht, ht₀, hless⟩ := normalizeAngle_small hδ hpos hgreatest h
    refine ⟨⟨y, t, rfl, ht, ht₀, hless.le⟩, fun hvalue => ?_⟩
    obtain rfl : t = fullTurnValue := Option.some.inj (ht.symm.trans hvalue)
    exact absurd hless (lt_irrefl _)

/-- The turn of a displacement from a heading is within one turn, or it is a full one and the
direction of the displacement is barely below the heading. -/
def Displacement.TurnsFrom (displacement : Displacement Number) (heading : Number) : Prop :=
  displacement.turn.InRange 0 fullTurnValue ∧ (displacement.turn.value? = some fullTurnValue →
    ∃ difference δ, Number.sub displacement.heading heading = .ok difference ∧
      difference.value? = some δ ∧ -(1 / 2 ^ 51) ≤ δ ∧ δ < 0)

/-- From a heading within one turn a command with a moderate angle leads to a heading within one
turn. -/
lemma turnsFrom_displacement {command : Command} {pose next : Pose Number}
    {displacement : Displacement Number}
    (hangle : ∀ angle length, command = .lineAt angle length → |angle| ≤ 2 ^ 53)
    (hpose : IsHeading pose.heading) (h : command.displacement pose = .ok displacement)
    (hadvance : pose.advance displacement.vector displacement.heading = (next, none)) :
    IsHeading next.heading ∧ displacement.TurnsFrom pose.heading := by
  obtain ⟨b, g, hb, hg, hg₀, hg₁⟩ := hpose
  obtain ⟨hlow, hhigh⟩ := fullTurnValue_bounds
  have hnext := advance_eq_none hadvance
  -- what is the same for every direction but that of no way at all
  have hdirected {difference : Number} (hrange : displacement.heading.InRange 0 (2 ^ 3))
      (hsub : Number.sub displacement.heading pose.heading = .ok difference)
      (hturn : normalizeAngle difference = .ok displacement.turn) :
      IsHeading next.heading ∧ displacement.TurnsFrom pose.heading := by
    obtain ⟨a, p, ha, hp, hp₀, hp₁⟩ := hrange
    rw [ha] at hnext
    rw [ha, hb] at hsub
    obtain rfl : Number.double (a - b) = difference := Except.ok.inj hsub
    obtain ⟨hin, hfull⟩ := turn_of_headings hp hp₀ hp₁ hg hg₀ hg₁ hturn
    refine ⟨normalizeAngle_small hp hp₀ hp₁ hnext, hin, fun hvalue => ?_⟩
    obtain ⟨δ, hδ, hbounds⟩ := hfull hvalue
    exact ⟨.double (a - b), δ, by rw [ha, hb, hsub], hδ, hbounds⟩
  obtain ⟨dx, dy, h⟩ | ⟨angle, length, hcommand, h⟩ := displacement_cases h
  · obtain ⟨hturn, -, hkept⟩ | ⟨difference, hpolar, hsub, hturn⟩ := towards_eq_ok h
    · rw [hkept, hb] at hnext
      refine ⟨normalizeAngle_small hg hg₀ (by linarith) hnext, ?_, fun hvalue => ?_⟩
      · rw [hturn]
        exact inRange_whole_zero _ (by linarith)
      · obtain ⟨x, q, hx, hq, -, hq₀⟩ := inRange_whole_zero 0 le_rfl
        rw [hturn, hx] at hvalue
        obtain rfl : q = fullTurnValue := Option.some.inj (hq.symm.trans hvalue)
        linarith
    · obtain ⟨a, ha, hwithin⟩ := withinIfFinite_toPolar hpolar
      rw [ha] at hnext
      obtain ⟨p, hp⟩ := finite_of_normalizeAngle hnext
      exact hdirected ⟨a, p, ha, hp, hwithin p hp⟩ hsub hturn
  · obtain ⟨_, phi, direction, difference, -, -, hphi, hdirection, hheading, hsub, hturn⟩ :=
      along_eq_ok h
    obtain ⟨c, rfl, hsmall⟩ := smallIfFinite_direction
      (smallIfFinite_radiansOfDegrees_of_abs_le (hangle angle length hcommand) hphi)
        le_rfl (by norm_num) hdirection
    obtain ⟨v, hv⟩ := finite_of_normalizeAngle hheading
    exact hdirected (normalizeAngle_moderate hv (hsmall v hv) hheading) hsub hturn

/-! ### Drawings -/

namespace Plan

/-- What every command keeps holds along a whole walk, and so does what every command does then. -/
lemma forall_mem_walk {I : Pose Number → Prop} {R : Pose Number → PlanStep Number → Prop}
    {commands : List Command}
    (hstep : ∀ command ∈ commands, ∀ pose next displacement, I pose →
      command.displacement pose = .ok displacement →
      pose.advance displacement.vector displacement.heading = (next, none) →
      I next ∧ R pose ⟨command, displacement, next⟩) {pose : Pose Number} (hpose : I pose) :
    ∀ pair ∈ ((walk pose commands).poses pose).zip (walk pose commands).steps,
      R pair.1 pair.2 := by
  induction commands generalizing pose with
  | nil => simp [walk]
  | cons command rest ih =>
    cases hdisplacement : command.displacement pose with
    | error fault => simp [walk, hdisplacement]
    | ok displacement =>
      rcases hadvance : pose.advance displacement.vector displacement.heading with ⟨next, _ | fault⟩
      · obtain ⟨hnext, hpair⟩ := hstep command List.mem_cons_self _ _ _ hpose hdisplacement hadvance
        have hrest := ih (fun c hc => hstep c (List.mem_cons_of_mem _ hc)) hnext
        rw [poses_walk_cons_of_ok hdisplacement hadvance, walk_cons_of_ok hdisplacement hadvance]
        intro pair hmem
        obtain rfl | hmem := List.mem_cons.mp hmem
        · exact hpair
        · exact hrest pair hmem
      · simp [walk, hdisplacement, hadvance]

/-- For every drawing: a way is at least zero, unless it leads to a point from a position that is
not a number, and turns and headings are not negative.  If no direction is beyond the integers that
are exact as doubles, then headings are within one turn and so are turns, but for the full turn of a
robot that heads a hair beyond its next direction. -/
theorem angles_of_walk {commands : List Command} {before : Pose Number} {step : PlanStep Number}
    (h : (before, step) ∈
      ((walk Pose.start commands).poses Pose.start).zip (walk Pose.start commands).steps) :
    (step.command.Placed before → Number.le (.int 0) step.displacement.distance = true) ∧
      IsTurn step.displacement.turn ∧ step.pose.HeadingInRange ∧
      ((∀ angle length, Command.lineAt angle length ∈ commands → |angle| ≤ 2 ^ 53) →
        IsHeading step.pose.heading ∧ step.displacement.TurnsFrom before.heading) := by
  have hway := forall_mem_walk (I := fun _ => True)
    (R := fun pose step => step.command.Placed pose →
      Number.le (.int 0) step.displacement.distance = true)
    (fun command _ pose next displacement _ hdisplacement _ => ⟨trivial, fun hplaced =>
      Number.zero_le_of_nonneg (nonneg_distance hdisplacement hplaced)⟩) trivial _ h
  obtain ⟨hturn, hheading⟩ := forall_mem_walk (I := Pose.HeadingInRange)
    (R := fun _ step => IsTurn step.displacement.turn ∧ step.pose.HeadingInRange)
    (fun command _ pose next displacement hpose hdisplacement hadvance =>
      have hnext := isTurn_displacement hpose hdisplacement hadvance
      ⟨hnext.2, hnext⟩) headingInRange_start _ h
  refine ⟨hway, hturn, hheading, fun hangles => ?_⟩
  exact forall_mem_walk (I := fun pose => IsHeading pose.heading)
    (R := fun pose step => IsHeading step.pose.heading ∧ step.displacement.TurnsFrom pose.heading)
    (fun command hcommand pose next displacement hpose hdisplacement hadvance =>
      have hnext := turnsFrom_displacement
        (fun angle length heq => hangles angle length (heq ▸ hcommand)) hpose hdisplacement hadvance
      ⟨hnext.1, hnext⟩) isHeading_start _ h

/-- A drawing of one line to the left. -/
theorem angles_of_walk_left : ∃ step,
    (Pose.start, step) ∈ ((walk Pose.start [.lineAt 180 5]).poses Pose.start).zip
        (walk Pose.start [.lineAt 180 5]).steps ∧
      Number.le (.int 0) step.displacement.distance = true ∧ IsHeading step.pose.heading ∧
      step.displacement.TurnsFrom (Pose.start : Pose Number).heading := by
  obtain ⟨step, hsteps⟩ := List.length_eq_one_iff.mp
    (by decide +kernel : (walk (Pose.start : Pose Number) [.lineAt 180 5]).steps.length = 1)
  have hmem : (Pose.start, step) ∈ ((walk Pose.start [.lineAt 180 5]).poses Pose.start).zip
      (walk Pose.start [.lineAt 180 5]).steps := by simp [Plan.poses, hsteps]
  obtain ⟨hway, -, -, hwithin⟩ := angles_of_walk hmem
  obtain ⟨hheading, hturns⟩ := hwithin (by simp)
  have hcommand : (walk (Pose.start : Pose Number) [.lineAt 180 5]).steps.map PlanStep.command =
      [.lineAt 180 5] := by decide +kernel
  rw [hsteps] at hcommand
  replace hcommand : step.command = .lineAt 180 5 := (List.cons.inj hcommand).1
  exact ⟨step, hmem, hway fun x y h => (nomatch hcommand.symm.trans h), hheading, hturns⟩

/-- The line up the page: the robot heads there when the drawing starts, and turns all the way
round. -/
theorem fullTurn_of_walk : ∃ step, (walk (Pose.start : Pose Number) [.lineBy 0 3]).steps = [step] ∧
    step.displacement.turn = fullTurn ∧ Number.lt step.displacement.turn fullTurn = false := by
  obtain ⟨step, hsteps⟩ := List.length_eq_one_iff.mp
    (by decide +kernel : (walk (Pose.start : Pose Number) [.lineBy 0 3]).steps.length = 1)
  have hturn : (walk (Pose.start : Pose Number) [.lineBy 0 3]).steps.map
      (fun step => step.displacement.turn) = [fullTurn] := by decide +kernel
  rw [hsteps] at hturn
  replace hturn : step.displacement.turn = fullTurn := (List.cons.inj hturn).1
  refine ⟨step, hsteps, hturn, ?_⟩
  rw [hturn]
  decide +kernel

end Plan

end PenRover

import PenRover.Proofs.Geometry.Plane
import PenRover.Proofs.Motion.Itinerary
import PenRover.Proofs.Numeric.Quotient

/-!
# Quarter turns

A turn is driven to the nearer side, by the number of quarter turns nearest to the angle on that
side.  Over the real numbers no other number of quarter turns, to either side, ends nearer to the
turn.

The argument is on the circle, where angles are taken less whole turns.  The quarter nearest to an
angle among the numbers is the nearest one on the circle too, for a quarter that is off by whole
turns is another number of quarters (`dist_nearest_le`).  A turn beyond half a turn is the opposite
of the angle on the other side, so its rotation is reflected with it (`turning_clockwise`).

The script of a turn is written for any arithmetic (`Script.turnIn`), since a machine computes with
doubles.  Each quarter is two phases, in each of which powers are asked for and then one wait, and
a stop ends the turn (`Script.makes_turnIn`).  Only a multiple of the power can fail on the way, and
then the demands break off there.
-/

namespace PenRover

open Arithmetic Plane
open Real hiding sqrt sin cos

/-! ### The nearest quarter -/

/-- The number of quarter turns nearest to an angle, a half going up. -/
noncomputable def nearestQuarter (angle : ℝ) : Int := round (angle / quarterTurn)

/-- The angle of a number of quarter turns. -/
noncomputable def quarterAngle (count : Int) : ℝ := count * quarterTurn

/-- A number of quarter turns makes this angle. -/
lemma quarterAngle_eq (count : Int) : quarterAngle count = count * (π / 2) := rfl

/-- The nearest number of quarter turns is a rounded quotient. -/
lemma nearestQuarter_eq (angle : ℝ) : nearestQuarter angle = round (2 * angle / π) := by
  have hquarters : angle / quarterTurn = 2 * angle / π := by
    rw [quarterTurn_eq, div_div_eq_mul_div, mul_comm]
  rw [nearestQuarter, hquarters]

/-- Over the reals, the number of quarter turns is the nearest one. -/
lemma quarterTurns_eq_nearest (angle : ℝ) : quarterTurns angle = .ok (nearestQuarter angle) := by
  rw [quarterTurns_eq, nearestQuarter_eq, round_eq]

/-- An angle is as far from quarters as its number of quarters is from integers. -/
lemma abs_sub_quarterAngle (angle : ℝ) (count : Int) :
    |angle - quarterAngle count| = |2 * angle / π - count| * (π / 2) := by
  calc |angle - quarterAngle count| = |(2 * angle / π - count) * (π / 2)| := by
        rw [quarterAngle_eq]
        congr 1
        field_simp
    _ = |2 * angle / π - count| * (π / 2) := by rw [abs_mul, abs_of_pos pi_div_two_pos]

/-- No number of quarter turns is closer to an angle than the nearest one. -/
lemma abs_sub_nearest_le (angle : ℝ) (count : Int) :
    |angle - quarterAngle (nearestQuarter angle)| ≤ |angle - quarterAngle count| := by
  rw [abs_sub_quarterAngle, abs_sub_quarterAngle, nearestQuarter_eq]
  exact mul_le_mul_of_nonneg_right (round_le _ count) pi_div_two_pos.le

/-- The nearest number of quarter turns misses an angle by an eighth of a turn at most. -/
lemma abs_sub_nearest_le_eighth (angle : ℝ) :
    |angle - quarterAngle (nearestQuarter angle)| ≤ π / 4 := by
  have hhalf : |2 * angle / π - nearestQuarter angle| ≤ 1 / 2 := by
    rw [nearestQuarter_eq]
    exact abs_sub_round _
  calc |angle - quarterAngle (nearestQuarter angle)|
      = |2 * angle / π - nearestQuarter angle| * (π / 2) := abs_sub_quarterAngle angle _
    _ ≤ 1 / 2 * (π / 2) := mul_le_mul_of_nonneg_right hhalf pi_div_two_pos.le
    _ = π / 4 := by ring

/-- On the circle no quarter is nearer to an angle than the nearest quarter among the numbers. -/
lemma dist_nearest_le (angle : ℝ) (count : Int) :
    dist (angle : Angle) (quarterAngle (nearestQuarter angle)) ≤
      dist (angle : Angle) (quarterAngle count) := by
  set turns : Int := round ((2 * π)⁻¹ * (angle - quarterAngle count)) with hturns
  have hdist : dist (angle : Angle) (quarterAngle count) =
      |angle - quarterAngle (count + 4 * turns)| := by
    have hwhole : quarterAngle (count + 4 * turns) = quarterAngle count + turns * (2 * π) := by
      simp only [quarterAngle_eq]
      push_cast
      ring
    rw [dist_coe, ← hturns, hwhole, sub_sub]
  rw [hdist]
  exact (dist_coe_le _ _).trans (abs_sub_nearest_le angle _)

/-- Up to half a turn there are at most two quarters. -/
lemma nearestQuarter_cases {angle : ℝ} (h0 : 0 ≤ angle) (hle : angle ≤ π) :
    nearestQuarter angle = 0 ∨ nearestQuarter angle = 1 ∨ nearestQuarter angle = 2 := by
  have hquarters : 2 * angle / π ≤ 2 := by
    rw [div_le_iff₀ pi_pos]
    linarith
  have hlow : 0 ≤ nearestQuarter angle := by
    rw [nearestQuarter_eq, round_eq]
    exact Int.floor_nonneg.mpr (by positivity)
  have hhigh : nearestQuarter angle < 3 := by
    rw [nearestQuarter_eq, round_eq, Int.floor_lt]
    push_cast
    linarith
  omega

/-! ### The two sides -/

/-- The rotation by a number of quarter turns to a side, which is negative when clockwise. -/
noncomputable def rotation (clockwise : Bool) (count : Int) : ℝ :=
  quarterAngle (if clockwise then -count else count)

/-- Quarter turns to the other side make the opposite angle. -/
lemma coe_quarterAngle_neg (count : Int) :
    (quarterAngle (-count) : Angle) = -(quarterAngle count : Angle) := by
  rw [← Angle.coe_neg, quarterAngle, quarterAngle, Int.cast_neg, neg_mul]

/-- Beyond half a turn, the turn is the opposite of what is left of a full turn. -/
lemma coe_two_pi_sub (turn : ℝ) : ((2 * π - turn : ℝ) : Angle) = -(turn : Angle) := by
  rw [Angle.coe_sub, Angle.coe_two_pi, zero_sub]

/-- The angle on the nearer side, and its nearest quarters, for a turn of one turn. -/
structure Turning (turn : ℝ) (clockwise : Bool) (angle : ℝ) (count : Int) : Prop where
  nearerSide_eq : nearerSide turn = .ok (clockwise, angle)
  angle_nonneg : 0 ≤ angle
  angle_le : angle ≤ π
  quarterTurns_eq : quarterTurns angle = .ok count
  count_cases : count = 0 ∨ count = 1 ∨ count = 2
  /-- The rotation is off by at most an eighth of a turn. -/
  dist_le : dist (turn : Angle) (rotation clockwise count) ≤ π / 4
  /-- No other number of quarter turns, to either side, is nearer. -/
  nearest : ∀ other : Int,
    dist (turn : Angle) (rotation clockwise count) ≤ dist (turn : Angle) (quarterAngle other)

/-- A turn of half a turn at most is driven counterclockwise, as it is. -/
lemma turning_counterclockwise {turn : ℝ} (h0 : 0 ≤ turn) (hle : turn ≤ π) :
    Turning turn false turn (nearestQuarter turn) where
  nearerSide_eq := by rw [Plane.nearerSide_eq, if_pos hle]
  angle_nonneg := h0
  angle_le := hle
  quarterTurns_eq := quarterTurns_eq_nearest turn
  count_cases := nearestQuarter_cases h0 hle
  dist_le := (dist_coe_le _ _).trans (abs_sub_nearest_le_eighth turn)
  nearest := dist_nearest_le turn

/-- A turn of more than half a turn is driven clockwise, by what is missing to a whole one. -/
lemma turning_clockwise {turn : ℝ} (hlt : π < turn) (hle : turn ≤ 2 * π) :
    Turning turn true (2 * π - turn) (nearestQuarter (2 * π - turn)) := by
  have h0 : 0 ≤ 2 * π - turn := sub_nonneg.mpr hle
  have hleft : 2 * π - turn ≤ π := by linarith
  -- both sides are reflected
  have hdist (count : Int) : dist (turn : Angle) (quarterAngle (-count)) =
      dist ((2 * π - turn : ℝ) : Angle) (quarterAngle count) := by
    rw [coe_quarterAngle_neg, coe_two_pi_sub, ← dist_neg_neg, neg_neg]
  exact {
    nearerSide_eq := by rw [Plane.nearerSide_eq, if_neg hlt.not_ge]
    angle_nonneg := h0
    angle_le := hleft
    quarterTurns_eq := quarterTurns_eq_nearest _
    count_cases := nearestQuarter_cases h0 hleft
    dist_le := by
      rw [rotation, if_pos rfl, hdist]
      exact (dist_coe_le _ _).trans (abs_sub_nearest_le_eighth _)
    nearest := by
      intro other
      have hother := hdist (-other)
      rw [neg_neg] at hother
      rw [rotation, if_pos rfl, hdist, hother]
      exact dist_nearest_le _ _ }

/-! ### What a turn asks for -/

/-- What a script asks the robot for: powers for the wheels, or to wait. -/
inductive Demand where
  | powers (left right : Value)
  | pause (time : Value)

namespace Script

variable {α β : Type} (settings : Settings)

/-- The end of a script and what it asks for on the way, when every demand is met, these are the
settings and the abort flag is down. -/
def demands : Script α → Except Fault α × List Demand
  | .finish a => (.ok a, [])
  | .fail fault => (.error fault, [])
  | .note _ next => next.demands
  | .consult next => (next settings).demands
  | .poll next => (next false).demands
  | .drive left right next => (next.demands.1, .powers left right :: next.demands.2)
  | .wait time next => (next.demands.1, .pause time :: next.demands.2)

/-- The script makes these demands, one after another: all of them if it comes to a good end, and
the first few of them if it fails. -/
def Makes (script : Script α) (all : List Demand) : Prop :=
  match script.demands settings with
  | (.ok _, made) => made = all
  | (.error _, made) => made <+: all

variable {settings} {script : Script α} {next : α → Script β}

/-- What two scripts ask for, one after the other. -/
lemma demands_bind (script : Script α) (next : α → Script β) :
    (script >>= next).demands settings =
      match script.demands settings with
      | (.ok a, made) =>
        (((next a).demands settings).1, made ++ ((next a).demands settings).2)
      | (.error fault, made) => (.error fault, made) := by
  change (script.bind next).demands settings = _
  induction script with
  | finish a => rfl
  | fail fault => rfl
  | note n script ih => exact ih
  | consult script ih => exact ih settings
  | poll script ih => exact ih false
  | drive left right script ih =>
    simp only [Script.bind, demands, ih]
    cases script.demands settings with
    | mk result made => cases result <;> rfl
  | wait time script ih =>
    simp only [Script.bind, demands, ih]
    cases script.demands settings with
    | mk result made => cases result <;> rfl

/-- Scripts one after another make their demands one after another. -/
lemma Makes.bind {first second : List Demand} (hscript : script.Makes settings first)
    (hnext : ∀ a, (next a).Makes settings second) :
    (script >>= next).Makes settings (first ++ second) := by
  unfold Makes at *
  rw [demands_bind]
  cases hmade : script.demands settings with
  | mk result made =>
    rw [hmade] at hscript
    cases result with
    | error fault => exact hscript.trans (List.prefix_append first second)
    | ok a =>
      obtain rfl : made = first := hscript
      have hrest := hnext a
      dsimp only
      cases hsecond : (next a).demands settings with
      | mk result rest =>
        rw [hsecond] at hrest
        cases result with
        | error fault => exact (List.prefix_append_right_inj made).mpr hrest
        | ok b => exact congrArg (made ++ ·) hrest

/-- A computation demands nothing, and what follows it demands what it would with the result. -/
lemma makes_ofExcept_bind {result : Except Fault α} {all : List Demand}
    (hnext : ∀ a, result = .ok a → (next a).Makes settings all) :
    (ofExcept result >>= next).Makes settings all := by
  cases result with
  | error fault => exact List.nil_prefix
  | ok a => exact hnext a rfl

/-- The powers of a phase of a quarter turn, which drives the wheels at multiples of the power. -/
def phase (power : Value) (left right : Int) : Value × Value :=
  (Value.given (power.scale left), Value.given (power.scale right))

/-- The two phases of a quarter turn: an arc out, and an arc back that is bent the other way. -/
def quarterPhases (arc : Arc) : List (Value × Value) :=
  [phase arc.power (-arc.near) (-arc.far), phase arc.power arc.far arc.near]

/-- What is asked for in phases: powers for the wheels and then one wait in each. -/
def phaseDemands (time : Value) (phases : List (Value × Value)) : List Demand :=
  phases.flatMap fun powers => [.powers powers.1 powers.2, .pause time]

/-- A wait is one demand. -/
lemma makes_pause (time : Value) : (Script.pause time).Makes settings [.pause time] := rfl

/-- A halt demands the powers zero. -/
lemma makes_halt : halt.Makes settings [.powers (.int 0) (.int 0)] := rfl

/-- A request at multiples of a power demands the powers of a phase. -/
lemma makes_goTimes (power : Value) (left right : Int) :
    (goTimes power left right).Makes settings
      [.powers (phase power left right).1 (phase power left right).2] := by
  unfold goTimes
  apply makes_ofExcept_bind
  intro l hl
  apply makes_ofExcept_bind
  intro r hr
  rw [phase, hl, hr]
  rfl

/-- A quarter turn demands its two phases. -/
lemma makes_quarter (arc : Arc) :
    (quarter arc).Makes settings (phaseDemands arc.time (quarterPhases arc)) := by
  unfold quarter
  exact (makes_goTimes _ _ _).bind fun _ => (makes_pause _).bind fun _ =>
    (makes_goTimes _ _ _).bind fun _ => makes_pause _

/-- Quarter turns demand the phases of each of them. -/
lemma makes_quarters (arc : Arc) (n : Nat) :
    (quarters arc n).Makes settings
      (phaseDemands arc.time (List.replicate n (quarterPhases arc)).flatten) := by
  induction n with
  | zero => rfl
  | succ n ih =>
    rw [List.replicate_succ, List.flatten_cons, phaseDemands, List.flatMap_append]
    exact (makes_quarter arc).bind fun _ => ih

/-- The arcs of a turn to a side. -/
def arcOf (settings : Settings) (clockwise : Bool) : Arc :=
  ⟨settings.turnPower, settings.turnPhaseTime, (wheelFactors clockwise).1,
    (wheelFactors clockwise).2⟩

/-- The phases of a number of quarter turns to a side. -/
def turnPhases (settings : Settings) (clockwise : Bool) (count : Nat) : List (Value × Value) :=
  (List.replicate count (quarterPhases (arcOf settings clockwise))).flatten

/-- A turn computed in any arithmetic, which tells its angle as this double. -/
def turnIn [Arithmetic α] (shown : α → Except Fault Float) (turn : α) : Script Unit := do
  let (clockwise, angle) ← ofExcept (nearerSide turn)
  let count ← ofExcept (quarterTurns angle)
  let told ← ofExcept (shown angle)
  say (.turn clockwise told count)
  let settings ← Script.settings
  quarters (arcOf settings clockwise) count.toNat
  halt

/-- The robot computes its turns in the arithmetic of the machine. -/
lemma turnBy_eq_turnIn (turn : Number) : turnBy turn = turnIn Number.toDouble turn := by
  unfold turnBy turnIn
  congr 1
  funext ⟨clockwise, angle⟩
  cases clockwise <;> rfl

/-- A turn demands the phases of its quarter turns, and the stop at the end. -/
lemma makes_turnIn [Arithmetic α] {shown : α → Except Fault Float} {turn angle : α}
    {clockwise : Bool} {count : Int} (hside : nearerSide turn = .ok (clockwise, angle))
    (hcount : quarterTurns angle = .ok count) :
    (turnIn shown turn).Makes settings
      (phaseDemands settings.turnPhaseTime (turnPhases settings clockwise count.toNat) ++
        [.powers (.int 0) (.int 0)]) := by
  rw [turnIn, hside, ofExcept_ok_bind]
  dsimp only
  rw [hcount, ofExcept_ok_bind]
  apply makes_ofExcept_bind
  intro told _
  exact (makes_quarters (arcOf settings clockwise) count.toNat).bind fun _ => makes_halt

/-- There are two phases to each quarter turn. -/
lemma length_turnPhases (clockwise : Bool) (count : Nat) :
    (turnPhases settings clockwise count).length = 2 * count := by
  induction count with
  | zero => rfl
  | succ count ih =>
    rw [turnPhases, List.replicate_succ, List.flatten_cons, List.length_append, ← turnPhases, ih]
    change 2 + 2 * count = _
    ring

/-! ### Turns that do not fail

A turn can fail only at the multiples of its power, and a number has them. -/

/-- The script comes to a good end when every demand is met. -/
def Ends (settings : Settings) (script : Script α) : Prop :=
  ∃ a, (script.demands settings).1 = .ok a

/-- Scripts that come to a good end do so one after another. -/
lemma Ends.bind (hscript : script.Ends settings) (hnext : ∀ a, (next a).Ends settings) :
    (script >>= next).Ends settings := by
  obtain ⟨a, ha⟩ := hscript
  obtain ⟨b, hb⟩ := hnext a
  refine ⟨b, ?_⟩
  rw [demands_bind]
  cases hmade : script.demands settings with
  | mk result made =>
    rw [hmade] at ha
    obtain rfl : result = .ok a := ha
    exact hb

/-- A wait ends when it is met. -/
lemma ends_pause (time : Value) : (Script.pause time).Ends settings := ⟨(), rfl⟩

/-- A halt comes to a good end. -/
lemma ends_halt : halt.Ends settings := ⟨(), rfl⟩

/-- A number has its small multiples. -/
lemma exists_scale {power : Value} {n : Number} (hpower : power.number? = some n) {factor : Int}
    (hfactor : |factor| ≤ 2) : ∃ multiple, power.scale factor = .ok multiple := by
  have hrange : |(factor : ℚ)| ≤ 2 ^ 1 := by
    rw [pow_one]
    exact_mod_cast hfactor
  obtain ⟨x, -, hx, -, -⟩ := Number.toDouble_of_abs_le (a := .int factor) rfl (by decide) hrange
  unfold Value.scale
  rw [hpower]
  cases n with
  | int n => exact ⟨_, rfl⟩
  | double y =>
    refine ⟨.number (.double (x * y)), ?_⟩
    simp only [Number.mul, Number.combine, hx, bind, Except.bind, pure, Except.pure]

/-- A request at small multiples of a numeric power comes to a good end. -/
lemma ends_goTimes {power : Value} {n : Number} (hpower : power.number? = some n)
    {left right : Int} (hleft : |left| ≤ 2) (hright : |right| ≤ 2) :
    (goTimes power left right).Ends settings := by
  obtain ⟨l, hl⟩ := exists_scale hpower hleft
  obtain ⟨r, hr⟩ := exists_scale hpower hright
  unfold goTimes
  rw [hl, hr]
  exact ⟨(), rfl⟩

/-- Quarter turns at a numeric power come to a good end. -/
lemma ends_quarters {n : Number} (hpower : settings.turnPower.number? = some n) (clockwise : Bool)
    (count : Nat) : (quarters (arcOf settings clockwise) count).Ends settings := by
  have hout : |-(arcOf settings clockwise).near| ≤ 2 ∧ |-(arcOf settings clockwise).far| ≤ 2 := by
    cases clockwise <;> simp [arcOf, wheelFactors]
  have hback : |(arcOf settings clockwise).far| ≤ 2 ∧ |(arcOf settings clockwise).near| ≤ 2 := by
    cases clockwise <;> simp [arcOf, wheelFactors]
  have hquarter : (quarter (arcOf settings clockwise)).Ends settings := by
    unfold quarter
    exact (ends_goTimes hpower hout.1 hout.2).bind fun _ => (ends_pause _).bind fun _ =>
      (ends_goTimes hpower hback.1 hback.2).bind fun _ => ends_pause _
  induction count with
  | zero => exact ⟨(), rfl⟩
  | succ count ih => exact hquarter.bind fun _ => ih

/-- A turn at a numeric power comes to a good end when its side and its quarters can be computed. -/
lemma ends_turnIn [Arithmetic α] {shown : α → Except Fault Float} {turn angle : α} {told : Float}
    {clockwise : Bool} {count : Int} (hside : nearerSide turn = .ok (clockwise, angle))
    (hcount : quarterTurns angle = .ok count) (htold : shown angle = .ok told) {n : Number}
    (hpower : settings.turnPower.number? = some n) : (turnIn shown turn).Ends settings := by
  rw [turnIn, hside, ofExcept_ok_bind]
  dsimp only
  rw [hcount, ofExcept_ok_bind, htold]
  exact (ends_quarters hpower clockwise count.toNat).bind fun _ => ends_halt

end Script

/-! ### The nearest rotation -/

/-- The robot computes its turns in the arithmetic of the machine.  Over the real numbers, a turn of
one turn is driven to a side by an angle of at most half a turn, in no, one or two quarter turns;
the rotation by them is off by at most an eighth of a turn, and no other number of quarter turns is
nearer.  Under any settings the script asks for the phases of these quarters, at most four, powers
and then a wait in each, and for a stop at the end; it does not fail when the power of turns is a
number. -/
theorem turn_nearest :
    (∀ turn : Number, Script.turnBy turn = Script.turnIn Number.toDouble turn) ∧
      ∀ turn : ℝ, 0 ≤ turn → turn < 2 * π →
        ∃ clockwise angle count, Turning turn clockwise angle count ∧
          ∀ (settings : Settings) (shown : ℝ → Float),
            let phases := Script.turnPhases settings clockwise count.toNat
            let script := Script.turnIn (fun a => .ok (shown a)) turn
            phases.length = 2 * count.toNat ∧ phases.length ≤ 4 ∧
              script.Makes settings (Script.phaseDemands settings.turnPhaseTime phases ++
                [.powers (.int 0) (.int 0)]) ∧
              ∀ n, settings.turnPower.number? = some n → script.Ends settings := by
  refine ⟨Script.turnBy_eq_turnIn, ?_⟩
  intro turn h0 hlt
  have hside : ∃ clockwise angle count, Turning turn clockwise angle count := by
    rcases le_or_gt turn π with hle | hgt
    · exact ⟨_, _, _, turning_counterclockwise h0 hle⟩
    · exact ⟨_, _, _, turning_clockwise hgt hlt.le⟩
  obtain ⟨clockwise, angle, count, hturning⟩ := hside
  refine ⟨clockwise, angle, count, hturning, ?_⟩
  intro settings shown phases script
  have hlength : phases.length = 2 * count.toNat := Script.length_turnPhases clockwise count.toNat
  have hcount := hturning.count_cases
  refine ⟨hlength, by omega, ?_, ?_⟩
  · exact Script.makes_turnIn hturning.nearerSide_eq hturning.quarterTurns_eq
  · intro n hpower
    exact Script.ends_turnIn hturning.nearerSide_eq hturning.quarterTurns_eq rfl hpower

/-- A turn by five eighths of a turn, half-way between two quarters on its nearer side. -/
theorem turn_nearest_halfway :
    0 ≤ 5 * π / 4 ∧ 5 * π / 4 < 2 * π ∧ Settings.standard.turnPower.number? = some (.int 15) ∧
      ∃ clockwise angle count, Turning (5 * π / 4) clockwise angle count ∧
        let phases := Script.turnPhases .standard clockwise count.toNat
        let script := Script.turnIn (fun _ => .ok 0) (5 * π / 4)
        phases.length ≤ 4 ∧
          script.Makes .standard (Script.phaseDemands Settings.standard.turnPhaseTime phases ++
            [.powers (.int 0) (.int 0)]) ∧
          script.Ends .standard := by
  have h0 : 0 ≤ 5 * π / 4 := by positivity
  have hlt : 5 * π / 4 < 2 * π := by linarith [pi_pos]
  obtain ⟨clockwise, angle, count, hturning, hscript⟩ := turn_nearest.2 (5 * π / 4) h0 hlt
  obtain ⟨-, hlength, hmakes, hends⟩ := hscript .standard fun _ => 0
  exact ⟨h0, hlt, rfl, clockwise, angle, count, hturning, hlength, hmakes, hends _ rfl⟩

end PenRover

import PenRover.Proofs.Motion.QuarterTurns
import PenRover.Proofs.Motion.Refinement
import PenRover.Proofs.Motion.Stranding
import PenRover.Proofs.Numeric.Overflow

/-!
# The balance of a turn

A quarter turn leaves the pen roughly in place because its arc back undoes its arc out: the powers
of the two add up to none.  This takes that both arcs are driven, or neither.  Each is a frame of
its own, though, and fits or does not fit by itself.  Of a power `v` the arc out takes `-v` and
`-2 v`, which are bytes from `v = -63` to `v = 64`, and the arc back takes `2 v` and `v`, which are
bytes from `v = -64` to `v = 63`.  So at `64` and at `-64` one of them is driven and the other is
passed over.  Besides, a wait that fails ends the turn after its first arc.

`Script.turn_balanced_iff` says that these are all the ways to send only a part of a turn.  What is
sent is found from the course of the turn (`Script.framesOf_turnBy`), whose events are known when it
comes to a good end and when it fails.
-/

namespace PenRover

open Arithmetic

/-! ### Integral powers -/

/-- The power of a wheel for an integer. -/
lemma Value.wheel?_int (n : Int) :
    (Value.int n).wheel? = if -128 ≤ n ∧ n ≤ 127 then some (Int8.ofInt n) else none := by
  have hrange : (-128 ≤ (n : ℚ) ∧ (n : ℚ) ≤ 127) ↔ -128 ≤ n ∧ n ≤ 127 := by norm_cast
  simp only [int, wheel?, Number.value?_int, Option.bind_eq_bind, Option.bind_some, hrange,
    integerPart_intCast]

/-- Two integers fit a frame when both are from `-128` to `127`. -/
lemma Frame.fitting?_int (l r : Int) :
    Frame.fitting? (.int l) (.int r) =
      if (-128 ≤ l ∧ l ≤ 127) ∧ -128 ≤ r ∧ r ≤ 127 then some ⟨Int8.ofInt l, Int8.ofInt r, 0⟩
      else none := by
  unfold fitting?
  rw [Value.wheel?_int, Value.wheel?_int]
  split_ifs <;> first | rfl | omega

/-- The powers of both wheels in all frames together. -/
def thrust (frames : List Frame) : Int :=
  (frames.map fun frame => frame.left.toInt + frame.right.toInt).sum

/-- Without frames there is no thrust. -/
@[simp] lemma thrust_nil : thrust [] = 0 := rfl

/-- The thrust of frames is that of their parts together. -/
@[simp] lemma thrust_append (first second : List Frame) :
    thrust (first ++ second) = thrust first + thrust second := by
  simp [thrust]

/-- A stop has no thrust. -/
@[simp] lemma thrust_stop : thrust [.stop] = 0 := rfl

/-- The thrust of frames that are repeated is multiplied. -/
lemma thrust_flatten_replicate (n : Nat) (frames : List Frame) :
    thrust (List.replicate n frames).flatten = n * thrust frames := by
  induction n with
  | zero => simp
  | succ n ih =>
    rw [List.replicate_succ, List.flatten_cons, thrust_append, ih]
    push_cast
    ring

/-- The frames of events that are repeated are repeated. -/
lemma framesOf_flatten_replicate (n : Nat) (events : List Event) :
    framesOf (List.replicate n events).flatten = (List.replicate n (framesOf events)).flatten := by
  simp only [framesOf, List.filterMap_flatten, List.map_replicate]

/-- The powers of a frame add up to those that were requested. -/
lemma thrust_of_fitting? {l r : Int} {frame : Frame}
    (h : Frame.fitting? (.int l) (.int r) = some frame) : thrust [frame] = l + r := by
  rw [Frame.fitting?_int] at h
  split_ifs at h with hrange
  obtain rfl := Option.some.inj h
  have hread {p : Int} (hp : -128 ≤ p ∧ p ≤ 127) : (Int8.ofInt p).toInt = p :=
    Int8.toInt_ofInt_of_le (by omega) (by omega)
  simp [thrust, hread hrange.1, hread hrange.2]

namespace Script

/-! ### The frames of the phases -/

/-- The frames of phases, none for a phase whose powers do not fit. -/
def phaseFrames (phases : List (Value × Value)) : List (Option Frame) :=
  phases.map fun powers => Frame.fitting? powers.1 powers.2

/-- The frame of the arc out of a turn to a side. -/
def outFrame? (clockwise : Bool) (v : Int) : Option Frame :=
  Frame.fitting? (.int (-(wheelFactors clockwise).1 * v)) (.int (-(wheelFactors clockwise).2 * v))

/-- The frame of the arc back. -/
def backFrame? (clockwise : Bool) (v : Int) : Option Frame :=
  Frame.fitting? (.int ((wheelFactors clockwise).2 * v)) (.int ((wheelFactors clockwise).1 * v))

/-- The arc out fits a frame for these powers. -/
lemma isSome_outFrame? (clockwise : Bool) (v : Int) :
    (outFrame? clockwise v).isSome = true ↔ -63 ≤ v ∧ v ≤ 64 := by
  unfold outFrame?
  rw [Frame.fitting?_int]
  cases clockwise <;> simp only [wheelFactors] <;> split_ifs <;> simp <;> omega

/-- The arc back fits a frame for these powers. -/
lemma isSome_backFrame? (clockwise : Bool) (v : Int) :
    (backFrame? clockwise v).isSome = true ↔ -64 ≤ v ∧ v ≤ 63 := by
  unfold backFrame?
  rw [Frame.fitting?_int]
  cases clockwise <;> simp only [wheelFactors] <;> split_ifs <;> simp <;> omega

/-- To either side, the wheels are driven three times the power together. -/
lemma sum_wheelFactors (clockwise : Bool) :
    (wheelFactors clockwise).1 + (wheelFactors clockwise).2 = 3 := by
  cases clockwise <;> rfl

/-- The arc out drives the wheels against the power, three times it together. -/
lemma thrust_outFrame {clockwise : Bool} {v : Int} {frame : Frame}
    (h : outFrame? clockwise v = some frame) : thrust [frame] = -3 * v := by
  rw [thrust_of_fitting? h]
  linear_combination -v * sum_wheelFactors clockwise

/-- The arc back drives the wheels with the power, three times it together. -/
lemma thrust_backFrame {clockwise : Bool} {v : Int} {frame : Frame}
    (h : backFrame? clockwise v = some frame) : thrust [frame] = 3 * v := by
  rw [thrust_of_fitting? h]
  linear_combination v * sum_wheelFactors clockwise

section Turn

variable {settings : Settings} {v : Int} {turn : Number}

/-- The phases of a turn with an integral power, by their frames. -/
lemma phaseFrames_turnPhases (hpower : settings.turnPower = .int v) (clockwise : Bool) (n : Nat) :
    phaseFrames (turnPhases settings clockwise n) =
      (List.replicate n [outFrame? clockwise v, backFrame? clockwise v]).flatten := by
  have hquarter : phaseFrames (quarterPhases (arcOf settings clockwise)) =
      [outFrame? clockwise v, backFrame? clockwise v] := by
    rw [arcOf, hpower]
    rfl
  rw [← hquarter]
  simp only [phaseFrames, turnPhases, List.map_flatten, List.map_replicate]

/-- The frames of a turn that comes to a good end. -/
lemma framesOf_turnEvents (hpower : settings.turnPower = .int v) {clockwise : Bool} {n : Nat}
    (hplan : turnPlan turn = (clockwise, n)) :
    framesOf (turnEvents settings turn) =
      (List.replicate n
        ((outFrame? clockwise v).toList ++ (backFrame? clockwise v).toList)).flatten ++
          [.stop] := by
  have hquarter : framesOf (quarterEvents settings.turnPower settings.turnPhaseTime
      (wheelFactors clockwise).1 (wheelFactors clockwise).2) =
      (outFrame? clockwise v).toList ++ (backFrame? clockwise v).toList := by
    rw [hpower, quarterEvents]
    simp only [framesOf_append, framesOf_goEvents]
    simp only [framesOf_cons_wait, framesOf_nil, List.append_nil]
    rfl
  rw [← hquarter, ← framesOf_flatten_replicate, turnEvents, hplan]
  exact framesOf_append _ _

/-! ### Courses of a turn -/

/-- Whatever a request for multiples of a power comes to, its frame is the one that fits. -/
lemma framesOf_course_goTimes {power : Value} {left right : Int} (hleft : left ≠ 0)
    (hleft' : |left| ≤ 2) (hright : |right| ≤ 2) :
    framesOf ((goTimes power left right).course settings).2 =
      (Frame.fitting? (phase power left right).1 (phase power left right).2).toList := by
  cases hfits : Frame.fitting? (phase power left right).1 (phase power left right).2 with
  | some frame =>
    rw [course_goTimes_of_fitting hleft hleft' hright hfits]
    rfl
  | none =>
    cases hcourse : (goTimes power left right).course settings with
    | mk result events =>
      cases result with
      | error fault =>
        rw [course_goTimes_eq_error hcourse]
        rfl
      | ok u =>
        rw [course_goTimes_eq_ok hcourse]
        exact (framesOf_goEvents _ _).trans (congrArg Option.toList hfits)

/-- A quarter turn whose wait fails sends at most its first arc. -/
lemma course_quarter_of_pause_eq_error (arc : Arc) {fault : Fault} {waiting : List Event}
    (h : (pause arc.time).course settings = (.error fault, waiting))
    (hsilent : framesOf waiting = []) :
    ∃ fault events, (quarter arc).course settings = (.error fault, events) ∧ framesOf events =
      framesOf ((goTimes arc.power (-arc.near) (-arc.far)).course settings).2 := by
  rw [quarter]
  cases hout : (goTimes arc.power (-arc.near) (-arc.far)).course settings with
  | mk result events =>
    cases result with
    | error fault' => exact ⟨fault', events, course_bind_of_error hout, rfl⟩
    | ok u =>
      refine ⟨fault, events ++ waiting, ?_, by rw [framesOf_append, hsilent, List.append_nil]⟩
      rw [course_bind_of_ok hout, course_bind_of_error h]

/-- An angle whose quarters are counted has a nearest double. -/
lemma exists_toDouble_of_quarterTurns {angle : Number} {count : Int}
    (h : quarterTurns angle = .ok count) : ∃ shown, angle.toDouble = .ok shown := by
  cases angle with
  | double x => exact ⟨x, rfl⟩
  | int n =>
    cases hdouble : Double.ofInt? n with
    | some x => exact ⟨x, by simp only [Number.toDouble, hdouble]⟩
    | none =>
      -- twice the integer is beyond the doubles as well
      have hbig := Double.ofInt?_eq_none_iff.mp hdouble
      have htwice : Double.ofInt? (2 * n) = none := by
        refine Double.ofInt?_eq_none_iff.mpr (hbig.trans ?_)
        omega
      have hdiv : Number.div (.int (2 * n)) halfTurn = .error .tooLarge := by
        simp only [Number.div, Number.toDouble, htwice]
        rfl
      unfold quarterTurns at h
      rw [bind_eq_ok] at h
      obtain ⟨product, hproduct, h⟩ := h
      obtain rfl : Number.int (2 * n) = product := Except.ok.inj hproduct
      rw [bind_eq_ok] at h
      obtain ⟨quotient, hquotient, -⟩ := h
      cases hdiv.symm.trans hquotient

/-- The side and the number of quarters of a turn that has quarters were computed. -/
lemma exists_quarterTurns {clockwise : Bool} {n : Nat} (hplan : turnPlan turn = (clockwise, n))
    (hn : n ≠ 0) : ∃ angle count shown, nearerSide turn = .ok (clockwise, angle) ∧
      quarterTurns angle = .ok count ∧ count.toNat = n ∧ angle.toDouble = .ok shown := by
  unfold turnPlan at hplan
  split at hplan
  next => exact absurd (congrArg Prod.snd hplan).symm hn
  next side angle hside =>
    split at hplan
    next => exact absurd (congrArg Prod.snd hplan).symm hn
    next count hcount =>
      obtain ⟨rfl, rfl⟩ := Prod.mk.inj hplan
      obtain ⟨shown, hshown⟩ := exists_toDouble_of_quarterTurns hcount
      exact ⟨angle, count, shown, hside, hcount, rfl, hshown⟩

/-- The first arc of a turn with an integral power. -/
lemma firstArc?_eq (hpower : settings.turnPower = .int v) {clockwise : Bool} {n : Nat}
    (hplan : turnPlan turn = (clockwise, n)) :
    firstArc? settings turn = if n = 0 then none else outFrame? clockwise v := by
  rw [firstArc?, hplan, hpower]
  rfl

/-- A turn whose wait fails sends at most its first arc. -/
lemma framesOf_turnBy_of_waitFails (hpower : settings.turnPower = .int v) {clockwise : Bool}
    {n : Nat} (hplan : turnPlan turn = (clockwise, n)) (hn : n ≠ 0)
    (hfails : WaitFails false settings.turnPhaseTime) :
    framesOf ((turnBy turn).course settings).2 = (outFrame? clockwise v).toList := by
  obtain ⟨angle, count, shown, hside, hcount, rfl, hshown⟩ := exists_quarterTurns hplan hn
  obtain ⟨fault, waiting, hpause, hsilent, -⟩ := course_pause_of_waitFails settings hfails
  obtain ⟨fault', events, hquarter, hevents⟩ :=
    course_quarter_of_pause_eq_error (arcOf settings clockwise) hpause hsilent
  have hne : -(wheelFactors clockwise).1 ≠ 0 := by
    have hnear := (wheelFactors_cases clockwise).1
    omega
  obtain ⟨hnear, hfar⟩ := abs_wheelFactors_le clockwise
  rw [← abs_neg] at hnear hfar
  obtain ⟨rest, hrest⟩ := Nat.exists_eq_succ_of_ne_zero hn
  have hcourse : (turnBy turn).course settings = (.error fault', events) := by
    rw [(turnBy_eq hside hcount).2, hshown, course_ofExcept_bind_ok, course_say_bind,
      course_settings_bind, hrest, Nat.succ_eq_add_one, quarters]
    exact course_bind_of_error (course_bind_of_error hquarter)
  rw [hcourse]
  exact hevents.trans ((framesOf_course_goTimes hne hnear hfar).trans (by rw [arcOf, hpower]; rfl))

/-- A small power and a wait that is held bring a turn to a good end. -/
lemma course_turnBy_of_held (hpower : settings.turnPower = .int v) (hv : |v| ≤ 64)
    {clockwise : Bool} {n : Nat} (hplan : turnPlan turn = (clockwise, n)) (hn : n ≠ 0)
    (hheld : ¬ WaitFails false settings.turnPhaseTime) :
    (turnBy turn).course settings = (.ok (), turnEvents settings turn) := by
  obtain ⟨angle, count, shown, hside, hcount, rfl, hshown⟩ := exists_quarterTurns hplan hn
  have hpause : (pause settings.turnPhaseTime).Succeeds settings := by
    obtain ⟨fault, hc⟩ | ⟨length, fault, hc, hlate⟩ | ⟨length, seconds, hc, hlength⟩ :=
      wait_cases settings.turnPhaseTime
    · exact absurd (.inl ⟨fault, hc⟩) hheld
    · exact absurd (.inr ⟨length, fault, hc, hlate, rfl⟩) hheld
    · exact ⟨_, _, course_pause_of_ok hc hlength⟩
  have hmoderate : (Number.int v).Moderate := by
    have hpow : (10 : Int) ^ 2 ≤ 10 ^ 300 := pow_le_pow_right₀ (by norm_num) (by norm_num)
    exact (hv.trans_lt (by norm_num)).trans_le hpow
  have hnumber : settings.turnPower.number? = some (.int v) := by
    rw [hpower]
    rfl
  obtain ⟨hnear, hfar⟩ := abs_wheelFactors_le clockwise
  have hquarters : (quarters (arcOf settings clockwise) count.toNat).Succeeds settings :=
    succeeds_quarters_of_held hnumber hmoderate hpause hnear hfar count.toNat
  obtain ⟨u, turning, hturning⟩ := hquarters
  have hcourse : (turnBy turn).course settings = (.ok (), turning ++ [.frame .stop]) := by
    rw [(turnBy_eq hside hcount).2, hshown, course_ofExcept_bind_ok, course_say_bind,
      course_settings_bind, ← arcOf, course_bind_of_ok hturning, course_halt]
  rw [hcourse, course_turnBy_eq_ok hcourse]

/-! ### Whole and balanced -/

/-- All phases of the turn were sent, and then the stop. -/
def AllSent (settings : Settings) (turn : Number) (frames : List Frame) : Prop :=
  frames.map some =
    phaseFrames (turnPhases settings (turnPlan turn).1 (turnPlan turn).2) ++ [some .stop]

/-- No phase of a turn was sent, whether or not the turn came to its stop. -/
def NoneSent (frames : List Frame) : Prop := frames = [] ∨ frames = [.stop]

/-- A turn of which no phase was sent has no thrust. -/
lemma NoneSent.thrust_eq {frames : List Frame} (h : NoneSent frames) : thrust frames = 0 := by
  rcases h with rfl | rfl <;> rfl

/-- Nothing is sent by a turn without quarters, or when neither arc fits. -/
lemma noneSent_of_none (hpower : settings.turnPower = .int v) {clockwise : Bool} {n : Nat}
    (hplan : turnPlan turn = (clockwise, n))
    (hnone : n = 0 ∨ outFrame? clockwise v = none ∧ backFrame? clockwise v = none) :
    NoneSent (framesOf ((turnBy turn).course settings).2) := by
  cases hcourse : (turnBy turn).course settings with
  | mk result events =>
    cases result with
    | ok u =>
      right
      rw [course_turnBy_eq_ok hcourse]
      dsimp only
      rw [framesOf_turnEvents hpower hplan]
      rcases hnone with rfl | ⟨hout, hback⟩
      · rfl
      · rw [hout, hback]
        simp
    | error fault =>
      left
      have hfirst : firstArc? settings turn = none := by
        rw [firstArc?_eq hpower hplan]
        rcases hnone with rfl | ⟨hout, -⟩
        · rfl
        · rw [hout, ite_self]
      obtain ⟨hframes, -⟩ | hframes := course_turnBy_eq_error hcourse
      · rw [hfirst] at hframes
        exact hframes
      · exact hframes

/-- All phases are sent when both arcs fit and the waits are held. -/
lemma allSent_of_fits (hpower : settings.turnPower = .int v) (hlow : -63 ≤ v) (hhigh : v ≤ 63)
    {clockwise : Bool} {n : Nat} (hplan : turnPlan turn = (clockwise, n)) (hn : n ≠ 0)
    (hheld : ¬ WaitFails false settings.turnPhaseTime) :
    AllSent settings turn (framesOf ((turnBy turn).course settings).2) ∧
      thrust (framesOf ((turnBy turn).course settings).2) = 0 := by
  obtain ⟨out, hout⟩ := Option.isSome_iff_exists.mp
    ((isSome_outFrame? clockwise v).mpr ⟨by omega, by omega⟩)
  obtain ⟨back, hback⟩ := Option.isSome_iff_exists.mp
    ((isSome_backFrame? clockwise v).mpr ⟨by omega, by omega⟩)
  have hframes : framesOf ((turnBy turn).course settings).2 =
      (List.replicate n [out, back]).flatten ++ [.stop] := by
    rw [course_turnBy_of_held hpower (abs_le.mpr ⟨by omega, by omega⟩) hplan hn hheld]
    dsimp only
    rw [framesOf_turnEvents hpower hplan, hout, hback]
    rfl
  rw [hframes]
  constructor
  · rw [AllSent, hplan, phaseFrames_turnPhases hpower, hout, hback, List.map_append,
      List.map_flatten, List.map_replicate]
    rfl
  · have hsum : thrust [out, back] = 0 := by
      rw [← List.singleton_append, thrust_append, thrust_outFrame hout, thrust_backFrame hback]
      ring
    rw [thrust_append, thrust_flatten_replicate, hsum, mul_zero, zero_add, thrust_stop]

/-- Fewer frames than phases, other than a mere stop, are neither all nor none. -/
lemma not_whole_of_length {frames : List Frame} {clockwise : Bool} {n : Nat}
    (hplan : turnPlan turn = (clockwise, n)) (hn : n ≠ 0) (hlow : 1 ≤ frames.length)
    (hhigh : frames.length ≤ n + 1) (hstop : frames ≠ [.stop]) :
    ¬ (AllSent settings turn frames ∨ NoneSent frames) := by
  rintro (hall | rfl | hone)
  · rw [AllSent, hplan] at hall
    have hlength := congrArg List.length hall
    rw [List.length_map, List.length_append, phaseFrames, List.length_map, length_turnPhases,
      List.length_singleton] at hlength
    omega
  · simp at hlow
  · exact hstop hone

/-- At `64` and at `-64` only one of the two arcs fits. -/
lemma exists_one_frame (clockwise : Bool) (hv : |v| = 64) :
    ∃ frame, (outFrame? clockwise v).toList ++ (backFrame? clockwise v).toList = [frame] ∧
      thrust [frame] = -192 := by
  have hboth := isSome_outFrame? clockwise v
  have hother := isSome_backFrame? clockwise v
  rcases (abs_eq (by norm_num)).mp hv with rfl | rfl
  · obtain ⟨out, hout⟩ := Option.isSome_iff_exists.mp (hboth.mpr (by norm_num))
    have hback : backFrame? clockwise 64 = none := by
      rw [← Option.not_isSome_iff_eq_none, hother]
      norm_num
    exact ⟨out, by rw [hout, hback]; rfl, thrust_outFrame hout⟩
  · obtain ⟨back, hback⟩ := Option.isSome_iff_exists.mp (hother.mpr (by norm_num))
    have hout : outFrame? clockwise (-64) = none := by
      rw [← Option.not_isSome_iff_eq_none, hboth]
      norm_num
    exact ⟨back, by rw [hout, hback]; rfl, thrust_backFrame hback⟩

/-- There each quarter sends this arc alone, and the turn is not balanced. -/
lemma partSent_of_one (hpower : settings.turnPower = .int v) (hv : |v| = 64) {clockwise : Bool}
    {n : Nat} (hplan : turnPlan turn = (clockwise, n)) (hn : n ≠ 0)
    (hheld : ¬ WaitFails false settings.turnPhaseTime) :
    ¬ (AllSent settings turn (framesOf ((turnBy turn).course settings).2) ∨
        NoneSent (framesOf ((turnBy turn).course settings).2)) ∧
      thrust (framesOf ((turnBy turn).course settings).2) ≠ 0 := by
  obtain ⟨frame, hframe, hthrust⟩ := exists_one_frame clockwise hv
  have hframes : framesOf ((turnBy turn).course settings).2 =
      (List.replicate n [frame]).flatten ++ [.stop] := by
    rw [course_turnBy_of_held hpower hv.le hplan hn hheld]
    dsimp only
    rw [framesOf_turnEvents hpower hplan, hframe]
  have hsum : thrust ((List.replicate n [frame]).flatten ++ [.stop]) ≠ 0 := by
    rw [thrust_append, thrust_flatten_replicate, hthrust, thrust_stop]
    omega
  rw [hframes]
  refine ⟨not_whole_of_length hplan hn ?_ ?_ fun hstop => hsum (by rw [hstop]; rfl), hsum⟩
  · simp
  · simp

/-- A wait that fails leaves the first arc alone, which stops the motors when the power is zero. -/
lemma firstSent_of_waitFails (hpower : settings.turnPower = .int v) (hlow : -63 ≤ v)
    (hhigh : v ≤ 64) (hv : v ≠ 0) {clockwise : Bool} {n : Nat}
    (hplan : turnPlan turn = (clockwise, n)) (hn : n ≠ 0)
    (hfails : WaitFails false settings.turnPhaseTime) :
    ¬ (AllSent settings turn (framesOf ((turnBy turn).course settings).2) ∨
        NoneSent (framesOf ((turnBy turn).course settings).2)) ∧
      thrust (framesOf ((turnBy turn).course settings).2) ≠ 0 := by
  obtain ⟨out, hout⟩ := Option.isSome_iff_exists.mp
    ((isSome_outFrame? clockwise v).mpr ⟨hlow, hhigh⟩)
  have hsum : thrust [out] ≠ 0 := by
    rw [thrust_outFrame hout]
    omega
  rw [framesOf_turnBy_of_waitFails hpower hplan hn hfails, hout]
  refine ⟨not_whole_of_length hplan hn ?_ ?_ fun hstop => hsum ?_, hsum⟩
  · simp
  · simp
  · rw [← Option.toList_some, hstop]
    rfl

/-- When the first wait fails and the first arc drives nothing, no phase is sent. -/
lemma noneSent_of_waitFails (hpower : settings.turnPower = .int v)
    (hv : v = 0 ∨ v < -63 ∨ 64 < v) {clockwise : Bool} {n : Nat}
    (hplan : turnPlan turn = (clockwise, n)) (hn : n ≠ 0)
    (hfails : WaitFails false settings.turnPhaseTime) :
    NoneSent (framesOf ((turnBy turn).course settings).2) := by
  rw [framesOf_turnBy_of_waitFails hpower hplan hn hfails]
  rcases hv with rfl | hv
  · right
    cases clockwise <;> rfl
  · left
    have hout : outFrame? clockwise v = none := by
      rw [← Option.not_isSome_iff_eq_none, isSome_outFrame?]
      omega
    rw [hout]
    rfl

/-- The power and the wait by which a turn with quarters is sent whole: the waits are held, and both
arcs fit or neither does; or the first wait fails, and the first arc drives nothing. -/
def GoesTogether (v : Int) (time : Value) : Prop :=
  (¬ WaitFails false time ∧ v ≠ 64 ∧ v ≠ -64) ∨
    WaitFails false time ∧ (v = 0 ∨ v < -63 ∨ 64 < v)

/-- A turn is whole and balanced, or it is neither. -/
lemma course_balanced_cases (hpower : settings.turnPower = .int v) (turn : Number) :
    (((turnPlan turn).2 = 0 ∨ GoesTogether v settings.turnPhaseTime) ∧
      (AllSent settings turn (framesOf ((turnBy turn).course settings).2) ∨
        NoneSent (framesOf ((turnBy turn).course settings).2)) ∧
      thrust (framesOf ((turnBy turn).course settings).2) = 0) ∨
    (¬ ((turnPlan turn).2 = 0 ∨ GoesTogether v settings.turnPhaseTime) ∧
      ¬ (AllSent settings turn (framesOf ((turnBy turn).course settings).2) ∨
        NoneSent (framesOf ((turnBy turn).course settings).2)) ∧
      thrust (framesOf ((turnBy turn).course settings).2) ≠ 0) := by
  rcases hplan : turnPlan turn with ⟨clockwise, n⟩
  by_cases hn : n = 0
  · have hnone := noneSent_of_none hpower hplan (.inl hn)
    exact .inl ⟨.inl hn, .inr hnone, hnone.thrust_eq⟩
  -- a wait that fails ends the turn after its first arc, if that one was sent
  by_cases hfails : WaitFails false settings.turnPhaseTime
  · by_cases hv : v = 0 ∨ v < -63 ∨ 64 < v
    · have hnone := noneSent_of_waitFails hpower hv hplan hn hfails
      exact .inl ⟨.inr (.inr ⟨hfails, hv⟩), .inr hnone, hnone.thrust_eq⟩
    · have hpart := firstSent_of_waitFails hpower (by omega) (by omega) (by omega) hplan hn hfails
      refine .inr ⟨?_, hpart⟩
      rintro (hzero | ⟨hheld, -⟩ | ⟨-, hv'⟩)
      · exact hn hzero
      · exact hheld hfails
      · exact hv hv'
  -- at `64` and `-64` one of the two arcs fits a frame and the other does not
  by_cases hone : |v| = 64
  · refine .inr ⟨?_, partSent_of_one hpower hone hplan hn hfails⟩
    have hv : v = 64 ∨ v = -64 := (abs_eq (by norm_num)).mp hone
    rintro (hzero | ⟨-, hne⟩ | ⟨hfails', -⟩)
    · exact hn hzero
    · omega
    · exact hfails hfails'
  have hne : v ≠ 64 ∧ v ≠ -64 := by
    rw [abs_eq (by norm_num), not_or] at hone
    exact hone
  refine .inl ⟨.inr (.inl ⟨hfails, hne⟩), ?_⟩
  by_cases hfits : -63 ≤ v ∧ v ≤ 63
  · obtain ⟨hall, hsum⟩ := allSent_of_fits hpower hfits.1 hfits.2 hplan hn hfails
    exact ⟨.inl hall, hsum⟩
  · have hout : outFrame? clockwise v = none := by
      rw [← Option.not_isSome_iff_eq_none, isSome_outFrame?]
      omega
    have hback : backFrame? clockwise v = none := by
      rw [← Option.not_isSome_iff_eq_none, isSome_backFrame?]
      omega
    have hnone := noneSent_of_none hpower hplan (.inr ⟨hout, hback⟩)
    exact ⟨.inr hnone, hnone.thrust_eq⟩

/-- What a turn sends on a session that nobody disturbs, under settings whose power of turns is the
integer of an update.  It is all phases or none exactly when the turn has no quarter, or the power
is neither `64` nor `-64` and its waits are held, or its first wait fails and the first arc drives
nothing.  These are also the cases in which the powers of all frames add up to none.  All phases of
a turn with quarters are sent for a power from `-63` to `63` when the waits are held. -/
theorem turn_balanced_iff (settings : Settings) (v : Int) :
    ∃ updated, settings.update [("turn_power", .int v)] = .ok updated ∧
      ∀ (turn : Number) (frames : List Bytes) (air : Air) (clock : Clock),
        let s : Session := ⟨updated, .rehearsal frames, false, air, clock⟩
        let sent := framesOf ((turnBy turn).play (Session.rehearsal quiet) s).2.2.events
        (AllSent updated turn sent ∨ NoneSent sent ↔
          (turnPlan turn).2 = 0 ∨ GoesTogether v settings.turnPhaseTime) ∧
        (thrust sent = 0 ↔ AllSent updated turn sent ∨ NoneSent sent) ∧
        ((turnPlan turn).2 ≠ 0 → ¬ WaitFails false settings.turnPhaseTime → -63 ≤ v → v ≤ 63 →
          AllSent updated turn sent) := by
  refine ⟨settings.set .turnPower (.int v), rfl, fun turn frames air clock => ?_⟩
  let s : Session := ⟨settings.set .turnPower (.int v), .rehearsal frames, false, air, clock⟩
  have hrehearses : s.Rehearses s.settings ⟨clock.begun, false⟩ := ⟨⟨frames, rfl⟩, rfl, rfl⟩
  obtain ⟨t, journal, hplay, -, hevents⟩ := play_quiet (turnBy turn) _ _ _ hrehearses rfl
  have hpower : (settings.set .turnPower (.int v)).turnPower = .int v := rfl
  dsimp only
  rw [hplay, hevents]
  refine ⟨?_, ?_, fun hn hheld hlow hhigh => (allSent_of_fits hpower hlow hhigh rfl hn hheld).1⟩
  · obtain ⟨hcase, hwhole, -⟩ | ⟨hcase, hpart, -⟩ := course_balanced_cases hpower turn
    · exact iff_of_true hwhole hcase
    · exact iff_of_false hpart hcase
  · obtain ⟨-, hwhole, hsum⟩ | ⟨-, hpart, hsum⟩ := course_balanced_cases hpower turn
    · exact iff_of_true hsum hwhole
    · exact iff_of_false hsum hpart

/-- At the power `64` a quarter turn sends its arc out and not its arc back. -/
theorem turn_unbalanced_of_update :
    ∃ updated, Settings.standard.update [("turn_power", .int 64)] = .ok updated ∧
      framesOf ((turnBy (.double 1.5707963267948966)).play (Session.rehearsal quiet)
        ⟨updated, .rehearsal [], false, ⟨[], []⟩, .start⟩).2.2.events =
        [⟨-64, -128, 0⟩, .stop] := by
  refine ⟨Settings.standard.set .turnPower (.int 64), rfl, ?_⟩
  decide +kernel

end Turn

end Script

end PenRover

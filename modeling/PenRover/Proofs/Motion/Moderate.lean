import PenRover.Proofs.Motion.Itinerary
import PenRover.Proofs.Numeric.Quotient

/-!
# Moderate numbers

Doubles never make a request or a wait fail, and neither do integers that are small enough.  A
number is moderate if it is a double, or an integer of magnitude below `10 ^ 300`: such an integer
can be written down, and its nearest double exists, also when it is doubled first.  So what is
requested with a moderate power is requested without a failure.
-/

namespace PenRover

/-- The number is a double, or an integer of magnitude below `10 ^ 300`. -/
def Number.Moderate : Number → Prop
  | .int n => |n| < 10 ^ 300
  | .double _ => True

/-- The number is a double, or an integer of magnitude below `2 ^ 1001`, as the double of a moderate
number is. -/
def Number.Tame : Number → Prop
  | .int n => |n| < 2 ^ 1001
  | .double _ => True

namespace Number

/-- The bound on moderate integers is within the range of doubles. -/
lemma ten_pow_le_two_pow : (10 : Int) ^ 300 ≤ 2 ^ 1000 := by
  rw [show (300 : Nat) = 3 * 100 from rfl, show (1000 : Nat) = 10 * 100 from rfl, pow_mul, pow_mul]
  exact pow_le_pow_left₀ (by norm_num) (by norm_num) 100

/-- A moderate number is tame. -/
lemma Moderate.tame {n : Number} (h : n.Moderate) : n.Tame := by
  cases n with
  | double x => trivial
  | int n =>
    have htwo : (2 : Int) ^ 1000 ≤ 2 ^ 1001 := pow_le_pow_right₀ (by norm_num) (by norm_num)
    exact lt_of_lt_of_le h (ten_pow_le_two_pow.trans htwo)

/-- A tame number has a nearest double. -/
lemma Tame.toDouble {n : Number} (h : n.Tame) : ∃ x, n.toDouble = .ok x := by
  cases n with
  | double x => exact ⟨x, rfl⟩
  | int n =>
    have hbound : |(n : ℚ)| ≤ 2 ^ 1001 := by
      have hcast := (Int.cast_le (R := ℚ)).mpr (le_of_lt h)
      rwa [Int.cast_abs, Int.cast_pow, Int.cast_ofNat] at hcast
    obtain ⟨x, -, hx, -⟩ := toDouble_of_abs_le (a := .int n) rfl (by norm_num) hbound
    exact ⟨x, hx⟩

/-- A moderate number times `1`, `2` or their opposites is tame. -/
lemma Moderate.mul {n : Number} (h : n.Moderate) {factor : Int} (hfactor : |factor| ≤ 2) :
    ∃ m, Number.mul (.int factor) n = .ok m ∧ m.Tame := by
  cases n with
  | int n =>
    refine ⟨.int (factor * n), rfl, ?_⟩
    have hn : |n| < 2 ^ 1000 := lt_of_lt_of_le h ten_pow_le_two_pow
    have htwo : (2 : Int) ^ 1001 = 2 * 2 ^ 1000 := pow_succ' 2 1000
    change |factor * n| < 2 ^ 1001
    rw [abs_mul, htwo]
    calc |factor| * |n| ≤ 2 * |n| := mul_le_mul_of_nonneg_right hfactor (abs_nonneg n)
      _ < 2 * 2 ^ 1000 := (mul_lt_mul_iff_right₀ (by norm_num)).mpr hn
  | double x =>
    have htame : (Number.int factor).Tame := by
      have hpow : (2 : Int) ^ 2 ≤ 2 ^ 1001 := pow_le_pow_right₀ (by norm_num) (by norm_num)
      exact lt_of_lt_of_le (by linarith) hpow
    obtain ⟨y, hy⟩ := htame.toDouble
    have hmul : Number.mul (.int factor) (.double x) =
        (Number.int factor).toDouble >>= fun y => .ok (.double (y * x)) := rfl
    refine ⟨.double (y * x), ?_, trivial⟩
    rw [hmul, hy]
    rfl

end Number

/-! ### Requests -/

namespace Value

/-- A tame integer can be written down. -/
lemma isDisplayable_of_tame {n : Number} (h : n.Tame) : (Value.number n).isDisplayable = true := by
  cases n with
  | double x => rfl
  | int n =>
    have hpow : (2 : Int) ^ 1001 ≤ 10 ^ maxNumeralDigits :=
      (pow_le_pow_right₀ (by norm_num) (by decide)).trans
        (pow_le_pow_left₀ (by norm_num) (by norm_num) maxNumeralDigits)
    have hlt : (n.natAbs : Int) < 10 ^ maxNumeralDigits := by
      rw [Int.natCast_natAbs]
      exact lt_of_lt_of_le h hpow
    have hshort : ¬ 10 ^ maxNumeralDigits ≤ n.natAbs := by
      intro hlong
      have hlong' := (Nat.cast_le (α := Int)).mpr hlong
      rw [Nat.cast_pow, Nat.cast_ofNat] at hlong'
      exact absurd (hlong'.trans_lt hlt) (lt_irrefl _)
    simp only [isDisplayable, isTooLong, hshort, decide_false, Bool.not_false]

/-- A tame number can be read as a power, though it may fit no wheel. -/
lemma power?_of_tame {n : Number} (h : n.Tame) : ∃ p, (Value.number n).power? = .ok p := by
  cases n with
  | int n =>
    obtain ⟨x, hx⟩ := h.toDouble
    exact ⟨if -128 ≤ n ∧ n ≤ 127 then some n else none,
      by simp [power?, hx, bind, Except.bind, pure,
      Except.pure]⟩
  | double x =>
    simp only [power?]
    split
    · split <;> exact ⟨_, rfl⟩
    · exact ⟨_, rfl⟩

end Value

/-- A request for tame powers does not fail. -/
lemma Frame.request_of_tame {left right : Number} (hleft : left.Tame) (hright : right.Tame) :
    ∃ frame, Frame.request (.number left) (.number right) = .ok frame := by
  obtain ⟨l, hl⟩ := Value.power?_of_tame hleft
  obtain ⟨r, hr⟩ := Value.power?_of_tame hright
  unfold Frame.request
  rw [Value.isDisplayable_of_tame hleft, Value.isDisplayable_of_tame hright]
  cases l with
  | none => exact ⟨none, by simp [Frame.ofPowers?, hl, bind, Except.bind, pure, Except.pure]⟩
  | some l =>
    cases r <;>
      exact ⟨_, by simp [Frame.ofPowers?, hl, hr, bind, Except.bind, pure, Except.pure]; rfl⟩

namespace Script

variable (settings : Settings)

/-- The script comes to a good end when nothing disturbs it. -/
def Succeeds {α : Type} (settings : Settings) (script : Script α) : Prop :=
  ∃ a events, script.course settings = (.ok a, events)

/-- A request for tame powers comes to a good end, whether or not they fit a frame. -/
lemma succeeds_go_of_tame {left right : Number} (hleft : left.Tame) (hright : right.Tame) :
    (go (.number left) (.number right)).Succeeds settings := by
  obtain ⟨frame, hframe⟩ := Frame.request_of_tame hleft hright
  exact ⟨_, _, course_go_of_ok hframe⟩

/-- A multiple of a moderate power. -/
lemma scale_of_moderate {power : Value} {n : Number} (hpower : power.number? = some n)
    (hn : n.Moderate) {factor : Int} (hfactor : |factor| ≤ 2) :
    ∃ m, power.scale factor = .ok (.number m) ∧ m.Tame := by
  obtain ⟨m, hm, htame⟩ := hn.mul hfactor
  refine ⟨m, ?_, htame⟩
  unfold Value.scale
  rw [hpower]
  simp [hm, bind, Except.bind, pure, Except.pure]

/-- A request at small multiples of a moderate power comes to a good end. -/
lemma succeeds_goTimes_of_moderate {power : Value} {n : Number} (hpower : power.number? = some n)
    (hn : n.Moderate) {left right : Int} (hleft : |left| ≤ 2) (hright : |right| ≤ 2) :
    (goTimes power left right).Succeeds settings := by
  obtain ⟨l, hl, hltame⟩ := scale_of_moderate hpower hn hleft
  obtain ⟨r, hr, hrtame⟩ := scale_of_moderate hpower hn hright
  obtain ⟨a, events, hgo⟩ := succeeds_go_of_tame settings hltame hrtame
  refine ⟨a, events, ?_⟩
  rw [goTimes, hl, course_ofExcept_bind_ok, hr, course_ofExcept_bind_ok]
  exact hgo

/-- A wait of a tame length is held. -/
lemma succeeds_pause_of_tame {time : Value} {n : Number} (htime : time.number? = some n)
    (hn : n.Tame) : (pause time).Succeeds settings := by
  obtain ⟨x, hx⟩ := hn.toDouble
  have hcheck : Clock.checkTime time = .ok n := by simp only [Clock.checkTime, htime]
  exact ⟨_, _, course_pause_of_ok hcheck (Clock.seconds_of_toDouble hx)⟩

end Script

end PenRover

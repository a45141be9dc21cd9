import PenRover.Proofs.Motion.Itinerary
import PenRover.Proofs.Motion.Moderate
import PenRover.Proofs.Numeric.Overflow

/-!
# Requests for powers

A request for two powers is answered from the two values alone, whatever they are.  A value fits a
frame when it is a finite number from `-128` to `127`, and the frame holds its integer part
(`Value.Fits`).  What fits is handed to the link as three bytes, and once the abort flag is up
nothing is; what does not fit is passed over.

An integer beyond the doubles (`Value.BeyondDoubles`) is not passed over.  It fits no frame either,
but it is rounded before it is compared, and this fails (`Value.power?_of_beyond`).  The second
value is only looked at when the first one fits, and neither is when one of them is too long to be
noted down.  `Frame.Fails` lists these cases, and `Session.drive_filters` says that there are no
others.
-/

namespace PenRover

namespace Value

/-- The value is a number that a frame can hold, and this is the power that the frame holds. -/
def Fits (v : Value) (p : Int) : Prop :=
  ∃ n q, v = .number n ∧ n.value? = some q ∧ -128 ≤ q ∧ q ≤ 127 ∧ p = integerPart q

/-- The value is an integer that has no nearest double. -/
def BeyondDoubles (v : Value) : Prop :=
  ∃ n : Int, v = .int n ∧ 2 ^ 1024 - 2 ^ 970 ≤ n.natAbs

/-! ### The power of a value -/

variable {v : Value} {p : Int}

/-- A small integer has a nearest double. -/
lemma not_beyondDoubles_of_natAbs_lt {n : Int} (h : n.natAbs < 2 ^ 10) :
    ¬ (Value.int n).BeyondDoubles := by
  rintro ⟨m, heq, hm⟩
  obtain rfl : n = m := Number.int.inj (Value.number.inj heq)
  obtain ⟨x, hx, -⟩ := Double.ofInt?_exact (by omega : |n| ≤ 2 ^ 53)
  rw [Double.ofInt?_eq_none_iff.mpr hm] at hx
  exact nomatch hx

/-- An integer that has no nearest double cannot be read as a power. -/
lemma power?_of_beyond (h : v.BeyondDoubles) : v.power? = .error .tooLarge := by
  obtain ⟨n, rfl, hn⟩ := h
  simp only [int, power?, Number.toDouble, Double.ofInt?_eq_none_iff.mpr hn]
  rfl

/-- An integer that has a nearest double is a power when it is in range. -/
lemma power?_int_of_not_beyond {n : Int} (h : ¬ (Value.int n).BeyondDoubles) :
    (Value.int n).power? = .ok (if -128 ≤ n ∧ n ≤ 127 then some n else none) := by
  cases hdouble : Double.ofInt? n with
  | none => exact absurd ⟨n, rfl, Double.ofInt?_eq_none_iff.mp hdouble⟩ h
  | some x =>
    simp only [int, power?, Number.toDouble, hdouble]
    rfl

/-- A number that a frame can hold is read as its power. -/
lemma power?_of_fits (h : v.Fits p) : v.power? = .ok (some p) := by
  obtain ⟨n, q, rfl, hq, hlow, hhigh, rfl⟩ := h
  cases n with
  | int n =>
    obtain rfl : (n : ℚ) = q := Option.some.inj hq
    have hrange : -128 ≤ n ∧ n ≤ 127 := ⟨by exact_mod_cast hlow, by exact_mod_cast hhigh⟩
    have hsmall : n.natAbs < 2 ^ 10 := by omega
    have hpower := power?_int_of_not_beyond (not_beyondDoubles_of_natAbs_lt hsmall)
    rw [if_pos hrange] at hpower
    rw [integerPart_intCast]
    exact hpower
  | double x =>
    have hpower := power?_double hq
    rwa [if_pos ⟨hlow, hhigh⟩] at hpower

/-- What does not fit is passed over, unless it is an integer beyond the doubles. -/
lemma power?_of_not_fits (hbeyond : ¬ v.BeyondDoubles) (h : ∀ p, ¬ v.Fits p) :
    v.power? = .ok none := by
  cases v with
  | null | flag | text | list | record => rfl
  | number n =>
    cases n with
    | int n =>
      refine (power?_int_of_not_beyond hbeyond).trans ?_
      rw [if_neg]
      rintro ⟨hlow, hhigh⟩
      exact h n ⟨.int n, n, rfl, rfl, by exact_mod_cast hlow, by exact_mod_cast hhigh, by simp⟩
    | double x =>
      cases hq : Double.value? x with
      | none => exact power?_double_of_not_finite hq
      | some q =>
        refine (power?_double hq).trans ?_
        rw [if_neg]
        rintro ⟨hlow, hhigh⟩
        exact h _ ⟨.double x, q, rfl, hq, hlow, hhigh, rfl⟩

/-- A number that a frame can hold has a nearest double. -/
lemma not_beyondDoubles_of_fits (h : v.Fits p) : ¬ v.BeyondDoubles := by
  intro hbeyond
  have hpower := power?_of_fits h
  rw [power?_of_beyond hbeyond] at hpower
  exact nomatch hpower

/-- A value that fits can be noted down. -/
lemma isDisplayable_of_fits (h : v.Fits p) : v.isDisplayable = true := by
  obtain ⟨n, q, rfl, hq, hlow, hhigh, rfl⟩ := h
  refine isDisplayable_of_tame ?_
  cases n with
  | double x => trivial
  | int n =>
    obtain rfl : (n : ℚ) = q := Option.some.inj hq
    have hlow' : -128 ≤ n := by exact_mod_cast hlow
    have hhigh' : n ≤ 127 := by exact_mod_cast hhigh
    have hsmall : |n| ≤ 2 ^ 7 := abs_le.mpr ⟨by omega, by omega⟩
    exact hsmall.trans_lt (pow_lt_pow_right₀ (by norm_num) (by norm_num))

/-- The integer part of a number in the range of a byte is in this range. -/
lemma integerPart_range {q : ℚ} (hlow : -128 ≤ q) (hhigh : q ≤ 127) :
    -128 ≤ integerPart q ∧ integerPart q ≤ 127 := by
  unfold integerPart
  split_ifs
  · have hfloor : (⌊q⌋ : ℚ) ≤ 127 := (Int.floor_le q).trans hhigh
    exact ⟨Int.le_floor.mpr (by exact_mod_cast hlow), by exact_mod_cast hfloor⟩
  · have hceil : -128 ≤ (⌈q⌉ : ℚ) := hlow.trans (Int.le_ceil q)
    exact ⟨by exact_mod_cast hceil, Int.ceil_le.mpr (by exact_mod_cast hhigh)⟩

/-- A power that a frame can hold is in the range of a byte. -/
lemma Fits.range (h : v.Fits p) : -128 ≤ p ∧ p ≤ 127 := by
  obtain ⟨n, q, -, -, hlow, hhigh, rfl⟩ := h
  exact integerPart_range hlow hhigh

end Value

/-! ### The frame of a request -/

namespace Frame

variable {left right : Value} {l r : Int}

/-- The request for these powers fails, and this is why. -/
inductive Fails (left right : Value) : Fault → Prop
  /-- One of the values holds an integer that is too long to be noted down. -/
  | tooLong (h : left.isDisplayable = false ∨ right.isDisplayable = false) :
    Fails left right .tooLongToWrite
  /-- The first value is an integer beyond the doubles. -/
  | left (hleft : left.isDisplayable = true) (hright : right.isDisplayable = true)
    (h : left.BeyondDoubles) : Fails left right .tooLarge
  /-- The first value fits, and the second one is an integer beyond the doubles. -/
  | right {l : Int} (hleft : left.Fits l) (hright : right.isDisplayable = true)
    (h : right.BeyondDoubles) : Fails left right .tooLarge

/-- The frame with these powers. -/
def ofFitting (l r : Int) : Frame := ⟨Int8.ofInt l, Int8.ofInt r, 0⟩

/-- The bytes of the frame, read as signed, are the powers. -/
lemma map_toInt_toBytes_ofFitting (hl : -128 ≤ l ∧ l ≤ 127) (hr : -128 ≤ r ∧ r ≤ 127) :
    (ofFitting l r).toBytes.map (fun b => b.toInt8.toInt) = [l, r, 0] := by
  have hread {p : Int} (hp : -128 ≤ p ∧ p ≤ 127) : (Int8.ofInt p).toInt = p :=
    Int8.toInt_ofInt_of_le (by omega) (by omega)
  simp only [ofFitting, toBytes, List.map_cons, List.map_nil, Int8.toInt8_toUInt8, hread hl,
    hread hr]
  rfl

/-- A request for powers that fit does not fail. -/
lemma not_fails_of_fits (hl : left.Fits l) (hr : right.Fits r) (fault : Fault) :
    ¬ Fails left right fault := by
  intro hfails
  cases hfails with
  | tooLong h =>
    rw [Value.isDisplayable_of_fits hl, Value.isDisplayable_of_fits hr] at h
    simp at h
  | left _ _ h => exact Value.not_beyondDoubles_of_fits hl h
  | right _ _ h => exact Value.not_beyondDoubles_of_fits hr h

/-- A request for powers that fit comes to their frame. -/
lemma request_of_fits (hl : left.Fits l) (hr : right.Fits r) :
    request left right = .ok (some (ofFitting l r)) := by
  unfold request
  rw [Value.isDisplayable_of_fits hl, Value.isDisplayable_of_fits hr]
  simp only [ofPowers?, Value.power?_of_fits hl, Value.power?_of_fits hr]
  rfl

/-- A request that fails does so for the reason given. -/
lemma request_of_fails {fault : Fault} (h : Fails left right fault) :
    request left right = .error fault := by
  unfold request
  cases h with
  | tooLong h =>
    rw [if_neg]
    rcases h with h | h <;> simp [h]
  | left hleft hright h =>
    simp only [hleft, hright, ofPowers?, Value.power?_of_beyond h]
    rfl
  | right hleft hright h =>
    simp only [Value.isDisplayable_of_fits hleft, hright, ofPowers?, Value.power?_of_fits hleft,
      Value.power?_of_beyond h]
    rfl

/-- A request that neither fits nor fails is passed over. -/
lemma request_of_other (hfits : ∀ l r, left.Fits l → ¬ right.Fits r)
    (hfails : ∀ fault, ¬ Fails left right fault) : request left right = .ok none := by
  have hleft : left.isDisplayable = true := by
    by_contra h
    exact hfails _ (.tooLong (.inl (Bool.eq_false_iff.mpr h)))
  have hright : right.isDisplayable = true := by
    by_contra h
    exact hfails _ (.tooLong (.inr (Bool.eq_false_iff.mpr h)))
  have hsmall : ¬ left.BeyondDoubles := fun h => hfails _ (.left hleft hright h)
  unfold request
  rw [hleft, hright]
  by_cases hl : ∃ l, left.Fits l
  · obtain ⟨l, hl⟩ := hl
    have hsmall' : ¬ right.BeyondDoubles := fun h => hfails _ (.right hl hright h)
    simp only [ofPowers?, Value.power?_of_fits hl,
      Value.power?_of_not_fits hsmall' fun r => hfits l r hl]
    rfl
  · simp only [ofPowers?, Value.power?_of_not_fits hsmall fun l h => hl ⟨l, h⟩]
    rfl

end Frame

/-! ### What the session does -/

namespace Session

variable {left right : Value} (s : Session)

/-- A request that fails is noted at most, and has no events. -/
lemma drive_of_error {fault : Fault} (h : Frame.request left right = .error fault) :
    ∃ journal, drive left right s = (.error fault, s, journal) ∧ Journal.events journal = [] := by
  unfold Frame.request at h
  split at h
  next hshown =>
    refine ⟨[.note (.powers left right)], ?_, rfl⟩
    simp [drive, hshown, h, bind, Act.bind, Act.write, Act.ofExcept]
  next hshown =>
    obtain rfl := Except.error.inj h
    refine ⟨[], ?_, rfl⟩
    rw [drive, if_neg hshown]
    rfl

/-- A request that fits no frame is noted at most, and has no events. -/
lemma drive_of_none (h : Frame.request left right = .ok none) :
    ∃ journal, drive left right s = (.ok (), s, journal) ∧ Journal.events journal = [] := by
  unfold Frame.request at h
  split at h
  next hshown =>
    refine ⟨[.note (.powers left right), .note (.ignoredPowers left right)], ?_, rfl⟩
    simp [drive, hshown, h, bind, Act.bind, Act.write, Act.ofExcept]
  next => cases h

/-- A request that fits a frame sends it, unless the flag is up. -/
lemma drive_of_some {frame : Frame} (h : Frame.request left right = .ok (some frame)) :
    drive left right s =
      if s.aborted then (.ok (), s, [.note (.powers left right)])
      else ((send frame.toBytes s).1, (send frame.toBytes s).2.1,
        .note (.powers left right) :: (send frame.toBytes s).2.2) := by
  unfold Frame.request at h
  split at h
  next hshown =>
    cases haborted : s.aborted <;>
      simp [drive, hshown, h, bind, Act.bind, Act.write, Act.ofExcept, Act.state, haborted, pure,
        Act.pure]
  next => cases h

/-- A request for any two values, on any session.  When both fit and the flag is down, exactly one
frame is handed to the link, and its bytes, read as signed, are the integer parts and zero.
Otherwise nothing is handed over, the session stays as it is, and the request fails exactly when one
of the values is too long to be noted down, or the first one is an integer beyond the doubles, or
the first one fits and the second one is such an integer. -/
theorem drive_filters (left right : Value) (s : Session) :
    (∀ l r, left.Fits l → right.Fits r → s.aborted = false →
      ∃ bytes : Bytes, bytes.map (fun b => b.toInt8.toInt) = [l, r, 0] ∧
        drive left right s = ((send bytes s).1, (send bytes s).2.1,
          .note (.powers left right) :: (send bytes s).2.2)) ∧
    (¬ ((∃ l, left.Fits l) ∧ (∃ r, right.Fits r) ∧ s.aborted = false) →
      ∃ result journal, drive left right s = (result, s, journal) ∧ Journal.events journal = [] ∧
        ∀ fault, result = .error fault ↔ Frame.Fails left right fault) := by
  constructor
  · intro l r hl hr hdown
    refine ⟨(Frame.ofFitting l r).toBytes, Frame.map_toInt_toBytes_ofFitting hl.range hr.range, ?_⟩
    rw [drive_of_some s (Frame.request_of_fits hl hr), hdown]
    rfl
  · intro hnot
    by_cases hfits : ∃ l r, left.Fits l ∧ right.Fits r
    · obtain ⟨l, r, hl, hr⟩ := hfits
      have hup : s.aborted = true := by
        by_contra h
        exact hnot ⟨⟨l, hl⟩, ⟨r, hr⟩, Bool.eq_false_iff.mpr h⟩
      refine ⟨.ok (), [.note (.powers left right)], ?_, rfl, fun fault => ?_⟩
      · rw [drive_of_some s (Frame.request_of_fits hl hr), hup]
        rfl
      · exact iff_of_false nofun (Frame.not_fails_of_fits hl hr fault)
    · have hother : ∀ l r, left.Fits l → ¬ right.Fits r := fun l r hl hr => hfits ⟨l, r, hl, hr⟩
      by_cases hfails : ∃ fault, Frame.Fails left right fault
      · obtain ⟨fault, hfault⟩ := hfails
        have hrequest := Frame.request_of_fails hfault
        obtain ⟨journal, hdrive, hevents⟩ := drive_of_error s hrequest
        refine ⟨.error fault, journal, hdrive, hevents, fun fault' => ⟨?_, fun h => ?_⟩⟩
        · rintro ⟨⟩
          exact hfault
        · have heq := hrequest.symm.trans (Frame.request_of_fails h)
          rw [Except.error.inj heq]
      · have hnone := Frame.request_of_other hother fun fault h => hfails ⟨fault, h⟩
        obtain ⟨journal, hdrive, hevents⟩ := drive_of_none s hnone
        exact ⟨.ok (), journal, hdrive, hevents, fun fault =>
          iff_of_false nofun fun h => hfails ⟨fault, h⟩⟩

/-- An integer beyond the doubles is not passed over: the request fails, although the link is a
rehearsal and the flag is down. -/
theorem drive_fails_of_beyond :
    let s : Session := ⟨.standard, .rehearsal [], false, ⟨[], []⟩, .start⟩
    (drive (.int (10 ^ 400)) (.int 0) s).1 = .error .tooLarge ∧
      (drive (.int (10 ^ 400)) (.int 0) s).2.2.events = [] := by
  decide +kernel

end Session

end PenRover

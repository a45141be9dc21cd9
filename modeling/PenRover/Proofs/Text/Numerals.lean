import Mathlib.Data.Nat.Digits.Defs
import PenRover.Text.DecimalDigit

/-!
# Numerals

A numeral is an optional sign with decimal digits behind it, and it stands for the number with these
digits in base ten.  The digits may be of different scripts.  The reader of numerals accepts exactly
these texts (`numeral?_eq_some_iff`), and what it computes from the left is the positional value
(`ofDigits_eq`).
-/

namespace PenRover

namespace Text

/-- The code points are decimal digits with these values. -/
def Digits (t : Text) (ds : List Nat) : Prop :=
  List.Forall₂ (fun c d => CodePoint.digit? c = some d) t ds

/-- The text is a numeral: an optional sign, and then at least one digit. -/
inductive Numeral : Text → Bool → List Nat → Prop
  | unsigned {t : Text} {ds : List Nat} (hne : ds ≠ []) (h : t.Digits ds) : Numeral t false ds
  | plus {t : Text} {ds : List Nat} (hne : ds ≠ []) (h : t.Digits ds) :
    Numeral (CodePoint.ofChar '+' :: t) false ds
  | minus {t : Text} {ds : List Nat} (hne : ds ≠ []) (h : t.Digits ds) :
    Numeral (CodePoint.ofChar '-' :: t) true ds

/-- The integer with this sign and these decimal digits, the leading one first. -/
def signedValue (negative : Bool) (ds : List Nat) : Int :=
  let magnitude : Nat := Nat.ofDigits 10 ds.reverse
  if negative then -magnitude else magnitude

/-- The text is a numeral of at most 4300 digits, and stands for this integer. -/
def Denotes (t : Text) (n : Int) : Prop :=
  ∃ negative ds, t.Numeral negative ds ∧ ds.length ≤ 4300 ∧ n = signedValue negative ds

/-! ### Digits -/

/-- A text is read as its digits. -/
lemma digits?_eq_some_iff {t : Text} {ds : List Nat} : digits? t = some ds ↔ t.Digits ds := by
  unfold digits? Digits
  induction t generalizing ds with
  | nil =>
    constructor
    · intro h
      obtain rfl : [] = ds := by simpa using h
      exact .nil
    · rintro ⟨⟩
      rfl
  | cons c rest ih =>
    simp only [List.mapM_cons, Option.bind_eq_bind, Option.bind_eq_some_iff]
    constructor
    · rintro ⟨d, hd, more, hmore, hds⟩
      obtain rfl : d :: more = ds := by simpa using hds
      exact .cons hd (ih.mp hmore)
    · rintro (_ | ⟨hd, hmore⟩)
      exact ⟨_, hd, _, ih.mpr hmore, rfl⟩

/-- The digits read from the left, with the number that stands before them. -/
lemma foldl_digits (n : Nat) (ds : List Nat) :
    ds.foldl (fun n d => 10 * n + d) n = n * 10 ^ ds.length + Nat.ofDigits 10 ds.reverse := by
  induction ds generalizing n with
  | nil => simp
  | cons d ds ih =>
    rw [List.foldl_cons, ih, Nat.ofDigits_reverse_cons, List.length_cons, pow_succ]
    ring

/-- The number of digits, the leading one first. -/
lemma ofDigits_eq (ds : List Nat) : ofDigits ds = Nat.ofDigits 10 ds.reverse := by
  rw [ofDigits, foldl_digits, Nat.zero_mul, Nat.zero_add]

/-! ### Signs -/

/-- A plus sign is no digit. -/
lemma digit?_plus : (CodePoint.ofChar '+').digit? = none := by decide

/-- A minus sign is no digit. -/
lemma digit?_minus : (CodePoint.ofChar '-').digit? = none := by decide

/-- A minus sign makes a numeral negative. -/
lemma splitSign_minus (t : Text) : splitSign (CodePoint.ofChar '-' :: t) = (true, t) := by
  simp [splitSign]

/-- A plus sign makes a numeral positive. -/
lemma splitSign_plus (t : Text) : splitSign (CodePoint.ofChar '+' :: t) = (false, t) := by
  have hne : CodePoint.ofChar '+' ≠ CodePoint.ofChar '-' := by decide
  simp [splitSign, hne]

/-- What begins with a digit has no sign in front. -/
lemma splitSign_of_digits {t : Text} {ds : List Nat} (h : t.Digits ds) :
    splitSign t = (false, t) := by
  cases h with
  | nil => rfl
  | @cons c d rest ds hd h =>
    have hminus : c ≠ CodePoint.ofChar '-' := by
      rintro rfl
      rw [digit?_minus] at hd
      exact nomatch hd
    have hplus : c ≠ CodePoint.ofChar '+' := by
      rintro rfl
      rw [digit?_plus] at hd
      exact nomatch hd
    simp [splitSign, hminus, hplus]

/-- A text has a plus sign, a minus sign or no sign at its front. -/
lemma splitSign_cases (t : Text) :
    splitSign t = (false, t) ∨ (∃ rest, t = CodePoint.ofChar '+' :: rest ∧
      splitSign t = (false, rest)) ∨
      ∃ rest, t = CodePoint.ofChar '-' :: rest ∧ splitSign t = (true, rest) := by
  cases t with
  | nil => exact .inl rfl
  | cons c rest =>
    by_cases hminus : c = CodePoint.ofChar '-'
    · subst hminus
      exact .inr (.inr ⟨rest, rfl, splitSign_minus rest⟩)
    · by_cases hplus : c = CodePoint.ofChar '+'
      · subst hplus
        exact .inr (.inl ⟨rest, rfl, splitSign_plus rest⟩)
      · left
        simp [splitSign, hminus, hplus]

/-! ### Numerals -/

/-- A numeral is read as its sign and its digits, of which there must be one. -/
lemma numeral?_eq {t rest : Text} {negative : Bool} (hsign : splitSign t = (negative, rest)) :
    t.numeral? = match digits? rest with
      | none | some [] => none
      | some ds => some (negative, ds) := by
  rcases hdigits : digits? rest with _ | _ | _ <;> simp [numeral?, hsign, hdigits]

/-- With its sign split off, a text is a numeral when digits are left, and at least one. -/
lemma numeral?_of_splitSign {t rest : Text} {sign negative : Bool} {ds : List Nat}
    (hsign : splitSign t = (sign, rest)) :
    t.numeral? = some (negative, ds) ↔ negative = sign ∧ ds ≠ [] ∧ rest.Digits ds := by
  rw [numeral?_eq hsign, ← digits?_eq_some_iff]
  constructor
  · intro h
    split at h
    · exact nomatch h
    · exact nomatch h
    next hne hfound =>
      obtain ⟨rfl, rfl⟩ := Prod.mk.inj (Option.some.inj h)
      exact ⟨rfl, hne, hfound⟩
  · rintro ⟨rfl, hne, hdigits⟩
    rw [hdigits]
    cases ds with
    | nil => exact absurd rfl hne
    | cons => rfl

/-- The reader of numerals finds the sign and the digits of numerals, and of nothing else. -/
lemma numeral?_eq_some_iff {t : Text} {negative : Bool} {ds : List Nat} :
    t.numeral? = some (negative, ds) ↔ t.Numeral negative ds := by
  constructor
  · intro h
    obtain hsign | ⟨rest, rfl, hsign⟩ | ⟨rest, rfl, hsign⟩ := splitSign_cases t
    · obtain ⟨rfl, hne, hdigits⟩ := (numeral?_of_splitSign hsign).mp h
      exact .unsigned hne hdigits
    · obtain ⟨rfl, hne, hdigits⟩ := (numeral?_of_splitSign hsign).mp h
      exact .plus hne hdigits
    · obtain ⟨rfl, hne, hdigits⟩ := (numeral?_of_splitSign hsign).mp h
      exact .minus hne hdigits
  · rintro (⟨hne, hdigits⟩ | ⟨hne, hdigits⟩ | ⟨hne, hdigits⟩)
    · exact (numeral?_of_splitSign (splitSign_of_digits hdigits)).mpr ⟨rfl, hne, hdigits⟩
    · exact (numeral?_of_splitSign (splitSign_plus _)).mpr ⟨rfl, hne, hdigits⟩
    · exact (numeral?_of_splitSign (splitSign_minus _)).mpr ⟨rfl, hne, hdigits⟩

/-- A text is read as no numeral when it is none. -/
lemma numeral?_eq_none_iff {t : Text} :
    t.numeral? = none ↔ ¬ ∃ negative ds, t.Numeral negative ds := by
  simp only [← numeral?_eq_some_iff]
  constructor
  · rintro hnone ⟨negative, ds, hsome⟩
    exact nomatch hnone.symm.trans hsome
  · intro h
    cases hnumeral : t.numeral? with
    | none => rfl
    | some found => exact absurd ⟨found.1, found.2, hnumeral⟩ h

end Text

end PenRover

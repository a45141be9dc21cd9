import Mathlib.Tactic.Ring
import PenRover.Disk

/-!
# Files as texts

What is read from a file holds no surrogate, since strict UTF-8 has none (`plain_of_readText`).  A
text that holds nothing but ASCII, and no carriage return, comes back from a file as it was written
(`decode_encode_of_ascii` and `unifyLines_of_notMem`).
-/

namespace PenRover

/-- The text has no surrogates. -/
def Text.Plain (t : Text) : Prop := ∀ c ∈ t, c.isSurrogate = false

/-- A text is plain when its first code point is no surrogate and the rest is plain. -/
lemma Text.plain_cons {c : CodePoint} {t : Text} :
    Text.Plain (c :: t) ↔ c.isSurrogate = false ∧ Text.Plain t := List.forall_mem_cons

/-- The surrogates are the code points from `0xD800` to `0xDFFF`. -/
lemma CodePoint.isSurrogate_eq_false_iff {c : CodePoint} :
    c.isSurrogate = false ↔ c.val < 0xD800 ∨ 0xDFFF < c.val := by
  simp only [isSurrogate, Bool.and_eq_false_iff, decide_eq_false_iff_not, not_le]

/-- Characters are no surrogates. -/
lemma Text.plain_ofString (s : String) : (Text.ofString s).Plain := by
  intro c hc
  obtain ⟨d, -, rfl⟩ := List.mem_map.mp hc
  have hvalid : d.toNat < 0xD800 ∨ 0xDFFF < d.toNat ∧ d.toNat < 0x110000 := d.valid
  rw [CodePoint.isSurrogate_eq_false_iff, CodePoint.ofChar, CodePoint.val_ofNat (by omega)]
  omega

namespace Utf8

/-! ### Strict decoding -/

/-- One continuation byte. -/
lemma follow_succ_eq_ok {count low high acc n : Nat} {bytes : Bytes}
    (h : follow (count + 1) low high acc bytes = .ok n) :
    ∃ b rest, bytes = b :: rest ∧ low ≤ b.toNat ∧ b.toNat ≤ high ∧
      follow count 0x80 0xBF (acc * 0x40 + b.toNat % 0x40) rest = .ok n := by
  cases bytes with
  | nil => simp [follow] at h
  | cons b rest =>
    rw [follow] at h
    split at h
    next hrange =>
      split at h
      next m hm =>
        obtain rfl := Except.ok.inj h
        exact ⟨b, rest, rfl, hrange.1, hrange.2, hm⟩
      · exact nomatch h
    · exact nomatch h

/-- The number of a code point with continuation bytes grows by six bits with each. -/
lemma follow_bounds {count low high acc n : Nat} {bytes : Bytes}
    (h : follow count low high acc bytes = .ok n) :
    acc * 0x40 ^ count ≤ n ∧ n < (acc + 1) * 0x40 ^ count := by
  induction count generalizing low high acc bytes with
  | zero =>
    obtain rfl : acc = n := by simpa [follow] using h
    omega
  | succ count ih =>
    obtain ⟨b, rest, -, -, -, hrest⟩ := follow_succ_eq_ok h
    obtain ⟨hlow, hhigh⟩ := ih hrest
    have hdigit : b.toNat % 0x40 < 0x40 := Nat.mod_lt _ (by decide)
    constructor
    · calc acc * 0x40 ^ (count + 1) = acc * 0x40 * 0x40 ^ count := by ring
        _ ≤ (acc * 0x40 + b.toNat % 0x40) * 0x40 ^ count := Nat.mul_le_mul_right _ (by omega)
        _ ≤ n := hlow
    · calc n < (acc * 0x40 + b.toNat % 0x40 + 1) * 0x40 ^ count := hhigh
        _ ≤ (acc + 1) * 0x40 * 0x40 ^ count := Nat.mul_le_mul_right _ (by omega)
        _ = (acc + 1) * 0x40 ^ (count + 1) := by ring

/-- Strict decoding gives no surrogate: what follows the byte `0xED` is below them. -/
lemma first_eq_ok {lead n count : Nat} {rest : Bytes}
    (h : first false lead rest = .ok (n, count)) : n < 0xD800 ∨ 0xDFFF < n := by
  unfold first at h
  split at h
  · exact nomatch h
  next more low high hcontinuation =>
    split at h
    next m hfollow =>
      obtain ⟨rfl, -⟩ := Prod.mk.inj (Except.ok.inj h)
      unfold continuation at hcontinuation
      have hbounds := follow_bounds hfollow
      by_cases hed : lead = 0xED
      · -- only the range of the first byte behind keeps the surrogates out
        subst hed
        obtain ⟨rfl, rfl, rfl⟩ : 2 = more ∧ 0x80 = low ∧ 0x9F = high := by
          simpa using hcontinuation
        obtain ⟨b, later, -, hlow, hhigh, hlater⟩ := follow_succ_eq_ok hfollow
        have hnext := (follow_bounds hlater).2
        simp only [leadBits] at hnext
        omega
      · split_ifs at hcontinuation <;>
          simp only [Option.some.injEq, Prod.mk.injEq] at hcontinuation <;>
          obtain ⟨rfl, rfl, rfl⟩ := hcontinuation <;> simp only [leadBits] at hbounds hfollow
        all_goals first
          | omega
          | obtain ⟨b, later, -, hlow, hhigh, hlater⟩ := follow_succ_eq_ok hfollow
            have hnext := follow_bounds hlater
            omega
    · simp at h

/-- A text that is decoded strictly is plain. -/
lemma plain_of_decodeFrom {fuel position : Nat} {bytes : Bytes} {t : Text}
    (h : decodeFrom false fuel position bytes = .ok t) : t.Plain := by
  induction fuel generalizing position bytes t with
  | zero =>
    obtain rfl : [] = t := by simpa [decodeFrom] using h
    exact nofun
  | succ fuel ih =>
    cases bytes with
    | nil =>
      obtain rfl : [] = t := by simpa [decodeFrom] using h
      exact nofun
    | cons b rest =>
      rw [decodeFrom] at h
      split at h
      · exact nomatch h
      next n count hfirst =>
        cases hmore : decodeFrom false fuel (position + count) (rest.drop (count - 1)) with
        | error error =>
          rw [hmore] at h
          exact nomatch h
        | ok more =>
          rw [hmore] at h
          obtain rfl : CodePoint.ofNat n :: more = t := Except.ok.inj h
          refine Text.plain_cons.mpr ⟨?_, ih hmore⟩
          rw [CodePoint.isSurrogate_eq_false_iff, CodePoint.ofNat]
          split
          · exact first_eq_ok hfirst
          · exact .inr (by decide)

/-! ### ASCII -/

/-- ASCII text is encoded with one byte for each code point. -/
lemma encode_of_ascii {t : Text} (h : ∀ c ∈ t, c.val < 0x80) :
    encode t = t.map fun c => UInt8.ofNat c.val := by
  induction t with
  | nil => rfl
  | cons c rest ih =>
    obtain ⟨hc, hrest⟩ := List.forall_mem_cons.mp h
    have hpoint : encodePoint c = [UInt8.ofNat c.val] := by simp [encodePoint, hc]
    rw [encode, List.flatMap_cons, hpoint, ← encode, ih hrest]
    rfl

/-- An ASCII byte is one code point. -/
lemma first_of_ascii (surrogates : Bool) {lead : Nat} (h : lead < 0x80) (rest : Bytes) :
    first surrogates lead rest = .ok (lead, 1) := by
  simp [first, continuation, h, follow, leadBits]

/-- ASCII text is decoded from its bytes. -/
lemma decodeFrom_of_ascii (surrogates : Bool) {t : Text} (h : ∀ c ∈ t, c.val < 0x80)
    (position : Nat) :
    decodeFrom surrogates t.length position (t.map fun c => UInt8.ofNat c.val) = .ok t := by
  induction t generalizing position with
  | nil => rfl
  | cons c rest ih =>
    obtain ⟨hc, hrest⟩ := List.forall_mem_cons.mp h
    have hbyte : (UInt8.ofNat c.val).toNat = c.val := by
      rw [UInt8.toNat_ofNat']
      exact Nat.mod_eq_of_lt (by omega)
    have hpoint : CodePoint.ofNat c.val = c := by
      cases c
      simp [CodePoint.ofNat, *]
    rw [List.length_cons, List.map_cons, decodeFrom, hbyte, first_of_ascii surrogates hc]
    dsimp only
    rw [List.drop_zero, ih hrest, hpoint]
    rfl

/-- A text of ASCII comes back. -/
lemma decode_encode_of_ascii (surrogates : Bool) {t : Text} (h : ∀ c ∈ t, c.val < 0x80) :
    decode surrogates (encode t) = .ok t := by
  rw [encode_of_ascii h, decode, List.length_map]
  exact decodeFrom_of_ascii surrogates h 0

end Utf8

/-! ### Line endings -/

namespace Text

/-- Unifying line ends makes no surrogates. -/
lemma plain_unifyLines {t : Text} (h : t.Plain) : t.unifyLines.Plain := by
  have hfeed : (CodePoint.ofChar '\n').isSurrogate = false := by decide
  induction t using unifyLines.induct with
  | case1 => exact h
  | case2 => exact plain_cons.mpr ⟨hfeed, nofun⟩
  | case3 c hc =>
    rw [unifyLines, if_neg hc]
    exact h
  | case4 rest ih =>
    rw [unifyLines, if_pos rfl, if_pos rfl]
    exact plain_cons.mpr ⟨hfeed, ih (plain_cons.mp (plain_cons.mp h).2).2⟩
  | case5 d rest hd ih =>
    rw [unifyLines, if_pos rfl, if_neg hd]
    exact plain_cons.mpr ⟨hfeed, ih (plain_cons.mp h).2⟩
  | case6 c d rest hc ih =>
    rw [unifyLines, if_neg hc]
    exact plain_cons.mpr ⟨(plain_cons.mp h).1, ih (plain_cons.mp h).2⟩

/-- There are no line ends to unify where there is no carriage return. -/
lemma unifyLines_of_notMem {t : Text} (h : CodePoint.ofChar '\r' ∉ t) : t.unifyLines = t := by
  induction t using unifyLines.induct with
  | case1 => rfl
  | case2 => exact absurd List.mem_cons_self h
  | case3 c hc => rw [unifyLines, if_neg hc]
  | case4 => exact absurd List.mem_cons_self h
  | case5 => exact absurd List.mem_cons_self h
  | case6 c d rest hc ih =>
    rw [unifyLines, if_neg hc, ih fun hmem => h (List.mem_cons_of_mem _ hmem)]

end Text

/-- A file that can be read holds no surrogate. -/
lemma Disk.plain_of_readText {disk : Disk} {name t : Text} (h : disk.readText name = .ok t) :
    t.Plain := by
  unfold Disk.readText at h
  split at h
  · exact nomatch h
  next bytes hbytes =>
    split at h
    · exact nomatch h
    next text hdecode =>
      obtain rfl := Except.ok.inj h
      exact Text.plain_unifyLines (Utf8.plain_of_decodeFrom hdecode)

end PenRover

import Mathlib.Tactic.Common
import PenRover.Text.Blank

/-!
# Lines and words

A text is cut into pieces at a mark, and split into words at its blanks.  Both are said here without
the functions that do it: `CutAt` puts the text together again from its pieces, and `HasWords` from
its words and the blanks around them.  Every text has exactly one list of pieces and exactly one
list of words, and the functions give these (`cutAt_iff` and `hasWords_iff`).
-/

namespace PenRover

namespace Text

/-! ### Pieces -/

/-- The text consists of these pieces, with a mark between each and the next and no mark inside a
piece. -/
structure CutAt (mark : CodePoint) (t : Text) (parts : List Text) : Prop where
  nonempty : parts ≠ []
  joined : join mark parts = t
  unmarked : ∀ part ∈ parts, mark ∉ part

section Pieces

variable {mark : CodePoint}

/-- A text has at least one piece. -/
lemma pieces_ne_nil (t : Text) : pieces mark t ≠ [] := by
  cases t with
  | nil => simp [pieces]
  | cons c rest =>
    rw [pieces]
    split
    · simp
    · split <;> simp

/-- A mark ends a piece. -/
lemma pieces_cons_mark (t : Text) : pieces mark (mark :: t) = [] :: pieces mark t := by
  have hne : pieces mark t ≠ [] := pieces_ne_nil t
  obtain ⟨piece, more, hpieces⟩ := List.exists_cons_of_ne_nil hne
  rw [pieces, hpieces]
  simp

/-- A code point that is no mark belongs to the first piece. -/
lemma pieces_cons_of_ne {c : CodePoint} (hc : c ≠ mark) (t : Text) :
    ∃ piece more, pieces mark t = piece :: more ∧ pieces mark (c :: t) = (c :: piece) :: more := by
  have hne : pieces mark t ≠ [] := pieces_ne_nil t
  obtain ⟨piece, more, hpieces⟩ := List.exists_cons_of_ne_nil hne
  refine ⟨piece, more, hpieces, ?_⟩
  rw [pieces, hpieces]
  simp [hc]

/-- A part, a mark, and the parts after it. -/
lemma join_cons_of_ne_nil (part : Text) {parts : List Text} (h : parts ≠ []) :
    join mark (part :: parts) = part ++ mark :: join mark parts := by
  cases parts with
  | nil => exact absurd rfl h
  | cons => rfl

/-- The pieces of a text make the text again. -/
lemma join_pieces (t : Text) : join mark (pieces mark t) = t := by
  induction t with
  | nil => rfl
  | cons c rest ih =>
    by_cases hc : c = mark
    · subst hc
      rw [pieces_cons_mark, join_cons_of_ne_nil [] (pieces_ne_nil rest), ih, List.nil_append]
    · obtain ⟨piece, more, hrest, hpieces⟩ := pieces_cons_of_ne hc rest
      rw [hrest] at ih
      rw [hpieces, ← ih]
      cases more <;> rfl

/-- There is no mark inside a piece. -/
lemma mark_notMem_of_mem_pieces (t : Text) : ∀ part ∈ pieces mark t, mark ∉ part := by
  induction t with
  | nil => simp [pieces]
  | cons c rest ih =>
    by_cases hc : c = mark
    · subst hc
      rw [pieces_cons_mark]
      intro part hpart
      rcases List.mem_cons.mp hpart with rfl | hpart
      · exact List.not_mem_nil
      · exact ih part hpart
    · obtain ⟨piece, more, hrest, hpieces⟩ := pieces_cons_of_ne hc rest
      rw [hrest] at ih
      rw [hpieces]
      intro part hpart
      rcases List.mem_cons.mp hpart with rfl | hpart
      · have hpiece : mark ∉ piece := ih piece List.mem_cons_self
        simp [hpiece, Ne.symm hc]
      · exact ih part (List.mem_cons_of_mem _ hpart)

/-- A text without marks is one piece. -/
lemma pieces_of_notMem {part : Text} (h : mark ∉ part) : pieces mark part = [part] := by
  induction part with
  | nil => rfl
  | cons c rest ih =>
    have hc : c ≠ mark := fun heq => h (heq ▸ List.mem_cons_self)
    have hrest : mark ∉ rest := fun hmem => h (List.mem_cons_of_mem _ hmem)
    obtain ⟨piece, more, heq, hpieces⟩ := pieces_cons_of_ne hc rest
    rw [ih hrest] at heq
    obtain ⟨rfl, rfl⟩ := List.cons.inj heq
    exact hpieces

/-- A piece ends at the first mark. -/
lemma pieces_append_mark {part : Text} (h : mark ∉ part) (t : Text) :
    pieces mark (part ++ mark :: t) = part :: pieces mark t := by
  induction part with
  | nil => exact pieces_cons_mark t
  | cons c rest ih =>
    have hc : c ≠ mark := fun heq => h (heq ▸ List.mem_cons_self)
    have hrest : mark ∉ rest := fun hmem => h (List.mem_cons_of_mem _ hmem)
    obtain ⟨piece, more, heq, hpieces⟩ := pieces_cons_of_ne hc (rest ++ mark :: t)
    rw [ih hrest] at heq
    obtain ⟨rfl, rfl⟩ := List.cons.inj heq
    exact hpieces

/-- Parts without marks are the pieces of the text that they make. -/
lemma pieces_join {parts : List Text} (hne : parts ≠ []) (h : ∀ part ∈ parts, mark ∉ part) :
    pieces mark (join mark parts) = parts := by
  induction parts with
  | nil => exact absurd rfl hne
  | cons part rest ih =>
    have hpart : mark ∉ part := h part List.mem_cons_self
    rcases eq_or_ne rest [] with rfl | hrest
    · exact pieces_of_notMem hpart
    · rw [join_cons_of_ne_nil part hrest, pieces_append_mark hpart,
        ih hrest fun other hother => h other (List.mem_cons_of_mem _ hother)]

/-- A text is cut into its pieces, and in no other way. -/
lemma cutAt_iff {t : Text} {parts : List Text} : t.CutAt mark parts ↔ parts = pieces mark t := by
  constructor
  · rintro ⟨hne, rfl, hunmarked⟩
    exact (pieces_join hne hunmarked).symm
  · rintro rfl
    exact ⟨pieces_ne_nil t, join_pieces t, mark_notMem_of_mem_pieces t⟩

end Pieces

/-! ### Words -/

/-- The text begins with a blank, or there is nothing of it. -/
def StartsBlank (t : Text) : Prop := ∀ c ∈ t.head?, c.isBlank = true

/-- The text consists of these words and of blanks, at least one between each word and the next. -/
inductive HasWords : Text → List Text → Prop
  | nil : HasWords [] []
  | blank {c : CodePoint} {t : Text} {ws : List Text} (hc : c.isBlank = true)
    (h : HasWords t ws) : HasWords (c :: t) ws
  | word {w t : Text} {ws : List Text} (hne : w ≠ []) (hw : ∀ c ∈ w, c.isBlank = false)
    (ht : t.StartsBlank) (h : HasWords t ws) : HasWords (w ++ t) (w :: ws)

/-- A blank at the front adds no word. -/
lemma words_cons_of_blank {c : CodePoint} (hc : c.isBlank = true) (t : Text) :
    words (c :: t) = words t := by
  rw [words.eq_def]
  exact if_pos hc

/-- A text begins with a blank when its first code point is one. -/
lemma startsBlank_cons {c : CodePoint} {t : Text} :
    StartsBlank (c :: t) ↔ c.isBlank = true := by
  simp [StartsBlank]

/-- A code point that is no blank is a word of its own when a blank follows it, and otherwise
belongs to the first word of what follows. -/
lemma words_cons_of_not_blank {c : CodePoint} (hc : c.isBlank = false) (t : Text) :
    (t.StartsBlank → words (c :: t) = [c] :: words t) ∧
      ∀ word more, ¬ t.StartsBlank → words t = word :: more →
        words (c :: t) = (c :: word) :: more := by
  cases t with
  | nil =>
    refine ⟨fun _ => by simp [words, hc], ?_⟩
    intro word more hstart
    exact absurd (by simp [StartsBlank]) hstart
  | cons d rest =>
    rw [words, if_neg (by simp [hc])]
    constructor
    · intro hstart
      rw [startsBlank_cons] at hstart
      simp [hstart]
    · intro word more hstart hwords
      rw [startsBlank_cons] at hstart
      simp [hstart, hwords]

/-- A word ends at the first blank. -/
lemma words_append {w : Text} (hne : w ≠ []) (hw : ∀ c ∈ w, c.isBlank = false) {t : Text}
    (ht : t.StartsBlank) : words (w ++ t) = w :: words t := by
  induction w with
  | nil => exact absurd rfl hne
  | cons c rest ih =>
    have hc : c.isBlank = false := hw c List.mem_cons_self
    rcases rest with _ | ⟨d, rest⟩
    · exact (words_cons_of_not_blank hc t).1 ht
    · have hrest : ∀ c ∈ d :: rest, c.isBlank = false := fun c hmem =>
        hw c (List.mem_cons_of_mem _ hmem)
      have hstart : ¬ StartsBlank (d :: rest ++ t) := by
        rw [List.cons_append, startsBlank_cons, hrest d List.mem_cons_self]
        exact Bool.false_ne_true
      exact (words_cons_of_not_blank hc (d :: rest ++ t)).2 _ _ hstart
        (ih (List.cons_ne_nil d rest) hrest)

/-- A code point that is no blank, in front of words of which the first one stands at the
beginning. -/
lemma HasWords.cons_of_not_blank {t : Text} {ws : List Text} (h : HasWords t ws)
    (ht : ¬ t.StartsBlank) {c : CodePoint} (hc : c.isBlank = false) :
    ∃ word more, ws = word :: more ∧ HasWords (c :: t) ((c :: word) :: more) := by
  cases h with
  | nil => exact absurd (by simp [StartsBlank]) ht
  | blank hblank => exact absurd (startsBlank_cons.mpr hblank) ht
  | @word w t ws hne hw hstart h =>
    refine ⟨w, ws, rfl, ?_⟩
    rw [← List.cons_append]
    refine .word (List.cons_ne_nil c w) ?_ hstart h
    intro d hd
    rcases List.mem_cons.mp hd with rfl | hd
    · exact hc
    · exact hw d hd

/-- A text consists of its words. -/
lemma hasWords_words (t : Text) : t.HasWords t.words := by
  induction t with
  | nil => exact .nil
  | cons c rest ih =>
    cases hc : c.isBlank with
    | true =>
      rw [words_cons_of_blank hc]
      exact .blank hc ih
    | false =>
      by_cases hrest : StartsBlank rest
      · rw [(words_cons_of_not_blank hc rest).1 hrest]
        exact .word (List.cons_ne_nil c []) (by simp [hc]) hrest ih
      · obtain ⟨word, more, hwords, h⟩ := ih.cons_of_not_blank hrest hc
        rwa [(words_cons_of_not_blank hc rest).2 word more hrest hwords]

/-- A text has its words, and no others. -/
lemma hasWords_iff {t : Text} {ws : List Text} : t.HasWords ws ↔ ws = t.words := by
  constructor
  · intro h
    induction h with
    | nil => rfl
    | blank hc h ih => rw [words_cons_of_blank hc, ih]
    | word hne hw ht h ih => rw [words_append hne hw ht, ih]
  · rintro rfl
    exact hasWords_words t

end Text

end PenRover

import PenRover.Disk
import PenRover.Proofs.Drawing.Grammar

/-!
# Line endings of drawing files

Lines of a drawing end at line feeds, and a carriage return is a blank like others.  A text file,
however, is read with every line ending unified: a carriage return ends a line as well, alone or
together with a line feed behind it.

Where carriage returns stand only before line feeds (`Text.Paired`), both ways give the same lines
but for blanks at their ends, and so the same drawing or the same error (`read_unifyLines`).  A
carriage return elsewhere makes one more line out of the same words.  Since every instruction has
three words, the drawing cannot then be read both ways (`not_both_of_stray`).  A drawing that is
read as it stands is then rejected for a bad line once its line endings are unified
(`badLine_of_stray`): no word of it is a numeral that is too long (`length_le_of_read`).
-/

namespace PenRover

namespace Text

/-- Every carriage return stands right before a line feed. -/
def Paired : Text → Prop
  | [] => True
  | c :: rest =>
    (c = CodePoint.ofChar '\r' → rest.head? = some (CodePoint.ofChar '\n')) ∧ Paired rest

/-- Whether carriage returns stand before line feeds can be decided. -/
instance decidablePaired : (t : Text) → Decidable t.Paired
  | [] => inferInstanceAs (Decidable True)
  | c :: rest =>
    have := decidablePaired rest
    inferInstanceAs (Decidable
      ((c = CodePoint.ofChar '\r' → rest.head? = some (CodePoint.ofChar '\n')) ∧ Paired rest))

/-! ### Words side by side -/

/-- The words of two texts, of which the second begins with a blank, are those of both. -/
lemma HasWords.append {t u : Text} {ws us : List Text} (h : t.HasWords ws) (hu : u.HasWords us)
    (hstart : u.StartsBlank) : (t ++ u).HasWords (ws ++ us) := by
  induction h with
  | nil => exact hu
  | blank hc h ih => exact .blank hc ih
  | @word w t ws hne hw ht h ih =>
    rw [List.append_assoc, List.cons_append]
    refine .word hne hw ?_ ih
    cases t with
    | nil => exact hstart
    | cons c t => exact ht

/-- A text behind which a blank follows keeps its words. -/
lemma words_append_of_startsBlank (t : Text) {u : Text} (hstart : u.StartsBlank) :
    words (t ++ u) = t.words ++ u.words :=
  (hasWords_iff.mp ((hasWords_words t).append (hasWords_words u) hstart)).symm

/-- A blank at the end adds no word. -/
lemma words_append_blank (t : Text) {c : CodePoint} (hc : c.isBlank = true) :
    words (t ++ [c]) = t.words := by
  rw [words_append_of_startsBlank t (startsBlank_cons.mpr hc), words_cons_of_blank hc]
  exact List.append_nil _

/-- The words of a text are those of its pieces, if it is cut at a blank. -/
lemma flatMap_words_pieces {mark : CodePoint} (hmark : mark.isBlank = true) (t : Text) :
    (pieces mark t).flatMap words = t.words := by
  have hjoined : ∀ parts : List Text, parts ≠ [] →
      parts.flatMap words = (join mark parts).words := by
    intro parts hparts
    induction parts with
    | nil => exact absurd rfl hparts
    | cons part parts ih =>
      rcases eq_or_ne parts [] with rfl | hrest
      · exact List.append_nil _
      · rw [join_cons_of_ne_nil part hrest,
          words_append_of_startsBlank _ (startsBlank_cons.mpr hmark),
          words_cons_of_blank hmark, ← ih hrest, List.flatMap_cons]
  rw [hjoined _ (pieces_ne_nil t), join_pieces]

/-- A text has one piece more than marks. -/
lemma length_pieces (mark : CodePoint) (t : Text) :
    (pieces mark t).length = t.count mark + 1 := by
  induction t with
  | nil => rfl
  | cons c rest ih =>
    by_cases hc : c = mark
    · subst hc
      rw [pieces_cons_mark, List.length_cons, ih, List.count_cons_self]
    · obtain ⟨piece, more, hrest, hpieces⟩ := pieces_cons_of_ne hc rest
      rw [hrest] at ih
      rw [hpieces, List.count_cons_of_ne hc, ← ih, List.length_cons, List.length_cons]

/-! ### Unified line endings -/

/-- A line feed is a blank. -/
lemma isBlank_feed : (CodePoint.ofChar '\n').isBlank = true := by decide

/-- A carriage return is a blank. -/
lemma isBlank_return : (CodePoint.ofChar '\r').isBlank = true := by decide

/-- Unifying line endings keeps the words. -/
lemma words_unifyLines (t : Text) :
    t.unifyLines.words = t.words ∧ (t.unifyLines.StartsBlank ↔ t.StartsBlank) := by
  have hfeed (u : Text) : StartsBlank (CodePoint.ofChar '\n' :: u) :=
    startsBlank_cons.mpr isBlank_feed
  have hreturn (u : Text) : StartsBlank (CodePoint.ofChar '\r' :: u) :=
    startsBlank_cons.mpr isBlank_return
  induction t using unifyLines.induct with
  | case1 => exact ⟨rfl, Iff.rfl⟩
  | case2 => exact ⟨rfl, iff_of_true (hfeed _) (hreturn _)⟩
  | case3 c hc =>
    rw [unifyLines, if_neg hc]
    exact ⟨rfl, Iff.rfl⟩
  | case4 rest ih =>
    rw [unifyLines, if_pos rfl, if_pos rfl, words_cons_of_blank isBlank_feed,
      words_cons_of_blank isBlank_return, words_cons_of_blank isBlank_feed]
    exact ⟨ih.1, iff_of_true (hfeed _) (hreturn _)⟩
  | case5 d rest hd ih =>
    rw [unifyLines, if_pos rfl, if_neg hd, words_cons_of_blank isBlank_feed,
      words_cons_of_blank isBlank_return]
    exact ⟨ih.1, iff_of_true (hfeed _) (hreturn _)⟩
  | case6 c d rest hc ih =>
    rw [unifyLines, if_neg hc]
    refine ⟨?_, by rw [startsBlank_cons, startsBlank_cons]⟩
    cases hblank : c.isBlank with
    | true => rw [words_cons_of_blank hblank, words_cons_of_blank hblank, ih.1]
    | false =>
      by_cases hstart : StartsBlank (d :: rest)
      · rw [(words_cons_of_not_blank hblank _).1 hstart,
          (words_cons_of_not_blank hblank _).1 (ih.2.mpr hstart), ih.1]
      · obtain ⟨word, more, hwords, -⟩ :=
          (hasWords_words (d :: rest)).cons_of_not_blank hstart hblank
        rw [(words_cons_of_not_blank hblank _).2 word more hstart hwords,
          (words_cons_of_not_blank hblank _).2 word more (fun h => hstart (ih.2.mp h))
            (ih.1.trans hwords)]

/-- Where carriage returns stand only before line feeds, the lines lose those at their ends and stay
as they are otherwise. -/
lemma pieces_unifyLines {t : Text} (h : t.Paired) :
    List.Forall₂ (fun unified line => line = unified ∨ line = unified ++ [CodePoint.ofChar '\r'])
      (pieces (CodePoint.ofChar '\n') t.unifyLines) (pieces (CodePoint.ofChar '\n') t) := by
  have hne : CodePoint.ofChar '\r' ≠ CodePoint.ofChar '\n' := by decide
  induction t using unifyLines.induct with
  | case1 => exact .cons (.inl rfl) .nil
  | case2 => exact nomatch h.1 rfl
  | case3 c hc =>
    rw [unifyLines, if_neg hc]
    exact List.forall₂_same.mpr fun _ _ => .inl rfl
  | case4 rest ih =>
    rw [unifyLines, if_pos rfl, if_pos rfl, pieces_cons_mark]
    obtain ⟨piece, more, hrest, hpieces⟩ :=
      pieces_cons_of_ne hne (CodePoint.ofChar '\n' :: rest)
    rw [pieces_cons_mark] at hrest
    obtain ⟨rfl, rfl⟩ := List.cons.inj hrest
    rw [hpieces]
    exact .cons (.inr rfl) (ih h.2.2)
  | case5 d rest hd ih => exact absurd (Option.some.inj (h.1 rfl)) hd
  | case6 c d rest hc ih =>
    have hlines := ih h.2
    rw [unifyLines, if_neg hc]
    by_cases hfeed : c = CodePoint.ofChar '\n'
    · subst hfeed
      rw [pieces_cons_mark, pieces_cons_mark]
      exact .cons (.inl rfl) hlines
    · obtain ⟨first, more, hunified, hcons⟩ := pieces_cons_of_ne hfeed (unifyLines (d :: rest))
      obtain ⟨second, others, hlines', hcons'⟩ := pieces_cons_of_ne hfeed (d :: rest)
      rw [hunified, hlines'] at hlines
      obtain ⟨hline, hmore⟩ := List.forall₂_cons.mp hlines
      rw [hcons, hcons']
      refine .cons (hline.imp (fun heq => by rw [heq]) fun heq => ?_) hmore
      rw [heq, List.cons_append]

/-- A carriage return that does not stand before a line feed makes one more line. -/
lemma count_unifyLines (t : Text) :
    t.count (CodePoint.ofChar '\n') ≤ t.unifyLines.count (CodePoint.ofChar '\n') ∧
      (¬ t.Paired →
        t.count (CodePoint.ofChar '\n') < t.unifyLines.count (CodePoint.ofChar '\n')) := by
  have hne : CodePoint.ofChar '\r' ≠ CodePoint.ofChar '\n' := by decide
  induction t using unifyLines.induct with
  | case1 => exact ⟨le_rfl, absurd trivial⟩
  | case2 => exact ⟨by decide, fun _ => by decide⟩
  | case3 c hc =>
    rw [unifyLines, if_neg hc]
    exact ⟨le_rfl, fun h => absurd ⟨fun heq => absurd heq hc, trivial⟩ h⟩
  | case4 rest ih =>
    rw [unifyLines, if_pos rfl, if_pos rfl, List.count_cons_self, List.count_cons_of_ne hne,
      List.count_cons_self]
    refine ⟨Nat.succ_le_succ ih.1, fun h => Nat.succ_lt_succ (ih.2 fun hrest => h ?_)⟩
    exact ⟨fun _ => rfl, fun heq => absurd heq.symm hne, hrest⟩
  | case5 d rest hd ih =>
    rw [unifyLines, if_pos rfl, if_neg hd, List.count_cons_self, List.count_cons_of_ne hne]
    exact ⟨Nat.le_succ_of_le ih.1, fun _ => Nat.lt_succ_of_le ih.1⟩
  | case6 c d rest hc ih =>
    rw [unifyLines, if_neg hc]
    have hstray (h : ¬ Paired (c :: d :: rest)) : ¬ Paired (d :: rest) := fun hrest =>
      h ⟨fun heq => absurd heq hc, hrest⟩
    rw [List.count_cons, List.count_cons (l := unifyLines (d :: rest))]
    exact ⟨Nat.add_le_add_right ih.1 _, fun h => Nat.add_lt_add_right (ih.2 (hstray h)) _⟩

end Text

namespace Drawing

/-! ### Drawings -/

/-- A line is read as its words. -/
lemma readLine_congr {line other : Text} (h : line.words = other.words) (number : Int) :
    readLine line number = readLine other number := by
  simp only [readLine, h]

/-- Lines are read as their words. -/
lemma readLinesFrom_congr {lines others : List Text}
    (h : List.Forall₂ (fun line other => line.words = other.words) lines others) (number : Nat) :
    readLinesFrom number lines = readLinesFrom number others := by
  induction h generalizing number with
  | nil => rfl
  | cons hline h ih => rw [readLinesFrom, readLinesFrom, readLine_congr hline, ih]

/-- Where carriage returns stand only before line feeds, it does not matter whether line endings are
unified first. -/
lemma read_unifyLines {t : Text} (h : t.Paired) : read t.unifyLines = read t := by
  refine readLinesFrom_congr ((Text.pieces_unifyLines h).imp fun unified line hline => ?_) 1
  rcases hline with rfl | rfl
  · rfl
  · exact (Text.words_append_blank unified Text.isBlank_return).symm

/-- A drawing that is read has three words a line. -/
lemma length_words_of_read {t : Text} {commands : List Command} (h : read t = .ok commands) :
    t.words.length = 3 * (t.count (CodePoint.ofChar '\n') + 1) := by
  have hthree : ∀ (lines : List Text) (commands : List Command),
      List.Forall₂ Instruction lines commands →
      (lines.flatMap Text.words).length = 3 * lines.length := by
    intro lines commands hlines
    induction hlines with
    | nil => rfl
    | cons hline hlines ih =>
      obtain ⟨keyword, first, second, x, y, hwords, -⟩ := instruction_iff.mp hline
      rw [List.flatMap_cons, List.length_append, ih, hwords, List.length_cons]
      simp only [List.length_cons, List.length_nil]
      omega
  rw [← Text.length_pieces, ← hthree _ _ (readLinesFrom_eq_ok_iff.mp h),
    Text.flatMap_words_pieces Text.isBlank_feed]

/-- A drawing with a stray carriage return is not read both with line endings unified and
without. -/
lemma not_both_of_stray {t : Text} (h : ¬ t.Paired) {commands others : List Command}
    (hunified : read t.unifyLines = .ok commands) : read t ≠ .ok others := by
  intro hread
  have hwords := length_words_of_read hunified
  have hcount := (Text.count_unifyLines t).2 h
  rw [(Text.words_unifyLines t).1, length_words_of_read hread] at hwords
  omega

/-- No word of a drawing that is read is a numeral that is too long: the third word of a line is no
numeral at all. -/
lemma length_le_of_read {t : Text} {commands : List Command} (h : read t = .ok commands)
    {word : Text}
    (hword : word ∈ t.words) {negative : Bool} {ds : List Nat}
    (hnumeral : word.Numeral negative ds) :
    ds.length ≤ 4300 := by
  have hdenotes {x : Int} (hx : word.Denotes x) : ds.length ≤ 4300 := by
    obtain ⟨other, digits, hother, hshort, -⟩ := hx
    have hsame := (Text.numeral?_eq_some_iff.mpr hother).symm.trans
      (Text.numeral?_eq_some_iff.mpr hnumeral)
    obtain ⟨-, rfl⟩ := Prod.mk.inj (Option.some.inj hsame)
    exact hshort
  rw [← Text.flatMap_words_pieces Text.isBlank_feed, List.mem_flatMap] at hword
  obtain ⟨line, hline, hword⟩ := hword
  obtain ⟨i, rfl⟩ := List.get_of_mem hline
  have hlines := readLinesFrom_eq_ok_iff.mp h
  have hcommand := hlines.get i.2 (hlines.length_eq ▸ i.2)
  obtain ⟨keyword, first, second, x, y, hwords, hx, hy, -⟩ := instruction_iff.mp hcommand
  rw [hwords, List.mem_cons, List.mem_cons, List.mem_singleton] at hword
  rcases hword with rfl | rfl | rfl
  · exact hdenotes hx
  · exact hdenotes hy
  · have hnone : (Text.ofString keyword.spelling).numeral? = none := by
      cases keyword <;> decide
    rw [Text.numeral?_eq_some_iff.mpr hnumeral] at hnone
    exact nomatch hnone

/-- A drawing with a stray carriage return that is read as it stands has a bad line once its line
endings are unified. -/
lemma badLine_of_stray {t : Text} (h : ¬ t.Paired) {commands : List Command}
    (hread : read t = .ok commands) :
    ∃ fault line, read t.unifyLines = .error (.badLine fault line) := by
  cases hunified : read t.unifyLines with
  | ok others => exact absurd hread (not_both_of_stray h hunified)
  | error error =>
    obtain ⟨before, line, after, hlines, -, hrejection⟩ := readLinesFrom_eq_error_iff.mp hunified
    have hmem {word : Text} (hword : word ∈ line.words) : word ∈ t.words := by
      rw [← (Text.words_unifyLines t).1, ← Text.flatMap_words_pieces Text.isBlank_feed, hlines]
      exact List.mem_flatMap.mpr ⟨line, List.mem_append_right before List.mem_cons_self, hword⟩
    cases hrejection with
    | malformed => exact ⟨_, _, rfl⟩
    | unknownCommand => exact ⟨_, _, rfl⟩
    | invalidNumber => exact ⟨_, _, rfl⟩
    | firstTooLong hasks hfirst _ hlong =>
      obtain ⟨keyword, hwords⟩ := asks_iff.mp hasks
      have hshort := length_le_of_read hread (hmem (by simp [hwords])) hfirst
      omega
    | secondTooLong hasks _ hsecond _ hlong =>
      obtain ⟨keyword, hwords⟩ := asks_iff.mp hasks
      have hshort := length_le_of_read hread (hmem (by simp [hwords])) hsecond
      omega

end Drawing

end PenRover

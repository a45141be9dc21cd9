import Mathlib.Data.List.Forall2
import PenRover.Drawing.Instructions
import PenRover.Proofs.Text.Numerals
import PenRover.Proofs.Text.Words

/-!
# The grammar of drawing files

A drawing file is read line by line.  `Instruction` says when a line is an instruction and which
command it gives; `Rejection` says what is wrong with a line that is none.  Every line is one or the
other (`instruction_or_rejection`), and a line is read as these two say.

The reader of files then accepts the files whose lines are all instructions, and answers any other
file with the rejection of the first line that is none (`read_iff_grammar`).  The order of the
checks matters twice: within a line, where a later check is made only when the earlier ones hold,
and over the lines, where nothing behind the first bad line is looked at.
-/

namespace PenRover

namespace Drawing

/-- The words that name commands in a drawing file. -/
def keywords : List Text := ["lineto", "rlineto", "rlinerot"]

/-- The line has these two words and then the name of a command. -/
def Asks (line first second : Text) : Prop := ∃ word ∈ keywords, line.HasWords [first, second, word]

/-- The line is an instruction: two integers and the name of a command. -/
inductive Instruction (line : Text) : Command → Prop
  | lineTo {first second : Text} {x y : Int} (h : line.HasWords [first, second, "lineto"])
    (hx : first.Denotes x) (hy : second.Denotes y) : Instruction line (.lineTo x y)
  | lineBy {first second : Text} {dx dy : Int} (h : line.HasWords [first, second, "rlineto"])
    (hx : first.Denotes dx) (hy : second.Denotes dy) : Instruction line (.lineBy dx dy)
  | lineAt {first second : Text} {angle length : Int}
    (h : line.HasWords [first, second, "rlinerot"]) (hx : first.Denotes angle)
    (hy : second.Denotes length) : Instruction line (.lineAt angle length)

/-- What is wrong with a line that is no instruction; the line has this number. -/
inductive Rejection (line : Text) (number : Nat) : DrawingError → Prop
  | malformed {ws : List Text} (h : line.HasWords ws) (hcount : ws.length ≠ 3) :
    Rejection line number (.badLine .malformed number)
  | unknownCommand {first second word : Text} (h : line.HasWords [first, second, word])
    (hword : word ∉ keywords) : Rejection line number (.badLine .unknownCommand number)
  | invalidNumber {first second : Text} (h : Asks line first second)
    (hform : ¬ ((∃ negative ds, first.Numeral negative ds) ∧
      ∃ negative ds, second.Numeral negative ds)) :
    Rejection line number (.badLine .invalidNumber number)
  | firstTooLong {first second : Text} {s t : Bool} {ds es : List Nat}
    (h : Asks line first second) (hfirst : first.Numeral s ds) (hsecond : second.Numeral t es)
    (hlong : 4300 < ds.length) : Rejection line number (.numeralTooLong ds.length)
  | secondTooLong {first second : Text} {s t : Bool} {ds es : List Nat}
    (h : Asks line first second) (hfirst : first.Numeral s ds) (hsecond : second.Numeral t es)
    (hshort : ds.length ≤ 4300) (hlong : 4300 < es.length) :
    Rejection line number (.numeralTooLong es.length)

/-! ### Keywords -/

/-- A word is a keyword when it is spelled like it. -/
lemma ofText?_eq_some_iff {word : Text} {keyword : Keyword} :
    Keyword.ofText? word = some keyword ↔ word = Text.ofString keyword.spelling := by
  constructor
  · intro h
    have hfound := List.find?_some h
    exact eq_of_beq hfound
  · rintro rfl
    cases keyword <;> decide

/-- A word is no keyword when it is none of their spellings. -/
lemma ofText?_eq_none_iff {word : Text} : Keyword.ofText? word = none ↔ word ∉ keywords := by
  have hkeywords : keywords = Keyword.all.map fun k => Text.ofString k.spelling := rfl
  rw [Keyword.ofText?, List.find?_eq_none, hkeywords, List.mem_map]
  constructor
  · rintro hnone ⟨keyword, hmem, hword⟩
    exact hnone keyword hmem (by simp [hword])
  · intro hnot keyword hmem hword
    exact hnot ⟨keyword, hmem, (eq_of_beq hword).symm⟩

/-- A line asks for a command when it has three words, and the third is a keyword. -/
lemma asks_iff {line first second : Text} :
    Asks line first second ↔
      ∃ keyword, line.words = [first, second, Text.ofString (Keyword.spelling keyword)] := by
  simp only [Asks, Text.hasWords_iff, eq_comm (b := line.words)]
  constructor
  · rintro ⟨word, hword, hwords⟩
    cases hkeyword : Keyword.ofText? word with
    | none => exact absurd hword (ofText?_eq_none_iff.mp hkeyword)
    | some keyword => exact ⟨keyword, by rw [hwords, ofText?_eq_some_iff.mp hkeyword]⟩
  · rintro ⟨keyword, hwords⟩
    refine ⟨_, ?_, hwords⟩
    cases keyword <;> decide

/-- The three kinds of instructions differ in the keyword only. -/
lemma instruction_iff {line : Text} {command : Command} :
    Instruction line command ↔ ∃ keyword first second x y,
      line.words = [first, second, Text.ofString (Keyword.spelling keyword)] ∧ first.Denotes x ∧
        second.Denotes y ∧ command = keyword.command x y := by
  constructor
  · rintro (⟨h, hx, hy⟩ | ⟨h, hx, hy⟩ | ⟨h, hx, hy⟩)
    · exact ⟨.lineTo, _, _, _, _, (Text.hasWords_iff.mp h).symm, hx, hy, rfl⟩
    · exact ⟨.lineBy, _, _, _, _, (Text.hasWords_iff.mp h).symm, hx, hy, rfl⟩
    · exact ⟨.lineAt, _, _, _, _, (Text.hasWords_iff.mp h).symm, hx, hy, rfl⟩
  · rintro ⟨keyword, first, second, x, y, hwords, hx, hy, rfl⟩
    have h := Text.hasWords_iff.mpr hwords.symm
    cases keyword with
    | lineTo => exact .lineTo h hx hy
    | lineBy => exact .lineBy h hx hy
    | lineAt => exact .lineAt h hx hy

/-! ### Integers -/

/-- A numeral of at most 4300 digits is an integer. -/
lemma integer_of_length_le {negative : Bool} {ds : List Nat} (h : ds.length ≤ 4300) :
    integer (negative, ds) = .ok (Text.signedValue negative ds) := by
  have hshort : ¬ maxNumeralDigits < ds.length := Nat.not_lt.mpr h
  simp only [integer, hshort, if_false, Text.ofDigits_eq, Text.signedValue]

/-- A numeral of more than 4300 digits is refused. -/
lemma integer_of_lt_length {negative : Bool} {ds : List Nat} (h : 4300 < ds.length) :
    integer (negative, ds) = .error (.numeralTooLong ds.length) := by
  have hlong : maxNumeralDigits < ds.length := h
  simp only [integer, hlong, if_true]

/-! ### Lines -/

section Lines

variable {line first second : Text} {number : Nat}

/-- A line without three words is malformed. -/
lemma readLine_of_length_ne (h : line.words.length ≠ 3) :
    readLine line number = .error (.badLine .malformed number) := by
  unfold readLine
  split
  next hwords =>
    rw [hwords] at h
    exact absurd rfl h
  next => rfl

/-- A line whose third word is no keyword has an unknown command. -/
lemma readLine_of_not_keyword {word : Text} (hwords : line.words = [first, second, word])
    (h : word ∉ keywords) : readLine line number = .error (.badLine .unknownCommand number) := by
  simp only [readLine, hwords, ofText?_eq_none_iff.mpr h]

section Keyword

variable {keyword : Keyword}
  (hwords : line.words = [first, second, Text.ofString keyword.spelling])

include hwords

/-- A line for a command with a word that is no numeral has an invalid number. -/
lemma readLine_of_not_numeral (h : first.numeral? = none ∨ second.numeral? = none) :
    readLine line number = .error (.badLine .invalidNumber number) := by
  simp only [readLine, hwords, ofText?_eq_some_iff.mpr rfl]
  rcases h with hfirst | hsecond
  · rw [hfirst]
  · rw [hsecond]
    cases first.numeral? <;> rfl

/-- A line for a command with two numerals is read as the command of their integers. -/
lemma readLine_of_numerals {s t : Bool} {ds es : List Nat} (hfirst : first.Numeral s ds)
    (hsecond : second.Numeral t es) :
    readLine line number = do return keyword.command (← integer (s, ds)) (← integer (t, es)) := by
  simp only [readLine, hwords, ofText?_eq_some_iff.mpr rfl, Text.numeral?_eq_some_iff.mpr hfirst,
    Text.numeral?_eq_some_iff.mpr hsecond]

end Keyword

/-- An instruction is read as its command. -/
lemma readLine_of_instruction {command : Command} (h : Instruction line command) :
    readLine line number = .ok command := by
  obtain ⟨keyword, first, second, x, y, hwords, hx, hy, rfl⟩ := instruction_iff.mp h
  obtain ⟨s, ds, hfirst, hds, rfl⟩ := hx
  obtain ⟨t, es, hsecond, hes, rfl⟩ := hy
  rw [readLine_of_numerals hwords hfirst hsecond, integer_of_length_le hds,
    integer_of_length_le hes]
  rfl

/-- A line with something wrong is rejected for that. -/
lemma readLine_of_rejection {error : DrawingError} (h : Rejection line number error) :
    readLine line number = .error error := by
  cases h with
  | malformed h hcount =>
    rw [Text.hasWords_iff.mp h] at hcount
    exact readLine_of_length_ne hcount
  | unknownCommand h hword =>
    exact readLine_of_not_keyword (Text.hasWords_iff.mp h).symm hword
  | invalidNumber h hform =>
    obtain ⟨keyword, hwords⟩ := asks_iff.mp h
    refine readLine_of_not_numeral hwords ?_
    rw [Text.numeral?_eq_none_iff, Text.numeral?_eq_none_iff]
    exact not_and_or.mp hform
  | firstTooLong h hfirst hsecond hlong =>
    obtain ⟨keyword, hwords⟩ := asks_iff.mp h
    rw [readLine_of_numerals hwords hfirst hsecond, integer_of_lt_length hlong]
    rfl
  | secondTooLong h hfirst hsecond hshort hlong =>
    obtain ⟨keyword, hwords⟩ := asks_iff.mp h
    rw [readLine_of_numerals hwords hfirst hsecond, integer_of_length_le hshort,
      integer_of_lt_length hlong]
    rfl

/-- Two numerals behind which a command is named make an instruction, or one of them is too long. -/
lemma instruction_or_tooLong {keyword : Keyword} {s t : Bool} {ds es : List Nat}
    (hwords : line.words = [first, second, Text.ofString keyword.spelling])
    (hfirst : first.Numeral s ds) (hsecond : second.Numeral t es) :
    (∃ command, Instruction line command) ∨ ∃ error, Rejection line number error := by
  have hasks : Asks line first second := asks_iff.mpr ⟨keyword, hwords⟩
  rcases Nat.lt_or_ge 4300 ds.length with hlong | hshort
  · exact .inr ⟨_, .firstTooLong hasks hfirst hsecond hlong⟩
  rcases Nat.lt_or_ge 4300 es.length with hlong | hshort'
  · exact .inr ⟨_, .secondTooLong hasks hfirst hsecond hshort hlong⟩
  · exact .inl ⟨_, instruction_iff.mpr ⟨keyword, first, second, _, _, hwords,
      ⟨s, ds, hfirst, hshort, rfl⟩, ⟨t, es, hsecond, hshort', rfl⟩, rfl⟩⟩

/-- A line is an instruction, or something is wrong with it. -/
lemma instruction_or_rejection (line : Text) (number : Nat) :
    (∃ command, Instruction line command) ∨ ∃ error, Rejection line number error := by
  have hhas := Text.hasWords_words line
  by_cases hcount : line.words.length = 3
  swap
  · exact .inr ⟨_, .malformed hhas hcount⟩
  obtain ⟨first, second, word, hwords⟩ := List.length_eq_three.mp hcount
  rw [hwords] at hhas
  by_cases hword : word ∈ keywords
  swap
  · exact .inr ⟨_, .unknownCommand hhas hword⟩
  have hasks : Asks line first second := ⟨word, hword, hhas⟩
  by_cases hform : (∃ negative ds, first.Numeral negative ds) ∧
      ∃ negative ds, second.Numeral negative ds
  · obtain ⟨⟨s, ds, hfirst⟩, t, es, hsecond⟩ := hform
    obtain ⟨keyword, hkeyword⟩ := asks_iff.mp hasks
    exact instruction_or_tooLong hkeyword hfirst hsecond
  · exact .inr ⟨_, .invalidNumber hasks hform⟩

/-- A line is read as a command when it is an instruction for it. -/
lemma readLine_eq_ok_iff {command : Command} :
    readLine line number = .ok command ↔ Instruction line command := by
  refine ⟨fun h => ?_, readLine_of_instruction⟩
  obtain ⟨other, hother⟩ | ⟨error, hrejected⟩ := instruction_or_rejection line number
  · rw [readLine_of_instruction hother] at h
    obtain rfl := Except.ok.inj h
    exact hother
  · rw [readLine_of_rejection hrejected] at h
    exact nomatch h

/-- A line is rejected for what is wrong with it. -/
lemma readLine_eq_error_iff {error : DrawingError} :
    readLine line number = .error error ↔ Rejection line number error := by
  refine ⟨fun h => ?_, readLine_of_rejection⟩
  obtain ⟨command, hcommand⟩ | ⟨other, hother⟩ := instruction_or_rejection line number
  · rw [readLine_of_instruction hcommand] at h
    exact nomatch h
  · rw [readLine_of_rejection hother] at h
    obtain rfl := Except.error.inj h
    exact hother

end Lines

/-! ### Files -/

section Files

variable {line : Text} {lines : List Text} {number : Nat}

/-- Without lines there are no commands. -/
lemma readLinesFrom_nil : readLinesFrom number [] = .ok [] := rfl

/-- Lines are read one after another, and numbered. -/
lemma readLinesFrom_cons : readLinesFrom number (line :: lines) = (do
    let command ← readLine line number
    return command :: (← readLinesFrom (number + 1) lines)) := rfl

/-- A line that is rejected ends the reading. -/
lemma readLinesFrom_cons_of_error {error : DrawingError} (h : readLine line number = .error error) :
    readLinesFrom number (line :: lines) = .error error := by
  rw [readLinesFrom_cons, h]
  rfl

/-- A line that is an instruction leaves the later ones to be read. -/
lemma readLinesFrom_cons_of_ok {command : Command} (h : readLine line number = .ok command) :
    readLinesFrom number (line :: lines) =
      (readLinesFrom (number + 1) lines).map (command :: ·) := by
  rw [readLinesFrom_cons, h]
  cases readLinesFrom (number + 1) lines <;> rfl

/-- The lines are read when all of them are instructions, and then give their commands in order. -/
lemma readLinesFrom_eq_ok_iff {commands : List Command} :
    readLinesFrom number lines = .ok commands ↔ List.Forall₂ Instruction lines commands := by
  induction lines generalizing number commands with
  | nil =>
    rw [List.forall₂_nil_left_iff, readLinesFrom_nil, Except.ok.injEq]
    exact eq_comm
  | cons line rest ih =>
    rw [List.forall₂_cons_left_iff]
    constructor
    · intro h
      cases hline : readLine line number with
      | error error =>
        rw [readLinesFrom_cons_of_error hline] at h
        exact nomatch h
      | ok command =>
        rw [readLinesFrom_cons_of_ok hline] at h
        cases hrest : readLinesFrom (number + 1) rest with
        | error error =>
          rw [hrest] at h
          exact nomatch h
        | ok more =>
          rw [hrest] at h
          obtain rfl := Except.ok.inj h
          exact ⟨command, more, readLine_eq_ok_iff.mp hline, ih.mp hrest, rfl⟩
    · rintro ⟨command, more, hline, hrest, rfl⟩
      rw [readLinesFrom_cons_of_ok (readLine_of_instruction hline), ih.mpr hrest]
      rfl

/-- The first line that is no instruction decides the error, whatever follows it. -/
lemma readLinesFrom_eq_error_iff {error : DrawingError} :
    readLinesFrom number lines = .error error ↔
      ∃ before line after, lines = before ++ line :: after ∧
        (∀ earlier ∈ before, ∃ command, Instruction earlier command) ∧
        Rejection line (number + before.length) error := by
  induction lines generalizing number with
  | nil => simp [readLinesFrom_nil]
  | cons line rest ih =>
    constructor
    · intro h
      cases hline : readLine line number with
      | error found =>
        rw [readLinesFrom_cons_of_error hline] at h
        obtain rfl := Except.error.inj h
        exact ⟨[], line, rest, rfl, by simp, readLine_eq_error_iff.mp hline⟩
      | ok command =>
        have hinstruction := readLine_eq_ok_iff.mp hline
        rw [readLinesFrom_cons_of_ok hline] at h
        -- the first bad line is the first one of the rest, counted from here
        cases hrest : readLinesFrom (number + 1) rest with
        | ok more =>
          rw [hrest] at h
          exact nomatch h
        | error found =>
          rw [hrest] at h
          obtain rfl := Except.error.inj h
          obtain ⟨before, bad, after, rfl, hbefore, hbad⟩ := ih.mp hrest
          refine ⟨line :: before, bad, after, rfl, ?_, ?_⟩
          · intro earlier hearlier
            rcases List.mem_cons.mp hearlier with rfl | hearlier
            · exact ⟨command, hinstruction⟩
            · exact hbefore earlier hearlier
          · rwa [List.length_cons, Nat.add_comm before.length 1, ← Nat.add_assoc]
    · rintro ⟨_ | ⟨first, before⟩, bad, after, hsplit, hbefore, hbad⟩
      · obtain ⟨rfl, rfl⟩ := List.cons.inj hsplit
        exact readLinesFrom_cons_of_error (readLine_of_rejection hbad)
      · rw [List.cons_append] at hsplit
        obtain ⟨rfl, rfl⟩ := List.cons.inj hsplit
        obtain ⟨command, hcommand⟩ := hbefore line List.mem_cons_self
        rw [List.length_cons, Nat.add_comm before.length 1, ← Nat.add_assoc] at hbad
        have hrest : readLinesFrom (number + 1) (before ++ bad :: after) = .error error :=
          ih.mpr ⟨before, bad, after, rfl,
            fun earlier hearlier => hbefore earlier (List.mem_cons_of_mem _ hearlier), hbad⟩
        rw [readLinesFrom_cons_of_ok (readLine_of_instruction hcommand), hrest]
        rfl

end Files

/-- A text has exactly one list of lines, which end at line feeds only.  It is read as a drawing
when all its lines are instructions, and then gives one command a line, in order.  It is answered
with an error when some line is none, and then with what is wrong with the first such line. -/
theorem read_iff_grammar (text : Text) :
    ∃ lines, (∀ parts, text.CutAt (CodePoint.ofNat 0x0A) parts ↔ parts = lines) ∧
      (∀ commands, read text = .ok commands ↔ List.Forall₂ Instruction lines commands) ∧
      ∀ error, read text = .error error ↔
        ∃ before line after, lines = before ++ line :: after ∧
          (∀ earlier ∈ before, ∃ command, Instruction earlier command) ∧
          Rejection line (before.length + 1) error := by
  have hmark : CodePoint.ofNat 0x0A = CodePoint.ofChar '\n' := rfl
  refine ⟨text.pieces (CodePoint.ofChar '\n'), ?_, ?_, ?_⟩
  · intro parts
    rw [hmark]
    exact Text.cutAt_iff
  · intro commands
    exact readLinesFrom_eq_ok_iff
  · intro error
    simp only [Nat.add_comm _ 1]
    exact readLinesFrom_eq_error_iff

/-- Carriage returns and line separators part words but not lines, and digits of different scripts
make one numeral. -/
example : read "1\u066223\r-4\u2028lineto" = .ok [.lineTo 1223 (-4)] := by decide +kernel

end Drawing

end PenRover

import PenRover.CommandLine.Program
import PenRover.Proofs.Dashboard.Uploads
import PenRover.Proofs.Drawing.LineEndings

/-!
# One drawing, two front ends

A drawing reaches the program as a file on the command line, or as the body of an upload to the
dashboard.  `FrontEnds.Alike` says that both come to the same.  They do unless a numeral is too
long, which neither of them reports as an error of the drawing, or carriage returns in odd places
change what the drawing says: the command line unifies line endings before it reads, and the
dashboard does not.
-/

namespace PenRover

open Dashboard

namespace FrontEnds

/-- What the command line makes of a drawing file and what the dashboard makes of an upload come to
the same: the same commands, the same bad line, or bytes that are no text. -/
inductive Alike (d : Dashboard) :
    Except Breakdown (Option (List Command) × Journal) → Dashboard.Reply → Prop
  | loaded (commands : List Command) : Alike d (.ok (some commands, [])) (d.loaded commands)
  | rejected (fault : LineFault) (line : Int) :
    Alike d (.ok (none, [.note (.fileRejected (.badLine fault line))]))
      (d.rejected (.badLine fault line))
  | unreadable (name : Text) (reason : String) :
    Alike d (.ok (none, [.note (.fileUnreadable name reason)]))
      (.ok (.refusal 400 "Drawing files must be UTF-8 text"), d, [])

/-! ### What becomes of a drawing -/

/-- What the command line makes of what a drawing file was read as. -/
def loadedFrom : Except DrawingError (List Command) →
    Except Breakdown (Option (List Command) × Journal)
  | .ok commands => .ok (some commands, [])
  | .error (.numeralTooLong digits) => .error (.numeralTooLong digits)
  | .error (.badLine fault line) => .ok (none, [.note (.fileRejected (.badLine fault line))])

/-- A file that is no text is not loaded, and its name is logged. -/
lemma load_of_undecodable {disk : Disk} {name : Text} {body : Bytes} {error : Utf8Error}
    (hfile : disk.readBytes name = .ok body) (h : Utf8.decode false body = .error error) :
    Program.load disk name = .ok (none, [.note (.fileUnreadable name error.message)]) := by
  have htext : disk.readText name = .error (.undecodable error) := by
    simp only [Disk.readText, hfile, h]
  simp only [Program.load, htext, ReadError.message]

/-- A file that is a text is loaded or rejected as it is read with its line ends unified. -/
lemma load_of_text {disk : Disk} {name : Text} {body : Bytes} {text : Text}
    (hfile : disk.readBytes name = .ok body) (h : Utf8.decode false body = .ok text) :
    Program.load disk name = loadedFrom (Drawing.read text.unifyLines) := by
  have htext : disk.readText name = .ok text.unifyLines := by
    simp only [Disk.readText, hfile, h]
  simp only [Program.load, htext]
  rcases Drawing.read text.unifyLines with (_ | _) | _ <;> rfl

/-- Commands are loaded only from a drawing that was read as them. -/
lemma eq_ok_of_loadedFrom {result : Except DrawingError (List Command)} {commands : List Command}
    {journal : Journal} (h : loadedFrom result = .ok (some commands, journal)) :
    result = .ok commands := by
  rcases result with (_ | _) | others <;> simp [loadedFrom] at h
  rw [h.1]

/-- An upload succeeds only with a drawing that was read. -/
lemma eq_ok_of_uploaded {d : Dashboard} {result : Except DrawingError (List Command)} {body : Value}
    (h : (d.uploaded result).1 = .ok (.json 200 body)) : ∃ commands, result = .ok commands := by
  rcases result with (_ | _) | commands
  · simp [uploaded, rejected, Answer.refusal] at h
  · simp [uploaded] at h
  · exact ⟨commands, rfl⟩

/-- The reply tells how a drawing was read. -/
lemma uploaded_injective (d : Dashboard) {first second : Except DrawingError (List Command)}
    (h : d.uploaded first = d.uploaded second) : first = second := by
  have hresult := congrArg Prod.fst h
  have hdrawing := congrArg (fun reply => reply.2.1.drawing) h
  have hjournal := congrArg (fun reply => reply.2.2) h
  rcases first with (⟨fault, line⟩ | digits) | commands <;>
    rcases second with (⟨fault', line'⟩ | digits') | commands' <;>
    simp only [uploaded, loaded, rejected] at hresult hdrawing hjournal
  · simpa using hjournal
  · cases hresult
  · cases hdrawing
  · cases hresult
  · simpa using hresult
  · cases hresult
  · cases hdrawing
  · cases hresult
  · rw [Option.some.inj hdrawing]

/-- Two readings come to the same when they are equal and no numeral is too long. -/
lemma alike_iff {d : Dashboard} {first second : Except DrawingError (List Command)} :
    Alike d (loadedFrom first) (d.uploaded second) ↔
      first = second ∧ ∀ digits, second ≠ .error (.numeralTooLong digits) := by
  constructor
  · intro h
    generalize hload : loadedFrom first = found at h
    generalize hupload : d.uploaded second = reply at h
    cases h with
    | loaded commands =>
      obtain rfl : second = .ok commands := uploaded_injective d hupload
      rcases first with (_ | _) | _ <;> simp [loadedFrom] at hload
      exact ⟨congrArg _ hload, nofun⟩
    | rejected fault line =>
      obtain rfl : second = .error (.badLine fault line) := uploaded_injective d hupload
      rcases first with (_ | _) | _ <;> simp [loadedFrom] at hload
      rw [hload.1, hload.2]
      exact ⟨rfl, nofun⟩
    | unreadable name reason =>
      rcases first with (_ | _) | _ <;> simp [loadedFrom] at hload
  · rintro ⟨rfl, hshort⟩
    rcases first with (⟨fault, line⟩ | digits) | commands
    · exact .rejected fault line
    · exact absurd rfl (hshort digits)
    · exact .loaded commands

end FrontEnds

/-! ### Numbers of too many digits -/

/-- A digit that is repeated is a number of digits. -/
lemma Text.digits_replicate {c : CodePoint} {digit : Nat}
    (h : c.digit? = some digit) (count : Nat) :
    Text.Digits (List.replicate count c) (List.replicate count digit) := by
  induction count with
  | zero => exact .nil
  | succ count ih => exact .cons h ih

namespace Drawing

/-- The digit one, this many times. -/
def ones (count : Nat) : Text := List.replicate count (CodePoint.ofChar '1')

/-- An instruction whose second number has this many digits. -/
def longLine (count : Nat) : Text := Text.ofString "0 " ++ (ones count ++ Text.ofString " lineto")

/-- The code points of a long line are those of a short one. -/
lemma mem_of_mem_longLine {count : Nat} {c : CodePoint} (h : c ∈ longLine count) :
    c ∈ Text.ofString "0 1 lineto" := by
  rcases List.mem_append.mp h with hfirst | h
  · exact List.mem_append_left (Text.ofString "1 lineto") hfirst
  rcases List.mem_append.mp h with hdigit | hlast
  · obtain rfl := List.eq_of_mem_replicate hdigit
    decide
  · exact List.mem_append_right (Text.ofString "0 1") hlast

/-- A long line consists of two numerals and the name of a command. -/
lemma hasWords_longLine {count : Nat} (h : count ≠ 0) :
    (longLine count).HasWords ["0", ones count, "lineto"] := by
  have hblank : CodePoint.isBlank ' ' = true := by decide
  have hzero : ∀ c ∈ Text.ofString "0", c.isBlank = false := by decide
  have hones : ∀ c ∈ ones count, c.isBlank = false := by
    intro c hc
    obtain rfl := List.eq_of_mem_replicate hc
    decide
  have hne : ones count ≠ [] := by simpa [ones] using h
  have hkeyword : Text.HasWords (Text.ofString " lineto") ["lineto"] := Text.hasWords_iff.mpr rfl
  have hrest := Text.HasWords.word hne hones (Text.startsBlank_cons.mpr hblank) hkeyword
  exact .word (List.cons_ne_nil _ _) hzero (Text.startsBlank_cons.mpr hblank) (.blank hblank hrest)

/-- A line with more than 4300 digits is rejected as too long. -/
lemma read_longLine {count : Nat} (h : 4300 < count) :
    read (longLine count) = .error (.numeralTooLong count) := by
  have hne : List.replicate count 1 ≠ [] := by
    rw [Ne, List.replicate_eq_nil_iff]
    omega
  have hasks : Asks (longLine count) "0" (ones count) :=
    ⟨_, by decide, hasWords_longLine (by omega)⟩
  have hzero : Text.Numeral "0" false [0] := Text.numeral?_eq_some_iff.mp rfl
  have hones : Text.Numeral (ones count) false (List.replicate count 1) :=
    .unsigned hne (Text.digits_replicate rfl count)
  have hrejection : Rejection (longLine count) 1 (.numeralTooLong count) := by
    have htooLong : 4300 < (List.replicate count 1).length := by rwa [List.length_replicate]
    have hrejection : Rejection (longLine count) 1 _ :=
      .secondTooLong hasks hzero hones (by decide) htooLong
    rwa [List.length_replicate] at hrejection
  have hfeed : CodePoint.ofChar '\n' ∉ longLine count := fun hmem =>
    absurd (mem_of_mem_longLine hmem) (by decide)
  rw [read, Text.pieces_of_notMem hfeed]
  exact readLinesFrom_cons_of_error (readLine_of_rejection hrejection)

end Drawing

open FrontEnds in
/-- Of every moment at which no session is in use, and of every file with the bytes of an upload.
The command line and the dashboard come to the same, unless the bytes are a text that is read
differently once its line endings are unified, or in which a numeral is too long.  A text in which
carriage returns stand only before line feeds is never read differently, and any other text never
gives commands on both sides.  A numeral that is too long, and nothing else, stops either side
without an answer. -/
theorem FrontEnds.alike_of_reached (m : Moment) (deeds : List Deed) (h : m.Reached deeds)
    (hcurrent : m.dashboard.current = none) (upload : Request) (hupload : Asks upload .upload)
    (disk : Disk) (name : Text) (hfile : disk.readBytes name = .ok upload.body) :
    (Alike m.dashboard (Program.load disk name) (m.dashboard.handle upload) ↔
      ∀ text, Utf8.decode false upload.body = .ok text →
        Drawing.read text.unifyLines = Drawing.read text ∧
        ∀ digits, Drawing.read text ≠ .error (.numeralTooLong digits)) ∧
    ∀ text, Utf8.decode false upload.body = .ok text →
      (text.Paired → Drawing.read text.unifyLines = Drawing.read text) ∧
      (¬ text.Paired → ∀ commands journal,
        Program.load disk name = .ok (some commands, journal) → ¬ m.dashboard.Accepts upload) ∧
      (∀ breakdown, Program.load disk name = .error breakdown ↔ ∃ digits,
        breakdown = .numeralTooLong digits ∧
          Drawing.read text.unifyLines = .error (.numeralTooLong digits)) ∧
      ∀ mishap, (m.dashboard.handle upload).1 = .error mishap ↔ ∃ digits,
        mishap = .numeralTooLong digits ∧ Drawing.read text = .error (.numeralTooLong digits) := by
  have hclosed := Moment.isClosed_of_reached h hcurrent
  constructor
  · cases hdecode : Utf8.decode false upload.body with
    | error error =>
      rw [load_of_undecodable hfile hdecode,
        handle_upload_of_undecodable hupload hclosed hcurrent hdecode]
      exact iff_of_true (.unreadable name error.message) nofun
    | ok text =>
      rw [load_of_text hfile hdecode, handle_upload_of_text hupload hclosed hcurrent hdecode,
        alike_iff]
      simp only [Except.ok.injEq, forall_eq']
  · intro text hdecode
    rw [load_of_text hfile hdecode]
    have hhandle := handle_upload_of_text hupload hclosed hcurrent hdecode
    refine ⟨Drawing.read_unifyLines, fun hstray commands journal hload hupload => ?_,
      fun breakdown => ?_, fun mishap => ?_⟩
    · obtain ⟨body, hanswer⟩ := hupload
      rw [hhandle] at hanswer
      obtain ⟨others, hread⟩ := eq_ok_of_uploaded hanswer
      exact Drawing.not_both_of_stray hstray (eq_ok_of_loadedFrom hload) hread
    · rcases Drawing.read text.unifyLines with (_ | _) | _ <;> simp [loadedFrom, eq_comm]
    · rw [hhandle]
      rcases Drawing.read text with (_ | _) | _ <;> simp [uploaded, loaded, rejected, eq_comm]

open FrontEnds in
/-- Two lines that end as they do in files of another system. -/
theorem FrontEnds.alike_of_reached_paired :
    let body := Utf8.encode (Text.ofString "0 1 lineto\r\n2 3 rlineto")
    let upload : Request :=
      ⟨Text.ofString "POST", Text.ofString "robot", Text.ofString "/file", [], body⟩
    let d := Dashboard.new .standard (Text.ofString "config.json") [] ⟨[], []⟩
    let disk : Disk := [([Text.ofString "drawing"], .file (.bytes body))]
    Moment.Reached ⟨d, []⟩ [] ∧ d.current = none ∧ Asks upload .upload ∧
      disk.readBytes "drawing" = .ok upload.body ∧
      Alike d (Program.load disk "drawing") (d.handle upload) := by
  intro body upload d disk
  have hreached : Moment.Reached ⟨d, []⟩ [] := ⟨_, _, _, _, .refl _⟩
  have hasks : Asks upload .upload := by
    unfold Asks
    decide +kernel
  have hfile : disk.readBytes "drawing" = .ok upload.body := by decide +kernel
  have hdecode : Utf8.decode false upload.body =
      .ok (Text.ofString "0 1 lineto\r\n2 3 rlineto") := by decide +kernel
  have hread : Drawing.read (Text.ofString "0 1 lineto\r\n2 3 rlineto") =
      .ok [.lineTo 0 1, .lineBy 2 3] := by decide +kernel
  have hunified : Drawing.read (Text.ofString "0 1 lineto\r\n2 3 rlineto").unifyLines =
      .ok [.lineTo 0 1, .lineBy 2 3] := by decide +kernel
  clear_value upload disk
  refine ⟨hreached, rfl, hasks, hfile,
    (FrontEnds.alike_of_reached ⟨d, []⟩ [] hreached rfl upload hasks disk "drawing" hfile).1.mpr ?_⟩
  intro text htext
  obtain rfl := Except.ok.inj (hdecode.symm.trans htext)
  rw [hread, hunified]
  exact ⟨rfl, nofun⟩

open FrontEnds in
/-- A lone carriage return between two instructions: the command line reads them, and the dashboard
finds a bad line.  An integer of too many digits: neither side reports a bad drawing. -/
theorem FrontEnds.not_alike_of_carriage_return :
    let ask (body : Bytes) : Request :=
      ⟨Text.ofString "POST", Text.ofString "robot", Text.ofString "/file", [], body⟩
    let disk (body : Bytes) : Disk := [([Text.ofString "drawing"], .file (.bytes body))]
    let d := Dashboard.new .standard (Text.ofString "config.json") [] ⟨[], []⟩
    let stray := Utf8.encode (Text.ofString "0 1 lineto\r2 3 lineto")
    let long := Utf8.encode (Drawing.longLine 4301)
    Program.load (disk stray) "drawing" = .ok (some [.lineTo 0 1, .lineTo 2 3], []) ∧
      (d.handle (ask stray)).1 = .ok (.refusal 400 "Invalid number of arguments on line 1.") ∧
      Program.load (disk long) "drawing" = .error (.numeralTooLong 4301) ∧
      (d.handle (ask long)).1 = .error (.numeralTooLong 4301) := by
  intro ask disk d stray long
  have hread : Drawing.read (Drawing.longLine 4301) = .error (.numeralTooLong 4301) :=
    Drawing.read_longLine (by decide)
  have hdecode : Utf8.decode false long = .ok (Drawing.longLine 4301) := by
    refine Utf8.decode_encode_of_ascii false fun c hc => ?_
    have hascii : ∀ c ∈ Text.ofString "0 1 lineto", c.val < 0x80 := by decide
    exact hascii c (Drawing.mem_of_mem_longLine hc)
  have hlines : (Drawing.longLine 4301).unifyLines = Drawing.longLine 4301 :=
    Text.unifyLines_of_notMem fun hmem => absurd (Drawing.mem_of_mem_longLine hmem) (by decide)
  have hfile : (disk long).readBytes "drawing" = .ok long := rfl
  have hasks : Asks (ask long) .upload := rfl
  have hclosed (k : Nat) : (d.controls k).link.IsClosed :=
    (Moment.tidy_of_reached (m := ⟨d, []⟩) ⟨_, _, _, _, .refl _⟩).others k (fun h => nomatch h)
  refine ⟨rfl, rfl, ?_, ?_⟩
  · rw [load_of_text hfile hdecode, hlines, hread]
    rfl
  · rw [handle_upload_of_text hasks hclosed rfl hdecode, hread]
    rfl

end PenRover

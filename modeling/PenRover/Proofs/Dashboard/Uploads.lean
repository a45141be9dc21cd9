import PenRover.Proofs.Dashboard.Attendance

/-!
# Uploads that fail

An upload at rest is decoded and then read (`handle_upload_of_undecodable` and
`handle_upload_of_text`), and can fail in three ways.  Bytes that are no text are refused, and a
numeral that is too long is a mishap; both leave the dashboard as it was.  Only a bad line unloads
the drawing that was there before and puts an error into the status.  So after an upload that failed
nothing is ready to be started if it failed because of a bad line, or if nothing was ready before,
and in no other case.
-/

namespace PenRover

namespace Drawing

/-- The bytes are a text in which a line is bad. -/
def HasBadLine (body : Bytes) : Prop :=
  ∃ text fault line, Utf8.decode false body = .ok text ∧
    Drawing.read text = .error (.badLine fault line)

end Drawing

namespace Dashboard

variable {d : Dashboard}

/-- The request is answered with success. -/
def Accepts (d : Dashboard) (request : Request) : Prop :=
  ∃ body, (d.handle request).1 = .ok (.json 200 body)

instance (d : Dashboard) (request : Request) : Decidable (d.Accepts request) :=
  decidable_of_iff
    ((match (d.handle request).1 with
      | .ok (.json 200 _) => true
      | _ => false) = true) (by
    unfold Accepts
    split
    next body hanswer => exact iff_of_true rfl ⟨body, hanswer⟩
    next hother => exact iff_of_false Bool.false_ne_true fun ⟨body, hanswer⟩ => hother body hanswer)

/-- No drawing is loaded, the status says that something is wrong, and whoever asks for a start is
refused, without anything written, let alone sent. -/
structure Unloaded (d : Dashboard) : Prop where
  drawing : d.drawing = none
  severity : d.status.severity = .error
  start : ∀ start, Asks start .start →
    (d.handle start).1 = .ok (.refusal 400 "No drawing file loaded") ∧ (d.handle start).2.2 = []

/-- The reply to a drawing that is rejected. -/
def rejected (d : Dashboard) (error : DrawingError) : Reply :=
  (.ok (.refusal 400 error.message), { d with drawing := none, status := .failed error.message },
    [.note (.drawingRejected error)])

/-- The reply to a drawing that is loaded. -/
def loaded (d : Dashboard) (commands : List Command) : Reply :=
  (.ok (.json 200 (Answer.record [("status", Answer.ofStatus .ready),
      ("command_count", .int commands.length)])),
    { d with drawing := some commands, status := .ready }, [.note (.drawingLoaded commands.length)])

/-- The reply to a drawing that was read like this. -/
def uploaded (d : Dashboard) : Except DrawingError (List Command) → Reply
  | .ok commands => d.loaded commands
  | .error (.badLine fault line) => d.rejected (.badLine fault line)
  | .error (.numeralTooLong digits) => (.error (.numeralTooLong digits), d, [])

/-- Bytes that are no text are refused and change nothing. -/
lemma upload_of_undecodable (hcurrent : d.current = none) {body : Bytes} {error : Utf8Error}
    (h : Utf8.decode false body = .error error) :
    d.upload body = (.ok (.refusal 400 "Drawing files must be UTF-8 text"), d, []) := by
  rw [upload_of_current hcurrent, receive, h]

/-- A text is loaded or rejected as it is read. -/
lemma upload_of_text (hcurrent : d.current = none) {body : Bytes} {text : Text}
    (h : Utf8.decode false body = .ok text) :
    d.upload body = d.uploaded (Drawing.read text) := by
  rw [upload_of_current hcurrent]
  simp only [receive, h]
  rcases Drawing.read text with (_ | _) | _ <;> simp only [uploaded, loaded, rejected]

/-- An upload touches no session. -/
lemma sessions_uploaded (d : Dashboard) (result : Except DrawingError (List Command)) :
    (d.uploaded result).2.1.sessions = d.sessions := by
  rcases result with (_ | _) | _ <;> rfl

/-- What is answered to a drawing that was read can be written. -/
lemma check_uploaded (d : Dashboard) (result : Except DrawingError (List Command)) :
    (d.uploaded result).1.bind Answer.check = (d.uploaded result).1 := by
  rcases result with (⟨fault, line⟩ | digits) | commands
  · simp only [uploaded, rejected, Except.bind, Answer.check_refusal]
  · rfl
  · simp only [uploaded, loaded, Except.bind]
    refine Answer.check_json_iff.mpr ⟨rfl, Answer.plain_record ?_⟩
    simp only [List.forall_mem_cons]
    exact ⟨Answer.plain_ofStatus .ready, .number _, nofun⟩

/-- While all links are closed, a request that leaves them so is handled by its answer. -/
lemma handle_of_sessions_eq {request : Request} {service : Service} (h : Asks request service)
    (hclosed : ∀ k, (d.controls k).link.IsClosed)
    (hsessions : (d.serve request service).2.1.sessions = d.sessions) :
    d.handle request = ((d.serve request service).1.bind Answer.check,
      (d.serve request service).2) := by
  have hanswer := answer_of_asks (d := d) h
  refine Prod.ext ?_ ?_
  · rw [handle_result, hanswer]
  · rw [handle_of_isClosed fun k => ?_, hanswer]
    rw [hanswer, controls_congr hsessions]
    exact hclosed k

/-- While nothing is loaded a start is refused. -/
lemma handle_start_of_unloaded {start : Request} (hstart : Asks start .start)
    (hclosed : ∀ k, (d.controls k).link.IsClosed) (hcurrent : d.current = none)
    (hdrawing : d.drawing = none) :
    d.handle start = (.ok (.refusal 400 "No drawing file loaded"), d, []) := by
  have hrefused : d.serve start .start = (.ok (.refusal 400 "No drawing file loaded"), d, []) := by
    simp only [serve, Dashboard.start, hcurrent, hdrawing]
  rw [handle_of_sessions_eq hstart hclosed (by rw [hrefused]), hrefused]
  simp only [Except.bind, Answer.check_refusal]

/-- At rest nothing can be started exactly when no drawing is loaded. -/
lemma unloaded_iff (hclosed : ∀ k, (d.controls k).link.IsClosed) (hcurrent : d.current = none) :
    d.Unloaded ↔ d.drawing = none ∧ d.status.severity = .error := by
  constructor
  · exact fun h => ⟨h.drawing, h.severity⟩
  · rintro ⟨hdrawing, hseverity⟩
    refine ⟨hdrawing, hseverity, fun start hstart => ?_⟩
    rw [handle_start_of_unloaded hstart hclosed hcurrent hdrawing]
    exact ⟨rfl, rfl⟩

section Upload

variable {upload : Request} (hupload : Asks upload .upload)
  (hclosed : ∀ k, (d.controls k).link.IsClosed) (hcurrent : d.current = none)

include hupload hclosed hcurrent

/-- Bytes that are no text are refused, and change nothing. -/
lemma handle_upload_of_undecodable {error : Utf8Error}
    (h : Utf8.decode false upload.body = .error error) :
    d.handle upload = (.ok (.refusal 400 "Drawing files must be UTF-8 text"), d, []) := by
  have hserve : d.serve upload .upload =
      (.ok (.refusal 400 "Drawing files must be UTF-8 text"), d, []) :=
    upload_of_undecodable hcurrent h
  rw [handle_of_sessions_eq hupload hclosed (by rw [hserve]), hserve]
  simp only [Except.bind, Answer.check_refusal]

/-- A request to upload a text is replied to as the text is read. -/
lemma handle_upload_of_text {text : Text} (h : Utf8.decode false upload.body = .ok text) :
    d.handle upload = d.uploaded (Drawing.read text) := by
  have hserve : d.serve upload .upload = d.uploaded (Drawing.read text) :=
    upload_of_text hcurrent h
  rw [handle_of_sessions_eq hupload hclosed (by rw [hserve, sessions_uploaded]), hserve,
    check_uploaded]

/-- A bad line is refused, and unloads the drawing that was there before. -/
lemma handle_upload_of_hasBadLine (hbad : Drawing.HasBadLine upload.body) :
    ∃ fault line, d.handle upload = d.rejected (.badLine fault line) := by
  obtain ⟨text, fault, line, htext, hread⟩ := hbad
  refine ⟨fault, line, ?_⟩
  rw [handle_upload_of_text hupload hclosed hcurrent htext, hread, uploaded]

/-- Without a bad line an upload that fails changes nothing. -/
lemma handle_upload_of_not_hasBadLine (hfails : ¬ d.Accepts upload)
    (hgood : ¬ Drawing.HasBadLine upload.body) : (d.handle upload).2 = (d, []) := by
  cases hdecode : Utf8.decode false upload.body with
  | error error => rw [handle_upload_of_undecodable hupload hclosed hcurrent hdecode]
  | ok text =>
    have hhandle := handle_upload_of_text hupload hclosed hcurrent hdecode
    cases hread : Drawing.read text with
    | ok commands =>
      rw [hread] at hhandle
      exact absurd ⟨_, congrArg Prod.fst hhandle⟩ hfails
    | error error =>
      rw [hread] at hhandle
      cases error with
      | badLine fault line => exact absurd ⟨text, fault, line, hdecode, hread⟩ hgood
      | numeralTooLong digits => rw [hhandle, uploaded]

end Upload

end Dashboard

/-- At rest all links are closed. -/
lemma Moment.isClosed_of_reached {m : Moment} {deeds : List Deed} (h : m.Reached deeds)
    (hcurrent : m.dashboard.current = none) (k : Nat) : (m.dashboard.controls k).link.IsClosed :=
  (tidy_of_reached h).others k (by rw [hcurrent]; exact (Option.some_ne_none k).symm)

open Dashboard in
/-- Of every moment at which no session is in use, whatever was loaded and drawn before, and of
every upload that is not answered with success.  Afterwards no drawing is loaded, the status shows
an error, and a start is refused and sends nothing, if and only if the upload has a bad line or all
this was so before.  A bad line is answered with a refusal whose reason the status repeats; without
a bad line the upload changes nothing. -/
theorem Moment.unloaded_of_upload (m : Moment) (deeds : List Deed) (h : m.Reached deeds)
    (hcurrent : m.dashboard.current = none) (upload : Request) (hupload : Asks upload .upload)
    (hfails : ¬ m.dashboard.Accepts upload) :
    ((m.dashboard.handle upload).2.1.Unloaded ↔
      Drawing.HasBadLine upload.body ∨
        m.dashboard.drawing = none ∧ m.dashboard.status.severity = .error) ∧
    (Drawing.HasBadLine upload.body → ∃ fault line,
      m.dashboard.handle upload = m.dashboard.rejected (.badLine fault line)) ∧
    (¬ Drawing.HasBadLine upload.body → (m.dashboard.handle upload).2 = (m.dashboard, [])) := by
  have hclosed := isClosed_of_reached h hcurrent
  by_cases hbad : Drawing.HasBadLine upload.body
  · have hhandle := handle_upload_of_hasBadLine hupload hclosed hcurrent hbad
    refine ⟨iff_of_true ?_ (.inl hbad), fun _ => hhandle, absurd hbad⟩
    obtain ⟨fault, line, hhandle⟩ := hhandle
    rw [hhandle]
    exact (unloaded_iff (d := (m.dashboard.rejected (.badLine fault line)).2.1)
      hclosed hcurrent).mpr ⟨rfl, rfl⟩
  · have hhandle := handle_upload_of_not_hasBadLine hupload hclosed hcurrent hfails hbad
    refine ⟨?_, fun h => absurd h hbad, fun _ => hhandle⟩
    rw [hhandle, or_iff_right hbad]
    exact unloaded_iff hclosed hcurrent

open Dashboard in
/-- A drawing is loaded, and then one whose keyword is unknown. -/
theorem Moment.unloaded_of_upload_keyword :
    let ask (path : String) (body : Bytes) : Request :=
      ⟨Text.ofString "POST", Text.ofString "robot", Text.ofString path, [], body⟩
    let d := (Dashboard.new .standard (Text.ofString "config.json") [] ⟨[], []⟩).afterAll
      [ask "/file" (Utf8.encode (Text.ofString "0 1 lineto"))]
    let bad := ask "/file" (Utf8.encode (Text.ofString "0 1 line"))
    (∃ deeds, Moment.Reached ⟨d, []⟩ deeds) ∧ d.current = none ∧ Asks bad .upload ∧
      ¬ d.Accepts bad ∧ d.drawing = some [.lineTo 0 1] ∧ (d.handle bad).2.1.Unloaded := by
  intro ask d bad
  have hreachable : d.Reachable := ⟨_, _, _, _, Later.refl.afterAll _⟩
  have hcurrent : d.current = none := by decide +kernel
  have hdrawing : d.drawing = some [.lineTo 0 1] := by decide +kernel
  have hasks : Asks bad .upload := by
    unfold Asks
    decide +kernel
  have hfails : ¬ d.Accepts bad := by decide +kernel
  have hbad : Drawing.HasBadLine bad.body :=
    ⟨Text.ofString "0 1 line", .unknownCommand, 1, rfl, rfl⟩
  clear_value d bad
  obtain ⟨deeds, hreached⟩ := hreachable.reached
  exact ⟨⟨deeds, hreached⟩, hcurrent, hasks, hfails, hdrawing,
    (Moment.unloaded_of_upload ⟨d, []⟩ deeds hreached hcurrent bad hasks hfails).1.mpr (.inl hbad)⟩

open Dashboard in
/-- A drawing is loaded, and then a byte that is no text.  The drawing and its status stay, and a
start of the drawing is accepted and begins with a connection attempt. -/
theorem Moment.not_unloaded_of_upload_undecodable :
    let ask (path : String) (body : Bytes) : Request :=
      ⟨Text.ofString "POST", Text.ofString "robot", Text.ofString path, [], body⟩
    let d := (Dashboard.new .standard (Text.ofString "config.json") [] ⟨[], []⟩).afterAll
      [ask "/file" (Utf8.encode (Text.ofString "0 1 lineto"))]
    let bad := ask "/file" [0xFF]
    (∃ deeds, Moment.Reached ⟨d, []⟩ deeds) ∧ d.current = none ∧ Asks bad .upload ∧
      ¬ d.Accepts bad ∧ (d.handle bad).2.1.drawing = some [.lineTo 0 1] ∧
      (d.handle bad).2.1.status.severity = .info ∧
      Asks (ask "/start" []) .start ∧ (d.handle bad).2.1.Accepts (ask "/start" []) ∧
      (Journal.events ((d.handle bad).2.1.handle (ask "/start" [])).2.2).isEmpty = false := by
  intro ask d bad
  have hreachable : d.Reachable := ⟨_, _, _, _, Later.refl.afterAll _⟩
  refine ⟨hreachable.reached, ?_⟩
  unfold Asks
  decide +kernel

end PenRover

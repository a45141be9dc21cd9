import PenRover.Proofs.Link.History

/-!
# What a radio link delivers

A link keeps no frame.  While bytes are being sent they are offered to the connection that there is
at that moment, once, and never again: neither when the connection turns out closed nor when a later
one is made.  So what is transmitted from some moment on was handed over from that moment on
(`offered_sublist_handed`), and what arrives over all connections is in the order in which it was
handed over, with frames missing but none repeated.
-/

namespace PenRover

namespace Radio

/-- The bytes that a deed hands to the link. -/
def Deed.bytes : Deed → List Bytes
  | .sending bytes => [bytes]
  | _ => []

/-- The bytes handed to the link in these steps, in order. -/
def handed (steps : List Step) : List Bytes := steps.flatMap fun step => step.deed.bytes

/-- The bytes transmitted in these steps over any connection, whether they arrived or not. -/
def offered (steps : List Step) : List Bytes :=
  steps.flatMap fun step => step.journal.transmissions.map Prod.fst

/-- The bytes that arrived in these steps over any connection. -/
def delivered (steps : List Step) : List Bytes :=
  steps.flatMap fun step =>
    (step.journal.transmissions.filter fun t => t.2 = .accepted).map Prod.fst

/-- The step transmits nothing, or the bytes that are being sent, over the connection that there
is, and once. -/
def Step.OffersOwn (step : Step) : Prop :=
  step.journal.transmissions = [] ∨
    ∃ bytes reply, step.deed = .sending bytes ∧ step.before.connected = true ∧
      step.journal.transmissions = [(bytes, reply)]

/-! ### Single steps -/

/-- Only what is being sent is transmitted, and only while it is being sent. -/
lemma offersOwn_step (radio : Radio) (occasion : Occasion) :
    (radio.step occasion).OffersOwn := by
  obtain ⟨deed, air, clock⟩ := occasion
  cases deed with
  | opening => exact .inl (journal_open radio air).2.1
  | beginning => exact .inl (journal_settle radio clock).2
  | waking =>
    left
    cases halarm : radio.alarm? with
    | none =>
      simp only [step, halarm]
      rfl
    | some alarm =>
      simp only [step, halarm]
      exact (journal_wake radio air _).2
  | sending bytes =>
    obtain ⟨-, h⟩ | ⟨hup, -, h⟩ | ⟨hup, -, h⟩ | ⟨fault, hup, -, -, h⟩ :=
      sending_cases radio air bytes
    · left
      simp only [step, h]
      rfl
    · exact .inr ⟨bytes, .accepted, rfl, hup, by simp only [step, h]; rfl⟩
    · exact .inr ⟨bytes, .closed, rfl, hup, by simp only [step, h]; rfl⟩
    · exact .inr ⟨bytes, air.nextTransmission.1, rfl, hup, by simp only [step, h]; rfl⟩

/-! ### Histories -/

/-- The steps of a history do what the occasions ask for, in their order. -/
lemma map_deed_history (radio : Radio) (occasions : List Occasion) :
    (radio.history occasions).map Step.deed = occasions.map Occasion.deed := by
  induction occasions generalizing radio with
  | nil => rfl
  | cons occasion rest ih => rw [history, List.map_cons, List.map_cons, deed_step, ih]

/-- Every step of a history transmits nothing but its own bytes. -/
lemma offersOwn_of_mem_history {radio : Radio} {occasions : List Occasion} :
    ∀ step ∈ radio.history occasions, step.OffersOwn := by
  induction occasions generalizing radio with
  | nil => simp [history]
  | cons occasion rest ih =>
    intro step hstep
    rcases List.mem_cons.mp hstep with rfl | hstep
    · exact offersOwn_step radio occasion
    · exact ih step hstep

/-- What is transmitted was handed over meanwhile, in the same order. -/
lemma offered_sublist_handed {steps : List Step} (h : ∀ step ∈ steps, step.OffersOwn) :
    (offered steps).Sublist (handed steps) := by
  induction steps with
  | nil => exact List.Sublist.slnil
  | cons step rest ih =>
    have hrest := ih fun other hother => h other (List.mem_cons_of_mem _ hother)
    have hstep : (step.journal.transmissions.map Prod.fst).Sublist step.deed.bytes := by
      obtain hnone | ⟨bytes, reply, hdeed, -, hone⟩ := h step List.mem_cons_self
      · rw [hnone]
        exact List.nil_sublist _
      · rw [hone, hdeed]
        exact List.Sublist.refl [bytes]
    exact hstep.append hrest

/-- What arrives was transmitted, in the same order. -/
lemma delivered_sublist_offered (steps : List Step) :
    (delivered steps).Sublist (offered steps) := by
  induction steps with
  | nil => exact List.Sublist.slnil
  | cons step rest ih => exact (List.filter_sublist.map Prod.fst).append ih

end Radio

open Radio in
/-- Of every history of a link.  Its steps do what is asked for, one after another.  A step
transmits nothing, or exactly the bytes that are being sent in this step, once, over the connection
that it finds.  What arrives is what was handed over, in the same order, with some of it missing.
And what is transmitted from any moment on was handed over from that moment on, so nothing that was
dropped is transmitted later. -/
theorem Radio.transmissions_of_history (radio : Radio) (occasions : List Occasion) :
    (radio.history occasions).map Step.deed = occasions.map Occasion.deed ∧
    (∀ step ∈ radio.history occasions, step.journal.transmissions = [] ∨
      ∃ bytes reply, step.deed = .sending bytes ∧ step.before.connected = true ∧
        step.journal.transmissions = [(bytes, reply)]) ∧
    (delivered (radio.history occasions)).Sublist (handed (radio.history occasions)) ∧
    ∀ earlier later, radio.history occasions = earlier ++ later →
      (offered later).Sublist (handed later) := by
  have howns : ∀ step ∈ radio.history occasions, step.OffersOwn := offersOwn_of_mem_history
  refine ⟨map_deed_history radio occasions, howns, ?_, ?_⟩
  · exact (delivered_sublist_offered _).trans (offered_sublist_handed howns)
  · intro earlier later hsplit
    refine offered_sublist_handed fun step hstep => howns step ?_
    rw [hsplit]
    exact List.mem_append_right earlier hstep

end PenRover

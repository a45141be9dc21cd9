import PenRover.Journal

/-!
# Actions

An action works on a state, writes into the journal, and ends with a result or a fault.  What it did
to the state before a fault stays done.
-/

namespace PenRover

/-- An action on states `σ` with results `α`. -/
def Act (σ α : Type) : Type := σ → Except Fault α × σ × Journal

namespace Act

variable {σ α β : Type}

/-- The action that only gives a result. -/
protected def pure (a : α) : Act σ α := fun s => (.ok a, s, [])

/-- One action after another; a fault of the first one ends both. -/
protected def bind (act : Act σ α) (next : α → Act σ β) : Act σ β := fun s =>
  match act s with
  | (.error fault, s, journal) => (.error fault, s, journal)
  | (.ok a, s, journal) =>
    let (result, s, more) := next a s
    (result, s, journal ++ more)

instance : Monad (Act σ) where
  pure := Act.pure
  bind := Act.bind

/-- The action that fails. -/
def fail (fault : Fault) : Act σ α := fun s => (.error fault, s, [])

/-- The action that ends as a computation did. -/
def ofExcept (result : Except Fault α) : Act σ α := fun s => (result, s, [])

/-- Writes into the journal. -/
def write (journal : Journal) : Act σ Unit := fun s => (.ok (), s, journal)

/-- The current state. -/
def state : Act σ σ := fun s => (.ok s, s, [])

/-- Changes the state. -/
def modify (f : σ → σ) : Act σ Unit := fun s => (.ok (), f s, [])

/-- The action with its fault as a result. -/
def attempt (act : Act σ α) : Act σ (Except Fault α) := fun s =>
  let (result, s, journal) := act s
  (.ok result, s, journal)

/-- What follows an action that comes to a good end goes on from its state, and its journal comes
after. -/
theorem bind_ok {act : Act σ α} {next : α → Act σ β} {s t : σ} {a : α} {journal : Journal}
    (h : act s = (.ok a, t, journal)) :
    (act >>= next) s = ((next a t).1, (next a t).2.1, journal ++ (next a t).2.2) := by
  simp [Bind.bind, Act.bind, h]

/-- What follows a note in the journal goes on from the same state. -/
theorem write_bind {journal : Journal} {next : Unit → Act σ β} {s : σ} :
    (write journal >>= next) s =
      ((next () s).1, (next () s).2.1, journal ++ (next () s).2.2) :=
  bind_ok rfl

/-- Nothing follows an action that fails. -/
theorem bind_error {act : Act σ α} {next : α → Act σ β} {s t : σ} {fault : Fault}
    {journal : Journal} (h : act s = (.error fault, t, journal)) :
    (act >>= next) s = (.error fault, t, journal) := by
  simp [Bind.bind, Act.bind, h]

/-- Two actions one after the other succeed when both do. -/
theorem bind_eq_ok {act : Act σ α} {next : α → Act σ β} {s t : σ} {b : β} {journal : Journal}
    (h : (act >>= next) s = (.ok b, t, journal)) :
    ∃ a u first second, act s = (.ok a, u, first) ∧ next a u = (.ok b, t, second) ∧
      journal = first ++ second := by
  rcases hact : act s with ⟨_ | a, u, first⟩
  · simp [bind_error hact] at h
  · rw [bind_ok hact, Prod.mk.injEq, Prod.mk.injEq] at h
    obtain ⟨hend, hstate, hjournal⟩ := h
    exact ⟨a, u, first, (next a u).2.2, rfl, Prod.ext hend (Prod.ext hstate rfl), hjournal.symm⟩

/-- It makes no difference how a sequence of actions is bracketed. -/
theorem bind_assoc {γ : Type} (act : Act σ α) (f : α → Act σ β) (g : β → Act σ γ) :
    act >>= f >>= g = act >>= fun a => f a >>= g := by
  funext s
  simp only [Bind.bind, Act.bind]
  rcases act s with ⟨_ | a, t, journal⟩
  · rfl
  · rcases hf : f a t with ⟨_ | b, u, more⟩ <;> simp [hf]

end Act

end PenRover

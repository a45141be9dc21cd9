import PenRover.Proofs.Motion.Rehearsal

/-!
# Runs in lockstep

A run makes moves: it hands bytes to its link, and it waits.  Two stages are in lockstep when, from
related states, each request for powers and each wait ends alike on both: with the same result,
after the same moves, and in related states again.  Every script is then acted out alike on both
(`alike_play`).  So two runs are compared by comparing single requests and single waits.
-/

namespace PenRover

/-- What a run does. -/
inductive Move where
  /-- It hands bytes to its link. -/
  | send (bytes : Bytes)
  | wait (time : Value)

namespace Journal

/-- The moves of a run.  Bytes that are handed to a link are rehearsed there, or transmitted, or
dropped for lack of a connection. -/
def moves (journal : Journal) : List Move :=
  journal.filterMap fun
    | .event (.frame frame) => some (.send frame.toBytes)
    | .event (.transmit bytes _) => some (.send bytes)
    | .note (.droppedOffline _ bytes) => some (.send bytes)
    | .event (.wait time) => some (.wait time)
    | _ => none

/-- The moves of two journals come one after another. -/
@[simp] lemma moves_append (first second : Journal) :
    Journal.moves (first ++ second) = Journal.moves first ++ Journal.moves second := by
  simp [moves]

end Journal

/-! ### Actions that end alike -/

namespace Act

variable {σ τ α β γ : Type} {R : σ → τ → Prop} {s : σ} {t : τ}

/-- Two actions end alike: with the same result, after the same moves, and in related states. -/
structure Alike (R : σ → τ → Prop) (x : Except Fault α × σ × Journal)
    (y : Except Fault α × τ × Journal) : Prop where
  result_eq : x.1 = y.1
  related : R x.2.1 y.2.1
  moves_eq : x.2.2.moves = y.2.2.moves

/-- Returning ends alike in related states. -/
lemma alike_pure (a : α) (h : R s t) : Alike R (Act.pure a s) (Act.pure a t) := ⟨rfl, h, rfl⟩

/-- Failing ends alike in related states. -/
lemma alike_fail (fault : Fault) (h : R s t) :
    Alike (α := α) R (Act.fail fault s) (Act.fail fault t) := ⟨rfl, h, rfl⟩

/-- A computation ends alike in related states. -/
lemma alike_ofExcept (result : Except Fault α) (h : R s t) :
    Alike R (Act.ofExcept result s) (Act.ofExcept result t) := ⟨rfl, h, rfl⟩

/-- Writing the same journal ends alike in related states. -/
lemma alike_write (journal : Journal) (h : R s t) :
    Alike R (Act.write journal s) (Act.write journal t) := ⟨rfl, h, rfl⟩

/-- Changes that keep states related end alike. -/
lemma alike_modify {f : σ → σ} {g : τ → τ} (h : R (f s) (g t)) :
    Alike R (Act.modify f s) (Act.modify g t) := ⟨rfl, h, rfl⟩

/-- Two actions with an end of their own, each followed by another.  Their results need not be
equal, as long as they fail together and what follows ends alike. -/
lemma alike_bind {first : Act σ α} {second : Act τ γ} {next : α → Act σ β} {other : γ → Act τ β}
    (hrelated : R (first s).2.1 (second t).2.1)
    (hmoves : (first s).2.2.moves = (second t).2.2.moves)
    (hfault : ∀ fault, (first s).1 = .error fault → (second t).1 = .error fault)
    (hnext : ∀ a, (first s).1 = .ok a → ∃ c, (second t).1 = .ok c ∧
      ∀ s t, R s t → Alike R (next a s) (other c t)) :
    Alike R ((first >>= next) s) ((second >>= other) t) := by
  rcases hfirst : first s with ⟨result, u, journal⟩
  rcases hsecond : second t with ⟨result', v, journal'⟩
  rw [hfirst, hsecond] at hrelated hmoves hfault hnext
  cases result with
  | error fault =>
    obtain rfl : result' = .error fault := hfault fault rfl
    rw [bind_error hfirst, bind_error hsecond]
    exact ⟨rfl, hrelated, hmoves⟩
  | ok a =>
    obtain ⟨c, hc, hfollows⟩ := hnext a rfl
    obtain rfl : result' = .ok c := hc
    obtain ⟨hresult, hrelated', hmoves'⟩ := hfollows u v hrelated
    rw [bind_ok hfirst, bind_ok hsecond]
    refine ⟨hresult, hrelated', ?_⟩
    rw [Journal.moves_append, Journal.moves_append, hmoves, hmoves']

/-- What follows two actions that end alike ends alike if it does so from related states. -/
lemma Alike.bind {first : Act σ α} {second : Act τ α} {next : α → Act σ β}
    {other : α → Act τ β} (h : Alike R (first s) (second t))
    (hnext : ∀ a s t, R s t → Alike R (next a s) (other a t)) :
    Alike R ((first >>= next) s) ((second >>= other) t) := by
  refine alike_bind h.related h.moves_eq ?_ ?_
  · intro fault hfault
    rw [← h.result_eq, hfault]
  · intro a ha
    exact ⟨a, by rw [← h.result_eq, ha], hnext a⟩

/-- Actions that go on with their own states. -/
lemma alike_state {next : σ → Act σ α} {other : τ → Act τ α} (h : Alike R (next s s) (other t t)) :
    Alike R ((Act.state >>= next) s) ((Act.state >>= other) t) := h

end Act

/-! ### Scripts on two stages -/

namespace Script

variable {σ τ α : Type} {R : σ → τ → Prop}

/-- From related states, the stages do everything alike. -/
structure Stage.Lockstep (first : Stage σ) (second : Stage τ) (R : σ → τ → Prop) : Prop where
  settings_eq : ∀ {s t}, R s t → first.settings s = second.settings t
  aborted_eq : ∀ {s t}, R s t → first.aborted s = second.aborted t
  drive : ∀ left right {s t}, R s t →
    Act.Alike R (first.drive left right s) (second.drive left right t)
  wait : ∀ time {s t}, R s t → Act.Alike R (first.wait time s) (second.wait time t)

/-- Every script is acted out alike on two stages in lockstep. -/
theorem alike_play {first : Stage σ} {second : Stage τ} (h : first.Lockstep second R)
    (script : Script α) {s : σ} {t : τ} (hst : R s t) :
    Act.Alike R (script.play first s) (script.play second t) := by
  induction script generalizing s t with
  | finish a => exact Act.alike_pure a hst
  | fail fault => exact Act.alike_fail fault hst
  | note n next ih => exact (Act.alike_write [.note n] hst).bind fun _ _ _ => ih
  | consult next ih =>
    -- both stages read the same settings, so they go on with the same script
    have hfirst : (consult next).play first s = (next (second.settings t)).play first s := by
      rw [← h.settings_eq hst]
      rfl
    rw [hfirst]
    exact ih (second.settings t) hst
  | poll next ih =>
    have hfirst : (poll next).play first s = (next (second.aborted t)).play first s := by
      rw [← h.aborted_eq hst]
      rfl
    rw [hfirst]
    exact ih (second.aborted t) hst
  | drive left right next ih => exact (h.drive left right hst).bind fun _ _ _ => ih
  | wait time next ih => exact (h.wait time hst).bind fun _ _ _ => ih

end Script

end PenRover

import PenRover.Act

/-!
# Scripts

A script is what the robot is told to do: it drives and waits, reads the settings and the abort flag
at the moments when they matter, and leaves notes.  It says nothing about what happens meanwhile.
`Script.play` acts it out on a stage, which does.
-/

namespace PenRover

/-- A script with a result. -/
inductive Script (α : Type) where
  /-- The end with a result. -/
  | finish (result : α)
  /-- The end with a fault. -/
  | fail (fault : Fault)
  | note (note : Note) (next : Script α)
  /-- Reads the settings. -/
  | consult (next : Settings → Script α)
  /-- Reads the abort flag. -/
  | poll (next : Bool → Script α)
  /-- Requests powers for the wheels. -/
  | drive (left right : Value) (next : Script α)
  | wait (time : Value) (next : Script α)

namespace Script

variable {α β : Type}

/-- One script after another. -/
protected def bind : Script α → (α → Script β) → Script β
  | .finish a, f => f a
  | .fail fault, _ => .fail fault
  | .note n next, f => .note n (next.bind f)
  | .consult next, f => .consult fun settings => (next settings).bind f
  | .poll next, f => .poll fun aborted => (next aborted).bind f
  | .drive left right next, f => .drive left right (next.bind f)
  | .wait time next, f => .wait time (next.bind f)

instance : Monad Script where
  pure := .finish
  bind := Script.bind

/-- The script that ends as a computation did. -/
def ofExcept : Except Fault α → Script α
  | .ok a => .finish a
  | .error fault => .fail fault

/-- Leaves a note. -/
def say (n : Note) : Script Unit := .note n (.finish ())

/-- The settings at this moment. -/
def settings : Script Settings := .consult .finish

/-- The abort flag at this moment. -/
def aborted : Script Bool := .poll .finish

/-- Requests powers. -/
def go (left right : Value) : Script Unit := .drive left right (.finish ())

/-- Requests a stop of the motors. -/
def halt : Script Unit := go (.int 0) (.int 0)

/-- Waits. -/
def pause (time : Value) : Script Unit := .wait time (.finish ())

/-- What a script needs of the place where it is played. -/
structure Stage (σ : Type) where
  settings : σ → Settings
  aborted : σ → Bool
  drive : Value → Value → Act σ Unit
  /-- A wait from its beginning to its end, with all that happens meanwhile. -/
  wait : Value → Act σ Unit

/-- Acts a script out. -/
def play {σ : Type} (stage : Stage σ) : Script α → Act σ α
  | .finish a => Act.pure a
  | .fail fault => Act.fail fault
  | .note n next => do
    Act.write [.note n]
    next.play stage
  | .consult next => fun s => (next (stage.settings s)).play stage s
  | .poll next => fun s => (next (stage.aborted s)).play stage s
  | .drive left right next => do
    stage.drive left right
    next.play stage
  | .wait time next => do
    stage.wait time
    next.play stage

end Script

end PenRover

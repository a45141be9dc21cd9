import PenRover.Numeric.Number
import PenRover.Text.Basic

/-!
# Values

Settings are values of any kind that a JSON text can denote: the settings file is not checked when
it is read, so arithmetic meets values of the wrong kind and has a rule for each of them.  In
products a flag counts as zero or one, and a text or a list is repeated.
-/

namespace PenRover

-- powers are those of the core library, whatever other instances are in sight
attribute [local instance(2000)] instPowNat

/-- A value: JSON with exact integers apart from doubles, and with ordered records. -/
inductive Value where
  | null
  | flag (b : Bool)
  | number (n : Number)
  | text (t : Text)
  | list (items : List Value)
  | record (fields : List (Text × Value))

namespace Value

/-- The kind of a value. -/
def kind : Value → Kind
  | .null => .nothing
  | .flag _ => .flag
  | .number n => n.kind
  | .text _ => .text
  | .list _ => .list
  | .record _ => .record

/-- The integer value. -/
def int (n : Int) : Value := .number (.int n)

/-- The double value. -/
def double (x : Float) : Value := .number (.double x)

/-- A value that counts as true: not null, false, zero or empty. -/
def isTrue : Value → Bool
  | .null => false
  | .flag b => b
  | .number n => !n.isZero
  | .text t => !t.isEmpty
  | .list items => !items.isEmpty
  | .record fields => !fields.isEmpty

/-- The number that a number or a flag stands for in arithmetic. -/
def number? : Value → Option Number
  | .number n => some n
  | .flag b => some (.int (if b then 1 else 0))
  | _ => none

/-- The opposite of a value. -/
def negate (v : Value) : Except Fault Value :=
  match v.number? with
  | some n => .ok (.number n.neg)
  | none => .error (.cannotNegate v.kind)

/-- The greatest length to which a text or a list is repeated. -/
def maxRepeated : Nat := 2 ^ (40 : Nat)

/-- A list repeated; a count that is not positive leaves nothing. -/
def repeatList {α : Type} (count : Int) (items : List α) : Except Fault (List α) :=
  if count < -(2 ^ (63 : Nat)) ∨ 2 ^ (63 : Nat) ≤ count then .error .repeatedTooOften
  else if items.isEmpty then .ok []
  else if maxRepeated < count * items.length then .error .outOfMemory
  else .ok (List.replicate count.toNat items).flatten

/-- A value repeated an integral number of times; numbers are multiplied. -/
def repeated (v : Value) (count : Int) (mismatch : Fault) : Except Fault Value :=
  match v with
  | .text t => return .text (← repeatList count t)
  | .list items => return .list (← repeatList count items)
  | _ => .error mismatch

/-- The product of an integer and a value. -/
def scale (factor : Int) (v : Value) : Except Fault Value :=
  match v.number? with
  | some n => return .number (← Number.mul (.int factor) n)
  | none => v.repeated factor (.cannotMultiply .integer v.kind)

/-- The product of a value and a number. -/
def times (v : Value) (n : Number) : Except Fault Value :=
  match v.number?, n with
  | some m, _ => return .number (← Number.mul m n)
  | none, .int count => v.repeated count (.cannotMultiply v.kind .integer)
  | none, .double _ =>
    match v with
    | .text _ | .list _ => .error .cannotRepeat
    | _ => .error (.cannotMultiply v.kind .double)

/-- The field of a record with this name. -/
def field? (name : Text) (fields : List (Text × Value)) : Option Value :=
  (fields.find? fun f => f.1 == name).map (·.2)

/-- The record with a field set: in its place when it is there, at the end otherwise. -/
def setField (name : Text) (v : Value) : List (Text × Value) → List (Text × Value)
  | [] => [(name, v)]
  | (n, w) :: rest => if n == name then (n, v) :: rest else (n, w) :: setField name v rest

end Value

end PenRover

import PenRover.Text.DecimalDigit

/-!
# Options

How the words of a command line are told apart.  An option has names of one letter after one dash
and long names after two.  A long name may be cut short as long as it fits one option only; a value
is attached with an equals sign or follows as the next word.  Letters of options without a value
may share a dash.  After a bare double dash no word is an option any more.
-/

namespace PenRover

/-- An option: what it stands for, its names, and whether it takes a value. -/
structure OptionSpec (κ : Type) where
  key : κ
  names : List String
  takesValue : Bool

/-- A word of a command line by what it looks like. -/
inductive WordKind (κ : Type) where
  | plain
  /-- The bare double dash. -/
  | divider
  /-- An option, whether letters may be attached to it, and what is attached. -/
  | option (spec : OptionSpec κ) (byLetter : Bool) (attached : Option Text)
  /-- It looks like an option but is none. -/
  | unknown

namespace Options

variable {κ : Type}

/-- The dash of an option. -/
def dash : CodePoint := CodePoint.ofChar '-'

/-- The code points of the equals sign. -/
def equals : CodePoint := CodePoint.ofChar '='

/-- The part before the first equals sign and the part after it. -/
def splitEquals (word : Text) : Text × Option Text :=
  match word.span (· != equals) with
  | (name, []) => (name, none)
  | (name, _ :: value) => (name, some value)

/-- The text is a negative number: a dash and decimal digits, with at most one point before the last
of them.  A line feed may end it. -/
def isNegativeNumber (word : Text) : Bool :=
  let number := match word.getLast? with
    | some c => if c = CodePoint.ofChar '\n' then word.dropLast else word
    | none => word
  match number with
  | [] => false
  | c :: rest =>
    c == dash && match rest.span (· != CodePoint.ofChar '.') with
      | (digits, []) => (Text.numeral? digits).isSome && digits.all (·.digit?.isSome)
      | (whole, _ :: fraction) =>
        whole.all (·.digit?.isSome) && fraction.all (·.digit?.isSome) && !fraction.isEmpty

/-- The option with this full name. -/
def named? (specs : List (OptionSpec κ)) (name : Text) : Option (OptionSpec κ) :=
  specs.find? fun spec => spec.names.any fun n => name == Text.ofString n

/-- The options with a name that begins like this, once for each such name. -/
def beginning (specs : List (OptionSpec κ)) (start : Text) : List (OptionSpec κ) :=
  specs.flatMap fun spec =>
    (spec.names.filter fun n => start.isPrefixOf (Text.ofString n)).map fun _ => spec

/-- The options that a word names in part, with what is then attached to them: the options with a
long name that begins like the word, or the option with its first letter. -/
def abbreviated (specs : List (OptionSpec κ)) (word : Text) :
    List (OptionSpec κ × Bool × Option Text) :=
  match word with
  | a :: b :: rest =>
    if b = dash then
      let (start, attached) := splitEquals word
      (beginning specs start).map fun spec => (spec, false, attached)
    else (named? specs [a, b]).toList.map fun spec => (spec, true, some rest)
  | _ => []

/-- What a word looks like; none when it fits several options. -/
def kindOf? (specs : List (OptionSpec κ)) (word : Text) : Option (WordKind κ) :=
  match word with
  | [] => some .plain
  | [_] => some .plain
  | c :: d :: _ =>
    if c ≠ dash then some .plain
    else
      match named? specs word, splitEquals word with
      | some spec, _ => some (.option spec (d != dash) none)
      | none, (name, attached) =>
        match attached.bind fun _ => named? specs name with
        | some spec => some (.option spec false attached)
        | none =>
          match abbreviated specs word with
          | [(spec, letter, attached)] => some (.option spec letter attached)
          | _ :: _ :: _ => none
          | [] =>
            if isNegativeNumber word || word.contains (CodePoint.ofChar ' ') then some .plain
            else some .unknown

/-- The words with what they look like; none when one of them fits several options. -/
def kinds? (specs : List (OptionSpec κ)) : List Text → Option (List (Text × WordKind κ))
  | [] => some []
  | word :: rest =>
    if word = [dash, dash] then some ((word, .divider) :: rest.map fun w => (w, .plain))
    else do
      let kind ← kindOf? specs word
      return (word, kind) :: (← kinds? specs rest)

/-- What a word with options comes to: each option that is complete with its value, the option whose
value has to follow, and whether letters are left over that are no options. -/
structure Effect (κ : Type) where
  complete : List (κ × Option Text)
  pending : Option κ
  surplus : Bool

namespace Effect

/-- The effect of one option. -/
def single (key : κ) (value : Option Text) : Effect κ := ⟨[(key, value)], none, false⟩

/-- An option without a value, and then an effect. -/
def after (key : κ) (effect : Effect κ) : Effect κ :=
  { effect with complete := (key, none) :: effect.complete }

/-- The effect of an option with nothing attached. -/
def bare (spec : OptionSpec κ) : Effect κ :=
  if spec.takesValue then ⟨[], some spec.key, false⟩ else single spec.key none

end Effect

/-- The effect of an option followed by this text.  The text is a value, or else letters of more
options; a value may stand behind a letter and an equals sign.  None when it is neither. -/
def attach? (specs : List (OptionSpec κ)) (spec : OptionSpec κ) (byLetter : Bool) :
    Text → Option (Effect κ)
  | [] => if spec.takesValue then some (.single spec.key (some [])) else none
  | c :: rest =>
    if spec.takesValue then some (.single spec.key (some (c :: rest)))
    else if !byLetter || c == dash then none
    else match named? specs [dash, c] with
      | none => some ⟨[(spec.key, none)], none, true⟩
      | some next =>
        match rest with
        | [] => some (.after spec.key (.bare next))
        | d :: more =>
          if d = equals then
            if next.takesValue then some (.after spec.key (.single next.key (some more))) else none
          else (attach? specs next true (d :: more)).map (.after spec.key)

/-- The effect of an option with what is attached to it. -/
def effect? (specs : List (OptionSpec κ)) (spec : OptionSpec κ) (byLetter : Bool) :
    Option Text → Option (Effect κ)
  | some attached => attach? specs spec byLetter attached
  | none => some (.bare spec)

end Options

end PenRover

import ContractNet.Text.Integer
import ContractNet.Text.Quoted

/-!
# Flags of a command line

A command has flags, and each flag changes one of its options.  `Flag.parse` reads flags from the
front of the arguments, up to the first argument that is none or to `--`.  A flag is written with
one or two dashes; its value follows after `=` or as the next argument, and a switch needs none.

`Flag.describe` lists the flags with their meanings.
-/

namespace ContractNet

/-- How a flag changes the options `σ` of its command. -/
inductive FlagEffect (σ : Type) where
  | text (set : σ → Text → σ)
  | switch (set : σ → Bool → σ)
  | number (set : σ → Int → σ)

/-- A flag. -/
structure Flag (σ : Type) where
  name : Text
  /-- What the flag is for. -/
  purpose : Text
  effect : FlagEffect σ
  /-- The value of the option without the flag, as it is shown; empty if it is not. -/
  usual : Text := []

/-- Why arguments cannot be read. -/
inductive FlagError where
  /-- The arguments ask for help. -/
  | help
  | badSyntax (argument : Text)
  | unknown (name : Text)
  | noValue (name : Text)
  | badSwitch (name value : Text)
  | badNumber (name value : Text) (why : Text.IntegerError)
deriving DecidableEq

/-- Why a number is refused. -/
def numberFault : Text.IntegerError → Text
  | .invalidSyntax => "parse error"
  | .outOfRange => "value out of range"

/-- Wording of the errors; a call for help has none. -/
def FlagError.message : FlagError → Text
  | help => []
  | badSyntax a => "bad flag syntax: " ++ a ++ "\n"
  | unknown n => "flag provided but not defined: -" ++ n ++ "\n"
  | noValue n => "flag needs an argument: -" ++ n ++ "\n"
  | badSwitch n v => "invalid boolean value " ++ v.quoted ++ " for -" ++ n ++ ": parse error\n"
  | badNumber n v why =>
    "invalid value " ++ v.quoted ++ " for flag -" ++ n ++ ": " ++ numberFault why ++ "\n"

namespace Flag

/-- The truth value that a text stands for. -/
def switchValue? (t : Text) : Option Bool :=
  if ([("1" : Text), "t", "T", "TRUE", "true", "True"]).contains t then some true
  else if ([("0" : Text), "f", "F", "FALSE", "false", "False"]).contains t then some false
  else none

/-- What an argument is. -/
inductive Shape where
  /-- No flag: flags end before it. -/
  | operand
  /-- The mark after which no flags come. -/
  | stop
  | malformed
  /-- A flag, perhaps with a value. -/
  | flag (name : Text) (value : Option Text)
deriving DecidableEq

/-- The name and the value of a flag without its dashes. -/
def splitValue (t : Text) : Text × Option Text :=
  let name := t.takeWhile (· ≠ '='.toUInt8)
  if name.length = t.length then (name, none) else (name, some (t.drop (name.length + 1)))

/-- What an argument is. -/
def shape (a : Text) : Shape :=
  match a with
  | [0x2d, 0x2d] => .stop
  | 0x2d :: b :: r =>
    let body := if b = '-' then r else b :: r
    if body.head?.all fun c => c = '-'.toUInt8 || c = '='.toUInt8 then .malformed
    else
      let (name, value) := splitValue body
      .flag name value
  | _ => .operand

variable {σ : Type}

/-- Change the options by a flag with a value. -/
def apply (f : Flag σ) (o : σ) (value : Text) : Except FlagError σ :=
  match f.effect with
  | .text set => .ok (set o value)
  | .switch set =>
    match switchValue? value with
    | some b => .ok (set o b)
    | none => .error (.badSwitch f.name value)
  | .number set =>
    match Text.readInt64 true value with
    | .ok n => .ok (set o n)
    | .error e => .error (.badNumber f.name value e)

/-- The flag is one that needs no value. -/
def isSwitch (f : Flag σ) : Bool :=
  match f.effect with
  | .switch _ => true
  | _ => false

/-- The flag with a name. -/
def find (flags : List (Flag σ)) (name : Text) : Except FlagError (Flag σ) :=
  match flags.find? fun f => f.name = name with
  | some f => .ok f
  | none =>
    if name = Text.ofString "help" || name = Text.ofString "h" then .error .help
    else .error (.unknown name)

/-- Read flags from the front of the arguments: the options and the arguments that are left. -/
def parse (flags : List (Flag σ)) (o : σ) : List Text → Except FlagError (σ × List Text)
  | [] => .ok (o, [])
  | a :: rest =>
    match shape a with
    | .operand => .ok (o, a :: rest)
    | .stop => .ok (o, rest)
    | .malformed => .error (.badSyntax a)
    | .flag name value => do
      let f ← find flags name
      match value with
      | some v => parse flags (← f.apply o v) rest
      | none =>
        if f.isSwitch then parse flags (← f.apply o "true") rest
        else match rest with
          | v :: rest' => parse flags (← f.apply o v) rest'
          | [] => .error (.noValue name)

/-! ### Description -/

/-- The kind of value that a flag takes, after a space; nothing for a switch. -/
def valueName (f : Flag σ) : Text :=
  match f.effect with
  | .text _ => " string"
  | .switch _ => []
  | .number _ => " int"

/-- What is said about a flag. -/
def line (f : Flag σ) : Text :=
  let front : Text := "  -" ++ f.name ++ f.valueName
  let gap : Text := if front.length ≤ 4 then "\t" else "\n    \t"
  let usual : Text := if f.usual.isEmpty then [] else " (default " ++ f.usual ++ ")"
  front ++ gap ++ f.purpose ++ usual ++ "\n"

/-- What is said about all flags, in the order of their names. -/
def describe (flags : List (Flag σ)) : Text :=
  ((flags.mergeSort fun a b => Text.le a.name b.name).map line).flatten

end Flag

end ContractNet

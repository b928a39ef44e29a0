import ContractNet.Expr.Token
import ContractNet.Text.Blank

/-!
# Variables of an expression

Which variables an expression reads, and the replacement of one of them on token boundaries.
A name after a dot is a member and no variable; a name before an opening parenthesis is called
and not read.

* `Expr.substitute` replaces the variable occurrences of a name and leaves all other text as
  it is;
* `Expr.identifiers` lists the variables that are read, each once;
* `Expr.freshName` finds a name that the expression does not use;
* `Expr.firstArgument` cuts an argument list at its first comma outside of brackets;
* `Expr.isAssignment` and `Expr.compoundOperator` tell the operators that write a variable.
-/

namespace ContractNet.Expr

/-- A token with what its neighbours say about it. -/
structure Occurrence where
  token : Token
  /-- It follows a dot. -/
  isMember : Bool
  /-- An opening parenthesis follows. -/
  isCalled : Bool

/-- The tokens with their neighbours; `afterDot` tells whether a dot stands before the first. -/
def occurrences (afterDot : Bool) : List Token → List Occurrence
  | [] => []
  | t :: ts => ⟨t, afterDot, ts.head?.any (Token.isPunct "(")⟩ :: occurrences (t.isPunct ".") ts

/-- The occurrence is the variable `name`. -/
def Occurrence.names (name : Text) (o : Occurrence) : Bool :=
  o.token.kind = .ident && o.token.literal = name && !o.isMember

/-- Copy `e` from position `last` on, with `new` in place of the tokens that are the variable
`name`. -/
def spliced (e name new : Text) (last : Nat) : List Occurrence → Text
  | [] => e.drop last
  | o :: os =>
    if o.names name then
      (e.drop last).take (o.token.pos - last) ++ new ++ spliced e name new o.token.endPos os
    else spliced e name new last os

/-- Put `new` in place of every occurrence of the variable `name`. -/
def substitute (e name new : Text) : Text :=
  if name = [] then e else spliced e name new 0 (occurrences false (tokenize e))

/-- Words of the language that look like identifiers and name no variable. -/
def keywords : List Text :=
  ["true", "false", "new", "delete", "this", "super", "wei", "gwei", "ether",
    "seconds", "minutes", "hours", "days", "weeks"]

/-- The occurrence reads a variable. -/
def Occurrence.isRead (o : Occurrence) : Bool :=
  o.token.kind = .ident && !o.isMember && !o.isCalled && !keywords.contains o.token.literal

/-- The variables that an expression reads, in the order of their first appearance. -/
def identifiers (e : Text) : List Text :=
  (((occurrences false (tokenize e)).filter Occurrence.isRead).map (·.token.literal)).eraseDups

/-- The identifier that an assignable expression such as `balances[msg.sender]` starts with;
empty if it starts with none. -/
def baseIdentifier (e : Text) : Text :=
  match tokenize e with
  | t :: _ => if t.kind = .ident then t.literal else []
  | [] => []

/-- The spellings of all identifier tokens, members and called names included. -/
def usedNames (e : Text) : List Text :=
  ((tokenize e).filter (·.kind = .ident)).map (·.literal)

/-- `base` if the expression does not use it, else the first of `base_`, `base1`, `base2`, …
that it does not use.  One more number than there are used names is enough. -/
def freshName (e base : Text) : Text :=
  let used := usedNames e
  let numbered := (List.range (used.length + 1)).map fun i => base ++ Text.decimal (i + 1)
  ((base :: (base ++ "_") :: numbered).find? fun n => !used.contains n).getD base

/-- How a token changes the bracket depth. -/
def bracketStep (t : Token) : Int :=
  if t.kind ≠ .punct then 0
  else if t.literal ∈ (["(", "[", "\x7b"] : List Text) then 1
  else if t.literal ∈ ([")", "]", "\x7d"] : List Text) then -1
  else 0

/-- The position of the first comma at depth 0, starting from `depth`. -/
def commaPos? (depth : Int) : List Token → Option Nat
  | [] => none
  | t :: ts =>
    if t.isPunct "," && depth = 0 then some t.pos else commaPos? (depth + bracketStep t) ts

/-- The text before the first comma outside of brackets and strings, trimmed. -/
def firstArgument (args : Text) : Text :=
  match commaPos? 0 (tokenize args) with
  | some p => Text.trim (args.take p)
  | none => args.trim

/-! ### Assignment operators -/

/-- The assignment operators, each with the binary operator that it applies. -/
def assignments : List (Text × Text) :=
  [("=", ""), ("+=", "+"), ("-=", "-"), ("*=", "*"), ("/=", "/"), ("%=", "%"), ("|=", "|"),
    ("&=", "&"), ("^=", "^"), ("<<=", "<<"), (">>=", ">>"), (">>>=", ">>>")]

/-- `op` assigns. -/
def isAssignment (op : Text) : Bool := (assignments.lookup op).isSome

/-- The binary operator that an assignment applies: `+` for `+=`, nothing for `=` and for all that
does not assign. -/
def compoundOperator (op : Text) : Text := (assignments.lookup op).getD []

end ContractNet.Expr

import ContractNet.Text.Quoted

/-!
# Tokens of an expression

The text of a contract expression is cut into identifiers, numbers, quoted strings and
punctuation, with their byte positions, so that identifiers can be found and replaced on token
boundaries.

A byte is classified as the Latin-1 character of that number, and a NUL byte ends the expression.
Every other byte is white space or belongs to exactly one token: no expression is rejected.
-/

namespace ContractNet.Expr

/-- The classes of tokens. -/
inductive Kind where
  /-- The end of the expression. -/
  | stop
  /-- `balance`, `msg`, `_owner` -/
  | ident
  /-- `42`, `0xff`, `1e18` -/
  | number
  /-- A literal with its quotes. -/
  | string
  /-- Operators and delimiters. -/
  | punct
deriving DecidableEq

/-- The number under which a class is shown. -/
def Kind.code : Kind → Nat
  | stop => 0
  | ident => 1
  | number => 2
  | string => 3
  | punct => 4

/-- A token with the byte position of its first byte. -/
structure Token where
  kind : Kind
  literal : Text
  pos : Nat
deriving DecidableEq

namespace Token

/-- The byte position just past the token. -/
def endPos (t : Token) : Nat := t.pos + t.literal.length

/-- The token for people to read: class, quoted literal and position. -/
def describe (t : Token) : Text :=
  "Token\x7b" ++ Text.decimal t.kind.code ++ ", " ++ t.literal.quoted ++ ", " ++
    Text.decimal t.pos ++ "\x7d"

/-- The token is the punctuation mark `p`. -/
def isPunct (p : Text) (t : Token) : Bool := t.kind = .punct && t.literal = p

end Token

/-! ### Classes of bytes -/

/-- Letters of Latin-1. -/
def isLetter (b : UInt8) : Bool :=
  ('a'.toUInt8 ≤ b && b ≤ 'z'.toUInt8) || ('A'.toUInt8 ≤ b && b ≤ 'Z'.toUInt8) ||
    b = 0xaa || b = 0xb5 || b = 0xba || (0xc0 ≤ b && b ≠ 0xd7 && b ≠ 0xf7)

/-- Bytes that an identifier starts with. -/
def isIdentStart (b : UInt8) : Bool := isLetter b || b = '_'.toUInt8 || b = '$'.toUInt8

/-- Bytes that an identifier goes on with. -/
def isIdentByte (b : UInt8) : Bool := isIdentStart b || Text.isDigit b

/-- Bytes that a number goes on with. -/
def isNumberByte (b : UInt8) : Bool :=
  Text.isDigit b || isLetter b || b = '_'.toUInt8 || b = '.'.toUInt8

/-- The quotes of a string. -/
def isQuote (b : UInt8) : Bool := b = 0x22 || b = 0x27

/-- White space between tokens. -/
def isSpace (b : UInt8) : Bool := b = 0x20 || b = 0x09 || b = 0x0a || b = 0x0d

/-! ### Lexemes -/

/-- The class of the token that starts with `b`. -/
def kindOf (b : UInt8) : Kind :=
  if isIdentStart b then .ident
  else if Text.isDigit b then .number
  else if isQuote b then .string
  else .punct

/-- Operators of more than one byte, a longer one before those that it starts with. -/
def operators : List Text :=
  [">>>=", "<<=", ">>=", ">>>",
    "**", "==", "!=", "<=", ">=", "&&", "||", "++", "--", "=>",
    "+=", "-=", "*=", "/=", "%=", "|=", "&=", "^=", "<<", ">>"]

/-- How many bytes belong to a string after its opening quote `q`: up to and with the next `q`
that no backslash escapes, or all. -/
def stringLength (q : UInt8) : Text → Nat
  | [] => 0
  | b :: r =>
    if b = q then 1
    else if b = '\\' then
      match r with
      | [] => 1
      | _ :: r' => 2 + stringLength q r'
    else 1 + stringLength q r

/-- How many bytes of `r` belong to the token that starts with `b`, where `r` follows `b`. -/
def tailLength (b : UInt8) (r : Text) : Nat :=
  match kindOf b with
  | .ident => (r.takeWhile isIdentByte).length
  | .number => (r.takeWhile isNumberByte).length
  | .string => stringLength b r
  | _ =>
    match operators.find? (Text.startsWith (b :: r)) with
    | some op => op.length - 1
    | none => 0

/-- The tokens of a text without NUL bytes that stands at position `pos`. -/
def tokensAt (pos : Nat) : Text → List Token
  | [] => [⟨.stop, [], pos⟩]
  | b :: r =>
    if isSpace b then tokensAt (pos + 1) r
    else
      let n := tailLength b r
      ⟨kindOf b, b :: r.take n, pos⟩ :: tokensAt (pos + 1 + n) (r.drop n)
termination_by t => t.length
decreasing_by all_goals simp; try omega

/-- The part of a text before its first NUL byte. -/
def visible (t : Text) : Text := t.takeWhile (· ≠ 0)

/-- The tokens of an expression; the last one is its end. -/
def tokenize (t : Text) : List Token := tokensAt 0 (visible t)

end ContractNet.Expr

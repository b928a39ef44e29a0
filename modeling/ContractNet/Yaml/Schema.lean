import ContractNet.Text.Integer

/-!
# What a plain scalar means

A plain scalar may be more than a text: a truth value, a null, a number or a point in time.
`Yaml.resolve` decides which, for a scalar without a tag and for one whose tag asks for a kind.
-/

namespace ContractNet.Yaml

/-- The kinds of scalars that have a meaning of their own. -/
inductive Kind where
  | string | bool | int | float | null | timestamp
deriving DecidableEq

/-- The tag of a kind. -/
def Kind.tag : Kind → Text
  | string => "!!str"
  | bool => "!!bool"
  | int => "!!int"
  | float => "!!float"
  | null => "!!null"
  | timestamp => "!!timestamp"

/-- The kind that a tag names. -/
def Kind.ofTag? (t : Text) : Option Kind :=
  [Kind.string, .bool, .int, .float, .null, .timestamp].find? fun k => k.tag = t

/-- The long form of the tags that start with two exclamation marks. -/
def longStem : Text := "tag:yaml.org,2002:"

/-- The short form of a tag, if it has one. -/
def shortTag (t : Text) : Text :=
  match Text.after? longStem t with
  | some name => "!!" ++ name
  | none => t

/-! ### Words -/

/-- The words for true. -/
def trueWords : List Text := ["true", "True", "TRUE"]

/-- The words for false. -/
def falseWords : List Text := ["false", "False", "FALSE"]

/-- The words for true in older rules. -/
def oldTrueWords : List Text := ["y", "Y", "yes", "Yes", "YES", "on", "On", "ON"]

/-- The words for false in older rules. -/
def oldFalseWords : List Text := ["n", "N", "no", "No", "NO", "off", "Off", "OFF"]

/-- The words for nothing. -/
def nullWords : List Text := ["", "~", "null", "Null", "NULL"]

/-- The words for numbers that no digits tell. -/
def floatWords : List Text :=
  [".nan", ".NaN", ".NAN", ".inf", ".Inf", ".INF",
    "+.inf", "+.Inf", "+.INF", "-.inf", "-.Inf", "-.INF"]

/-- The kind of a word that stands for itself. -/
def wordKind? (t : Text) : Option Kind :=
  if trueWords.contains t || falseWords.contains t then some .bool
  else if nullWords.contains t then some .null
  else if floatWords.contains t then some .float
  else none

/-! ### Decimal fractions -/

/-- A text without its underscores. -/
def dropUnderscores (t : Text) : Text := t.filter (· ≠ '_'.toUInt8)

/-- The parts of a decimal fraction in digits: before and after the point, and the exponent. -/
structure Fraction where
  whole : Text
  part : Text
  exponent : Int

/-- Read an exponent: `e`, a sign and digits; nothing stands for zero. -/
def readExponent : Text → Option Int
  | [] => some 0
  | e :: r =>
    let digits := Text.dropSign r
    if (e = 'e' || e = 'E') && !digits.isEmpty && digits.all Text.isDigit then
      let n : Int := Text.digitsValue digits
      some (if Text.startsWith r "-" then -n else n)
    else none

/-- Read a decimal fraction without a sign. -/
def readFraction (t : Text) : Option Fraction :=
  let whole := t.takeWhile Text.isDigit
  let r := t.drop whole.length
  match r with
  | 0x2e :: r' =>
    let part := r'.takeWhile Text.isDigit
    if whole.isEmpty && part.isEmpty then none
    else (readExponent (r'.drop part.length)).map fun e => ⟨whole, part, e⟩
  | _ => if whole.isEmpty then none else (readExponent r).map fun e => ⟨whole, [], e⟩

/-- The fraction is below the numbers that round to infinity in 64 bits. -/
def Fraction.isFinite (f : Fraction) : Bool :=
  let digits := (f.whole ++ f.part).dropWhile (· = '0'.toUInt8)
  let size : Int := digits.length + f.exponent - f.part.length
  let limit := Nat.pow 2 1024 - Nat.pow 2 970
  if digits.isEmpty then true
  else if size ≤ 308 then true
  else if 310 ≤ size then false
  else
    let scale := f.exponent - f.part.length
    let n := Text.digitsValue digits
    if 0 ≤ scale then decide (n * Nat.pow 10 scale.toNat < limit)
    else decide (n < limit * Nat.pow 10 (-scale).toNat)

/-- The text is a decimal fraction with an optional sign that 64 bits can hold. -/
def isFloat (t : Text) : Bool := (readFraction (Text.dropSign t)).any Fraction.isFinite

/-- The same for a fraction that starts with its point; underscores may stand between digits. -/
def isPointFloat (t : Text) : Bool :=
  Text.underscoresWell t && isFloat (dropUnderscores t)

/-! ### Integers -/

/-- The text is a 64-bit integer with or without a sign and a mark of its base. -/
def isSignedInt (t : Text) : Bool :=
  (Text.readInt64 true t).toBool || marked 2 "0b" "-0b" || marked 8 "0o" "-0o"
where
  /-- A mark of a base, and digits that may have a sign of their own. -/
  marked (base : Nat) (mark minusMark : Text) : Bool :=
    match Text.after? mark t, Text.after? minusMark t with
    | some d, _ => (Text.readDigits64 base d).toBool
    | none, some d => (Text.readDigits64 base ("-" ++ d)).toBool
    | none, none => false

/-- The text is a 64-bit integer without a sign, with or without a mark of its base. -/
def isUnsignedInt (t : Text) : Bool :=
  (Text.readUInt64 true t).toBool || marked 2 "0b" || marked 8 "0o"
where
  /-- A mark of a base, and digits. -/
  marked (base : Nat) (mark : Text) : Bool :=
    match Text.after? mark t with
    | some d => !d.isEmpty && (Text.digits64 base false 0 d).toBool
    | none => false

/-- The text is a 64-bit integer, signed or not. -/
def isInt (t : Text) : Bool := isSignedInt t || isUnsignedInt t

/-! ### Points in time -/

/-- A number of one or two digits below a bound, and what follows it. -/
def readShort (bound : Nat) : Text → Option (Nat × Text)
  | a :: b :: r =>
    if !Text.isDigit a then none
    else
      let (n, rest) :=
        if Text.isDigit b then (Text.digitsValue [a, b], r) else (Text.digitsValue [a], b :: r)
      if n < bound then some (n, rest) else none
  | [a] =>
    if Text.isDigit a && Text.digitsValue [a] < bound then some (Text.digitsValue [a], [])
    else none
  | [] => none

/-- What follows a byte that has to come next. -/
def expect (b : UInt8) : Text → Option Text
  | c :: r => if c = b then some r else none
  | [] => none

/-- The number of days of a month. -/
def daysIn (year month : Nat) : Nat :=
  if month = 2 then (if year % 4 = 0 && (year % 100 ≠ 0 || year % 400 = 0) then 29 else 28)
  else if month = 4 || month = 6 || month = 9 || month = 11 then 30
  else 31

/-- A date: four digits, a month and a day. -/
def readDate (t : Text) : Option Text := do
  let year := t.takeWhile Text.isDigit
  if year.length ≠ 4 then none
  else
    let (month, r) ← expect '-' (t.drop 4) >>= readShort 13
    let (day, r) ← expect '-' r >>= readShort 32
    if month = 0 || day = 0 || daysIn (Text.digitsValue year) month < day then none else pure r

/-- A time of day with an optional fraction of a second. -/
def readTime (t : Text) : Option Text := do
  let (_, r) ← readShort 24 t
  let (_, r) ← expect ':' r >>= readShort 60
  let (_, r) ← expect ':' r >>= readShort 60
  match r with
  | p :: d :: r' =>
    if (p = '.' || p = ',') && Text.isDigit d then pure (r'.dropWhile Text.isDigit) else pure r
  | _ => pure r

/-- The text is a time zone: `Z`, or an offset in hours and minutes. -/
def isZone : Text → Bool
  | [0x5a] => true
  | [s, a, b, c, d, e] =>
    (s = '+' || s = '-') && [a, b, d, e].all Text.isDigit && c = ':' &&
      Text.digitsValue [a, b] ≤ 24 && Text.digitsValue [d, e] ≤ 60
  | _ => false

/-- The text is a date, alone or with a time: after `T` with a zone, after spaces without one. -/
def isTimestamp (t : Text) : Bool :=
  match readDate t with
  | none => false
  | some [] => true
  | some (b :: r) =>
    if b = 'T' || b = 't' then (readTime r).any isZone
    else if b = ' ' then (readTime (r.dropWhile (· = ' '.toUInt8))).any List.isEmpty
    else false

/-! ### Meaning -/

/-- The kind of a plain scalar; `tag` is the kind that its tag asks for, if it has one. -/
def kindOf (tag : Option Kind) (t : Text) : Kind :=
  if tag = some .string then .string
  else match t with
    | [] => .null
    | b :: _ =>
      let signed := b = '+' || b = '-' || Text.isDigit b
      let word := signed || b = '.' || b = '~' || Text.includes "yYnNtTfFoO" [b]
      if !word then .string
      else match wordKind? t with
        | some k => k
        | none =>
          let plain := dropUnderscores t
          if b = '.' then (if isPointFloat t then .float else .string)
          else if !signed then .string
          else if (tag = none || tag = some .timestamp) && isTimestamp t then .timestamp
          else if isInt plain then .int
          else if isFloat plain then .float
          else .string

/-- The kind of a plain scalar, if it is the one that its tag asks for; an integer will do for a
fraction, unless it has no place among the signed ones. -/
def resolve (tag : Option Kind) (t : Text) : Option Kind :=
  let k := kindOf tag t
  match tag with
  | none => some k
  | some asked =>
    if k = asked || asked = .string then some k
    else if asked = .float && k = .int && isSignedInt (dropUnderscores t) then some .float
    else none

/-- The text would be something else than a text if it stood plain, now or by older rules. -/
def needsQuotes (t : Text) : Bool :=
  kindOf none t ≠ .string || oldTrueWords.contains t || oldFalseWords.contains t || isSexagesimal
where
  /-- Digits in groups below sixty after colons. -/
  isSexagesimal : Bool :=
    let s := Text.dropSign t
    let (groups, fraction) := match Text.cut? "." s with
      | some (g, f) => (g, f)
      | none => (s, [])
    let digitOrLine (b : UInt8) := Text.isDigit b || b = '_'
    match Text.splitAt ':' groups with
    | first :: g :: gs =>
      first.head?.any Text.isDigit && first.all digitOrLine && fraction.all digitOrLine &&
        (g :: gs).all fun g =>
          g.all Text.isDigit && (g.length = 1 || (g.length = 2 && g.head?.any (· ≤ '5'.toUInt8)))
    | _ => false

end ContractNet.Yaml

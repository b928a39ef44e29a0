import ContractNet.Json.Basic
import ContractNet.Log.Level
import ContractNet.Text.Blank
import ContractNet.Text.Printable
import ContractNet.Time.Instant

/-!
# Log records

A record has a level, a message and named values.  `LogRecord.line` writes it as one line, in one
of two layouts: names and values joined by `=`, with quotes where a value needs them, or a JSON
object.
-/

namespace ContractNet

/-! ### Durations -/

/-- A number of units in thousandths or finer: the digits after the point without trailing
zeros. -/
def fractionText (places value : Nat) : Text :=
  let digits := Text.padZeros places (Text.decimal value)
  let kept := (digits.reverse.dropWhile (· = '0'.toUInt8)).reverse
  if kept.isEmpty then [] else "." ++ kept

/-- A duration of nanoseconds in the largest units below it. -/
def durationText (ns : Nat) : Text :=
  if ns = 0 then "0s"
  else if ns < 1000 then Text.decimal ns ++ "ns"
  else if ns < 1000000 then Text.decimal (ns / 1000) ++ fractionText 3 (ns % 1000) ++ "µs"
  else if ns < 1000000000 then
    Text.decimal (ns / 1000000) ++ fractionText 6 (ns % 1000000) ++ "ms"
  else
    let seconds := ns / 1000000000
    let rest : Text := Text.decimal (seconds % 60) ++ fractionText 9 (ns % 1000000000) ++ "s"
    let minutes := seconds / 60
    if minutes = 0 then rest
    else if minutes < 60 then Text.decimal minutes ++ "m" ++ rest
    else Text.decimal (minutes / 60) ++ "h" ++ Text.decimal (minutes % 60) ++ "m" ++ rest

/-! ### Records -/

/-- A value of a record. -/
inductive LogValue where
  | text (t : Text)
  | number (n : Int)
  /-- A duration in nanoseconds. -/
  | duration (ns : Nat)
deriving DecidableEq

/-- What happened. -/
structure LogRecord where
  level : Level
  message : Text
  values : List (Text × LogValue) := []
deriving DecidableEq

/-- The layout of log lines. -/
inductive LogFormat where
  | text | json
deriving DecidableEq

/-- What is logged and how. -/
structure Logger where
  format : LogFormat
  /-- Records below this level are left out. -/
  level : Level
deriving DecidableEq

/-- The name of one of the four levels that records have. -/
def Level.name (l : Level) : Text :=
  if l = debug then "DEBUG" else if l = info then "INFO" else if l = warn then "WARN" else "ERROR"

/-- The value as a text. -/
def LogValue.toText : LogValue → Text
  | text t => t
  | number n => Text.integer n
  | duration ns => durationText ns

/-! ### Lines -/

/-- A piece of a text that asks for quotes around it. -/
def Piece.wantsQuotes : Piece → Bool
  | .stray _ => true
  | .char c =>
    if c.toNat < 0x80 then c.toNat < 0x20 || c = ' ' || c = '=' || c = '"'
    else c = '\uFFFD' || Text.isBlank (Text.ofChar c) || !Text.isPrintable c

/-- A text in a line of names and values: in quotes if it is empty or some piece asks for them. -/
def logText (t : Text) : Text :=
  if t.isEmpty || t.pieces.any Piece.wantsQuotes then t.quoted else t

/-- A value in a line of names and values. -/
def LogValue.inText : LogValue → Text
  | text t => logText t
  | v => v.toText

/-- A value in a JSON object. -/
def LogValue.inJson : LogValue → Text
  | text t => Json.quote Json.logEscapes t
  | number n => Text.integer n
  | duration ns => Text.decimal ns

/-- The line of a record that was made at a time in a run. -/
def LogRecord.line (r : LogRecord) (format : LogFormat) (time : Instant) (run : Text) : Text :=
  let head : List (Text × LogValue) :=
    [("level", .text r.level.name), ("msg", .text r.message), ("run", .text run)]
  let pairs := head ++ r.values
  match format with
  | .text =>
    let items := pairs.map fun (k, v) => logText k ++ "=" ++ v.inText
    Text.join " " (("time=" ++ time.toMillis) :: items) ++ "\n"
  | .json =>
    let members := ((("time" : Text), LogValue.text time.toText) :: pairs).map fun (k, v) =>
      Json.quote Json.logEscapes k ++ ":" ++ v.inJson
    "\x7b" ++ Text.join "," members ++ "\x7d\n"

/-- The lines of the records that a logger does not leave out. -/
def Logger.lines (l : Logger) (time : Instant) (run : Text) (rs : List LogRecord) : Text :=
  ((rs.filter fun r => l.level.value ≤ r.level.value).map fun r => r.line l.format time run).flatten

end ContractNet

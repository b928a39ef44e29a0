import ContractNet.Xml.Basic
import ContractNet.Text.Quoted

/-!
# Reading XML

A document is read token by token: tags, texts, and parts that are passed over (comments,
processing instructions and other declarations).  `startTag` finds the first element and
`content` reads what stands in it, up to its end tag; nothing after that is read.

Reading is strict: tags nest, attributes are quoted, references are known, and characters are
allowed ones.  A declaration of another version or encoding is refused wherever it stands.
-/

namespace ContractNet.Xml

/-- What is wrong with a document. -/
inductive Fault where
  | endOfInput
  | endInSection
  | badName (name : Text)
  | noElementName
  | noEndName
  | noTarget
  | noAttributeName
  | noEquals
  | noQuote
  | badClose
  | badEndTag (name : Text)
  /-- No character is meant by a reference. -/
  | reference (r : Text)
  | bracketsInText
  | angleInQuotes
  | strayByte
  | notAllowed (c : Char)
  | loneHyphen
  | hyphensInComment
  | badSection
  | unopened (name : Name)
  /-- An element is closed by the end tag of another. -/
  | mismatch (opened closed : Name)
deriving DecidableEq

/-- The code point of a character, in at least four digits. -/
def codePoint (c : Char) : Text :=
  let digits := Text.padZeros 4 (Text.hex c.toNat)
  "U+" ++ digits.map fun b => if 'a'.toUInt8 ≤ b then b - 32 else b

/-- Wording of the faults. -/
def Fault.message : Fault → Text
  | endOfInput => "unexpected EOF"
  | endInSection => "unexpected EOF in CDATA section"
  | badName name => "invalid XML name: " ++ name
  | noElementName => "expected element name after <"
  | noEndName => "expected element name after </"
  | noTarget => "expected target name after <?"
  | noAttributeName => "expected attribute name in element"
  | noEquals => "attribute name without = in element"
  | noQuote => "unquoted or missing attribute value in element"
  | badClose => "expected /> in element"
  | badEndTag name => "invalid characters between </" ++ name ++ " and >"
  | reference r => "invalid character entity " ++ r
  | bracketsInText => "unescaped ]]> not in CDATA section"
  | angleInQuotes => "unescaped < inside quoted string"
  | strayByte => "invalid UTF-8"
  | notAllowed c => "illegal character code " ++ codePoint c
  | loneHyphen => "invalid sequence <!- not part of <!--"
  | hyphensInComment => "invalid sequence \"--\" not allowed in comments"
  | badSection => "invalid <![ sequence"
  | unopened name => "unexpected end element </" ++ name.loc ++ ">"
  | mismatch o c =>
    if o.loc = c.loc then
      "element <" ++ o.loc ++ "> in space " ++ o.space ++ " closed by </" ++ c.loc ++
        "> in space " ++ (if c.space.isEmpty then ("\"\"" : Text) else c.space)
    else "element <" ++ o.loc ++ "> closed by </" ++ c.loc ++ ">"

/-- Why a document cannot be read. -/
inductive ReadError where
  /-- Something is wrong with it; so many bytes were left when that was noticed. -/
  | malformed (fault : Fault) (left : Nat)
  /-- It declares another version. -/
  | version (v : Text)
  /-- It declares another encoding. -/
  | encoding (e : Text)
  /-- It holds no element. -/
  | noElement
deriving DecidableEq

/-- The line of a document at which so many bytes are left. -/
def lineAt (document : Text) (left : Nat) : Nat :=
  1 + (document.take (document.length - left)).count '\n'.toUInt8

/-- Wording of the errors in a document. -/
def ReadError.message (document : Text) : ReadError → Text
  | malformed f left =>
    "XML syntax error on line " ++ Text.decimal (lineAt document left) ++ ": " ++ f.message
  | version v => "xml: unsupported version " ++ v.quoted ++ "; only version 1.0 is supported"
  | encoding e => "xml: encoding " ++ e.quoted ++ " declared but Decoder.CharsetReader is nil"
  | noElement => "EOF"

/-- The document ends too early. -/
def ReadError.tooShort : ReadError := malformed .endOfInput 0

/-- What is there, or an error. -/
def need {α : Type} (e : ReadError) : Option α → Except ReadError α
  | some a => .ok a
  | none => .error e

/-- A start tag. -/
structure Tag where
  name : Name
  attributes : List (Text × Text)
  /-- The element ends with the tag. -/
  closed : Bool

/-- A token of a document. -/
inductive Token where
  | start (tag : Tag)
  | stop (name : Name)
  | text (t : Text)
  /-- A comment, a processing instruction or a declaration. -/
  | skipped

/-! ### Names and white space -/

/-- White space between the parts of a tag. -/
def isSpace (b : UInt8) : Bool := b = 0x20 || b = 0x09 || b = 0x0a || b = 0x0d

/-- Drop white space from the front. -/
def skipSpace (t : Text) : Text := t.dropWhile isSpace

/-- The byte can belong to a name. -/
def isNameByte (b : UInt8) : Bool :=
  0x80 ≤ b || ('a'.toUInt8 ≤ b && b ≤ 'z'.toUInt8) || ('A'.toUInt8 ≤ b && b ≤ 'Z'.toUInt8) ||
    Text.isDigit b || b = '_'.toUInt8 || b = ':'.toUInt8 || b = '.'.toUInt8 || b = '-'.toUInt8

/-- A name at the front; `missing` tells what is wrong without one. -/
def readPlainName (missing : Fault) (t : Text) : Except ReadError (Text × Text) :=
  let name := t.takeWhile isNameByte
  let rest := t.dropWhile isNameByte
  if rest.isEmpty then .error .tooShort
  else if name.isEmpty then .error (.malformed missing rest.length)
  else if isName name then .ok (name, rest)
  else .error (.malformed (.badName name) rest.length)

/-- A name at the front, split at its colon. -/
def readName (missing : Fault) (t : Text) : Except ReadError (Name × Text) := do
  let (name, rest) ← readPlainName missing t
  match Name.ofText? name with
  | some n => pure (n, rest)
  | none => .error (.malformed missing rest.length)

/-! ### Texts -/

/-- The character of a number, if there is one.  The numbers of surrogates stand for U+FFFD. -/
def numbered? (n : Nat) : Option Char :=
  if 0x10ffff < n then none
  else if 0xd800 ≤ n && n < 0xe000 then some '\uFFFD'
  else some (Char.ofNat n)

/-- The character that a reference stands for, given what is between `&` and `;`. -/
def reference? (r : Text) : Option Char :=
  match r with
  | 0x23 :: 0x78 :: ds =>
    if ds.isEmpty then none
    else (ds.mapM Text.hexDigit?).bind fun ds => numbered? (ds.foldl (fun n d => 16 * n + d) 0)
  | 0x23 :: ds =>
    if ds.isEmpty || !ds.all Text.isDigit then none else numbered? (Text.digitsValue ds)
  | _ =>
    if r = "lt" then some '<'
    else if r = "gt" then some '>'
    else if r = "amp" then some '&'
    else if r = "apos" then some '\x27'
    else if r = "quot" then some '"'
    else none

/-- The length of a reference that follows `&`, without its semicolon. -/
def referenceLength : Text → Nat
  | 0x23 :: 0x78 :: ds => 2 + (ds.takeWhile fun b => (Text.hexDigit? b).isSome).length
  | 0x23 :: ds => 1 + (ds.takeWhile Text.isDigit).length
  | t => (t.takeWhile isNameByte).length

/-- The character of a reference after its `&`, and what follows it in the text; `after` follows
the text. -/
def readReference (after t : Text) : Except ReadError (Char × Text) :=
  let body := t.take (referenceLength t)
  match t.drop (referenceLength t) with
  | 0x3b :: rest =>
    match reference? body with
    | some c => .ok (c, rest)
    | none => .error (.malformed (.reference ("&" ++ body ++ ";")) (rest.length + after.length))
  | tail =>
    if tail.isEmpty && after.isEmpty then .error .tooShort
    else
      .error (.malformed (.reference ("&" ++ body ++ " (no semicolon)"))
        (tail.length + after.length))

/-- Replace references, and end lines with a line feed alone; `refs` tells whether there are
references.  The text has at most `fuel` bytes, and `after` follows it. -/
def expand (refs : Bool) (after : Text) : Nat → Text → Except ReadError Text
  | _, [] => .ok []
  | 0, _ => .error .tooShort
  | fuel + 1, 0x0d :: 0x0a :: r => ('\n'.toUInt8 :: ·) <$> expand refs after fuel r
  | fuel + 1, 0x0d :: r => ('\n'.toUInt8 :: ·) <$> expand refs after fuel r
  | fuel + 1, b :: r =>
    if refs && b = '&' then do
      let (c, rest) ← readReference after r
      let t ← expand refs after fuel rest
      pure (Text.ofChar c ++ t)
    else (b :: ·) <$> expand refs after fuel r

/-- A text that may not hold `forbidden`, with its references replaced. -/
def expandWithout (forbidden : Text) (fault : Fault) (after raw : Text) : Except ReadError Text :=
  match Text.cut? forbidden raw with
  | none => expand true after raw.length raw
  | some (front, tail) => do
    let _ ← expand true (forbidden ++ tail ++ after) front.length front
    .error (.malformed fault (tail.length + after.length))

/-- What is wrong with a piece of a text. -/
def pieceFault? : Piece → Option Fault
  | .stray _ => some .strayByte
  | .char c => if isAllowed c then none else some (.notAllowed c)

/-- A text before `after`, if no character of it is wrong. -/
def checkPieces (after t : Text) : Except ReadError Text :=
  match t.pieces.findSome? pieceFault? with
  | none => .ok t
  | some f => .error (.malformed f after.length)

/-- A text up to the next tag. -/
def readText (t : Text) : Except ReadError (Text × Text) := do
  let raw := t.takeWhile (· ≠ '<'.toUInt8)
  let rest := t.dropWhile (· ≠ '<'.toUInt8)
  let s ← expandWithout "]]>" .bracketsInText rest raw
  pure (← checkPieces rest s, rest)

/-- An attribute value after its opening quote `q`.  Without a closing quote it goes to the end. -/
def readQuoted (q : UInt8) (t : Text) : Except ReadError (Text × Text) := do
  let raw := t.takeWhile (· ≠ q)
  let tail := t.dropWhile (· ≠ q)
  let s ← expandWithout "<" .angleInQuotes tail raw
  pure (← checkPieces (tail.drop 1) s, tail.drop 1)

/-! ### Tags -/

/-- An attribute. -/
def readAttribute (t : Text) : Except ReadError ((Text × Text) × Text) := do
  let (name, t) ← readName .noAttributeName t
  match skipSpace t with
  | [] => .error .tooShort
  | 0x3d :: r =>
    match skipSpace r with
    | [] => .error .tooShort
    | q :: r =>
      if q = 0x22 || q = 0x27 then do
        let (value, rest) ← readQuoted q r
        pure ((name.loc, value), rest)
      else .error (.malformed .noQuote r.length)
  | _ :: r => .error (.malformed .noEquals r.length)

/-- The attributes of a start tag and its end; there are at most `fuel` attributes. -/
def readAttributes : Nat → Text → Except ReadError ((List (Text × Text) × Bool) × Text)
  | 0, _ => .error .tooShort
  | fuel + 1, t =>
    match skipSpace t with
    | [] => .error .tooShort
    | 0x3e :: rest => .ok (([], false), rest)
    | 0x2f :: 0x3e :: rest => .ok (([], true), rest)
    | [0x2f] => .error .tooShort
    | 0x2f :: _ :: r => .error (.malformed .badClose r.length)
    | t => do
      let (a, t) ← readAttribute t
      let ((as, closed), rest) ← readAttributes fuel t
      pure ((a :: as, closed), rest)

/-- A start tag after its `<`. -/
def readStart (t : Text) : Except ReadError (Token × Text) := do
  let (name, t) ← readName .noElementName t
  let ((attributes, closed), rest) ← readAttributes (t.length + 1) t
  pure (.start ⟨name, attributes, closed⟩, rest)

/-- An end tag after its `</`. -/
def readStop (t : Text) : Except ReadError (Token × Text) := do
  let (name, t) ← readName .noEndName t
  match skipSpace t with
  | [] => .error .tooShort
  | 0x3e :: rest => pure (.stop name, rest)
  | _ :: r => .error (.malformed (.badEndTag name.loc) r.length)

/-! ### What is passed over -/

/-- A comment after its `<!--`: two hyphens end it. -/
def readComment (t : Text) : Except ReadError (Token × Text) := do
  let (_, rest) ← need .tooShort (Text.cut? "--" t)
  match rest with
  | [] => .error .tooShort
  | 0x3e :: rest => pure (.skipped, rest)
  | _ :: r => .error (.malformed .hyphensInComment r.length)

/-- The quoted value after the first `param=` that a quote follows; empty if there is none.  There
are at most `fuel` occurrences. -/
def declared (param : Text) : Nat → Text → Text
  | 0, _ => []
  | fuel + 1, t =>
    match Text.cut? (param ++ "=") t with
    | some (_, q :: r) =>
      if q = 0x22 || q = 0x27 then ((Text.cut? [q] r).map Prod.fst).getD []
      else declared param fuel r
    | _ => []

/-- A processing instruction after its `<?`. -/
def readInstruction (t : Text) : Except ReadError (Token × Text) := do
  let (target, t) ← readPlainName .noTarget t
  let (data, rest) ← need .tooShort (Text.cut? "?>" (skipSpace t))
  let version := declared "version" data.length data
  let encoding := declared "encoding" data.length data
  if target ≠ "xml" then pure (.skipped, rest)
  else if !version.isEmpty && version ≠ "1.0" then .error (.version version)
  else if !encoding.isEmpty && encoding.lowerAscii ≠ "utf-8" then .error (.encoding encoding)
  else pure (.skipped, rest)

/-- The rest after a declaration, which is full of quotes, nested brackets and comments.  `quote`
is the quote that is open, `depth` the number of open brackets; `fuel` bounds the steps. -/
def skipDeclaration : Nat → Option UInt8 → Nat → Text → Option Text
  | 0, _, _, _ => none
  | _, _, _, [] => none
  | fuel + 1, some q, depth, b :: r =>
    skipDeclaration fuel (if b = q then none else some q) depth r
  | fuel + 1, none, depth, b :: r =>
    if b = '>' then
      match depth with
      | 0 => some r
      | d + 1 => skipDeclaration fuel none d r
    else if b = 0x22 || b = 0x27 then skipDeclaration fuel (some b) depth r
    else if b = '<' then
      match Text.after? "!--" r with
      | some c => (Text.cut? "-->" c).bind fun (_, rest) => skipDeclaration fuel none depth rest
      | none => skipDeclaration fuel none (depth + 1) r
    else skipDeclaration fuel none depth r

/-- What follows the name of a marked section. -/
def skipSectionName : Text → Text → Except ReadError Text
  | [], t => .ok t
  | _ :: _, [] => .error .tooShort
  | a :: name, b :: r =>
    if a = b then skipSectionName name r else .error (.malformed .badSection r.length)

/-- A marked section after its `<![`: characters without references. -/
def readSection (t : Text) : Except ReadError (Token × Text) := do
  let t ← skipSectionName "CDATA[" t
  let (raw, rest) ← need (.malformed .endInSection 0) (Text.cut? "]]>" t)
  let s ← expand false rest raw.length raw
  pure (.text (← checkPieces rest s), rest)

/-- A declaration after its `<!`; its first byte has no meaning of its own. -/
def readDeclaration (t : Text) : Except ReadError (Token × Text) :=
  match t with
  | [] => .error .tooShort
  | [0x2d] => .error .tooShort
  | 0x2d :: 0x2d :: r => readComment r
  | 0x2d :: _ :: r => .error (.malformed .loneHyphen r.length)
  | 0x5b :: r => readSection r
  | _ :: r => do pure (.skipped, ← need .tooShort (skipDeclaration (r.length + 1) none 0 r))

/-! ### Documents -/

/-- The first token of a text that is not empty. -/
def readToken (t : Text) : Except ReadError (Token × Text) :=
  match t with
  | 0x3c :: 0x2f :: r => readStop r
  | 0x3c :: 0x3f :: r => readInstruction r
  | 0x3c :: 0x21 :: r => readDeclaration r
  | 0x3c :: r => readStart r
  | t => do
    let (s, rest) ← readText t
    pure (.text s, rest)

/-- The content of the element `name` up to its end tag, and what follows; there are at most `fuel`
tokens. -/
def content : Nat → Name → Text → Except ReadError (List Node × Text)
  | 0, _, _ => .error .tooShort
  | _, _, [] => .error .tooShort
  | fuel + 1, name, t => do
    let (token, rest) ← readToken t
    match token with
    | .stop n =>
      if n = name then pure ([], rest) else .error (.malformed (.mismatch name n) rest.length)
    | .skipped => content fuel name rest
    | .text s => do
      let (ns, rest) ← content fuel name rest
      pure (.text s :: ns, rest)
    | .start tag => do
      let (kids, rest) ← if tag.closed then pure ([], rest) else content fuel tag.name rest
      let (ns, rest) ← content fuel name rest
      pure (.element tag.name.loc tag.attributes kids :: ns, rest)

/-- The first start tag of a document, and what follows it; at most `fuel` tokens stand before. -/
def startTag : Nat → Text → Except ReadError (Tag × Text)
  | 0, _ => .error .tooShort
  | _, [] => .error .noElement
  | fuel + 1, t => do
    let (token, rest) ← readToken t
    match token with
    | .start tag => pure (tag, rest)
    | .stop n => .error (.malformed (.unopened n) rest.length)
    | .text _ => startTag fuel rest
    | .skipped => startTag fuel rest

/-- What stands in the element of a start tag, given what follows the tag. -/
def contentOf (tag : Tag) (t : Text) : Except ReadError (List Node) :=
  if tag.closed then .ok [] else Prod.fst <$> content (t.length + 1) tag.name t

end ContractNet.Xml

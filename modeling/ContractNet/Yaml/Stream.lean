import ContractNet.Yaml.Fault

/-!
# Streams of characters

A stream is a text that is read as characters: UTF-8, or UTF-16 after a byte order mark that says
so.  Control characters are refused.

The bytes are read in blocks, and a block is only read when someone looks further ahead than the
characters that are there (`Stream.ensure`).  So what is wrong with bytes that nobody comes near is
never noticed.  After its last character a stream goes on with null characters.
-/

namespace ContractNet.Yaml

/-! ### Classes of characters -/

/-- A character that ends a line. -/
def isBreak (c : Char) : Bool :=
  c = '\n' || c = '\r' || c = '\u0085' || c = '\u2028' || c = '\u2029'

/-- A space or a tab. -/
def isBlank (c : Char) : Bool := c = ' ' || c = '\t'

/-- The character that stands for the end of the stream. -/
def isEnd (c : Char) : Bool := c = '\x00'

/-- The end of a line or of the stream. -/
def isLineEnd (c : Char) : Bool := isBreak c || isEnd c

/-- A blank, the end of a line or the end of the stream. -/
def isGap (c : Char) : Bool := isBlank c || isLineEnd c

/-- The byte order mark. -/
def byteOrderMark : Char := '\uFEFF'

/-- A character that may stand in a stream. -/
def isAllowed (c : Char) : Bool :=
  c = '\t' || c = '\n' || c = '\r' || (0x20 ≤ c.toNat && c.toNat ≤ 0x7e) || c.toNat = 0x85 ||
    (0xa0 ≤ c.toNat && c.toNat ≤ 0xfffd) || 0x10000 ≤ c.toNat

/-! ### Characters in bytes -/

/-- How the bytes of a stream stand for characters. -/
inductive Encoding where
  | utf8
  | utf16 (bigEndian : Bool)

/-- What stands at the front of some bytes. -/
inductive Front where
  | char (c : Char) (width : Nat)
  /-- A character that the bytes hold only a part of; the problem if no others follow. -/
  | cut (p : Problem)
  | bad (p : Problem)

/-- The number of bytes of a character in UTF-8, by the first of them. -/
def octetCount (b : UInt8) : Nat :=
  if b < 0x80 then 1 else if b < 0xc0 then 0 else if b < 0xe0 then 2 else if b < 0xf0 then 3
  else if b < 0xf8 then 4 else 0

/-- A byte of a character in UTF-8 that is not the first. -/
def isTrailing (b : UInt8) : Bool := 0x80 ≤ b && b < 0xc0

/-- The least character number that takes so many bytes. -/
def leastCode : Nat → Nat
  | 2 => 0x80
  | 3 => 0x800
  | 4 => 0x10000
  | _ => 0

/-- The character at the front of bytes in UTF-8. -/
def utf8Front : Text → Front
  | [] => .cut .incompleteOctets
  | b :: r =>
    let n := octetCount b
    let trail := r.take (n - 1)
    let lead := if n = 1 then b.toNat else b.toNat % Nat.pow 2 (7 - n)
    let code := trail.foldl (fun v c => 64 * v + c.toNat % 64) lead
    if n = 0 then .bad .leadingOctet
    else if trail.length < n - 1 then .cut .incompleteOctets
    else if !trail.all isTrailing then .bad .trailingOctet
    else if code < leastCode n then .bad .octetLength
    else if code.isValidChar then .char (Char.ofNat code) n
    else .bad .notCharacter

/-- The first half of a pair of 16-bit units. -/
def isHighUnit (u : Nat) : Bool := 0xd800 ≤ u && u < 0xdc00

/-- The second half of a pair of 16-bit units. -/
def isLowUnit (u : Nat) : Bool := 0xdc00 ≤ u && u < 0xe000

/-- The character at the front of bytes in UTF-16. -/
def utf16Front (bigEndian : Bool) : Text → Front
  | a :: b :: r =>
    let u := unit a b
    if isLowUnit u then .bad .unexpectedLowUnit
    else if isHighUnit u then
      match r with
      | c :: d :: _ =>
        let v := unit c d
        if isLowUnit v then .char (Char.ofNat (0x10000 + (u - 0xd800) * 0x400 + (v - 0xdc00))) 4
        else .bad .expectedLowUnit
      | _ => .cut .incompletePair
    else .char (Char.ofNat u) 2
  | _ => .cut .incompleteUnit
where
  /-- The 16-bit unit of two bytes. -/
  unit (a b : UInt8) : Nat :=
    if bigEndian then 256 * a.toNat + b.toNat else a.toNat + 256 * b.toNat

/-- The character at the front of bytes. -/
def Encoding.front : Encoding → Text → Front
  | utf8 => utf8Front
  | utf16 bigEndian => utf16Front bigEndian

/-- Characters that have been read from bytes. -/
structure Decoded where
  /-- The characters, last first. -/
  chars : List Char
  /-- The bytes that are not read. -/
  rest : Text
  /-- What is wrong with those bytes, if they keep from reading on. -/
  problem : Option Problem := none

/-- Read characters as long as there are any; `ended` tells that no more bytes will follow, and
`fuel` is no less than the number of the bytes. -/
def Encoding.decode (e : Encoding) (ended : Bool) : Nat → Text → List Char → Decoded
  | 0, t, cs => ⟨cs, t, none⟩
  | fuel + 1, t, cs =>
    if t.isEmpty then ⟨cs, t, none⟩
    else match e.front t with
      | .char c width =>
        if isAllowed c then decode e ended fuel (t.drop width) (c :: cs)
        else ⟨cs, t, some .controlCharacter⟩
      | .cut p => ⟨cs, t, if ended then some p else none⟩
      | .bad p => ⟨cs, t, some p⟩

/-! ### Streams -/

/-- A text that is being read. -/
structure Stream where
  /-- The characters that have been read and not been passed. -/
  ahead : List Char := []
  /-- The characters that have been read started with a byte order mark when the last block was
  read. -/
  marked : Bool := false
  /-- The bytes of the present block that no character has been read from. -/
  block : Text := []
  /-- The bytes after the present block. -/
  beyond : Text
  /-- It has been noticed that there are no more blocks. -/
  ended : Bool := false
  encoding : Encoding := .utf8

namespace Stream

/-- The number of bytes in a block. -/
def blockSize : Nat := 512

/-- The stream with its next block; what is left of the present one counts as a part of it. -/
def nextBlock (s : Stream) : Stream :=
  if s.beyond.isEmpty then { s with ended := true }
  else
    let room := blockSize - s.block.length
    { s with block := s.block ++ s.beyond.take room, beyond := s.beyond.drop room }

/-- The stream of a text, whose encoding is told by its first bytes. -/
def ofText (t : Text) : Stream :=
  let s := nextBlock { beyond := t }
  let s := if s.block.length < 3 then s.nextBlock else s
  match s.block with
  | 0xff :: 0xfe :: r => { s with block := r, encoding := .utf16 false }
  | 0xfe :: 0xff :: r => { s with block := r, encoding := .utf16 true }
  | 0xef :: 0xbb :: 0xbf :: r => { s with block := r }
  | _ => s

/-- The character after the next `k`. -/
def look (s : Stream) (k : Nat) : Char := s.ahead.getD k '\x00'

/-- The stream after its next character. -/
def next (s : Stream) : Stream := { s with ahead := s.ahead.tail }

/-- At least `n` characters have been read ahead. -/
def holds (s : Stream) (n : Nat) : Bool := n = 0 || !(s.ahead.drop (n - 1)).isEmpty

/-- Read blocks until `n` characters are there or the stream ends, whose end is a null character;
`again` asks for another block in any case.  There are fewer blocks than `fuel`. -/
def readBlocks (n : Nat) (again : Bool) : Nat → Stream → Stream × Option Problem
  | 0, s => (s, none)
  | fuel + 1, s =>
    if s.holds n then (s, none)
    else
      let s := if again || s.block.isEmpty then s.nextBlock else s
      let d := s.encoding.decode s.ended s.block.length s.block []
      let s := { s with ahead := s.ahead ++ d.chars.reverse, block := d.rest }
      match d.problem with
      | some p => (s, some p)
      | none =>
        if s.ended then ({ s with ahead := s.ahead ++ ['\x00'] }, none)
        else readBlocks n true fuel s

/-- Have `n` characters ready, or tell what is wrong with those on the way. -/
def ensure (s : Stream) (n : Nat) : Stream × Option Problem :=
  if s.holds n then (s, none)
  else
    let (s, p) := readBlocks n false (s.beyond.length + 2) s
    ({ s with marked := s.ahead.head? = some byteOrderMark }, p)

end Stream

end ContractNet.Yaml

import ContractNet.Text.Basic

/-!
# UTF-8 in texts

`Text.pieces` reads a text from the left into characters and stray bytes: a stray byte is one
at which no encoded character starts.  `Text.repaired` puts U+FFFD in place of every stray byte.

* `Text.flatMap_bytes_pieces`: no byte is lost, the pieces written one after the other are the
  text.
-/

namespace ContractNet

/-- A character of a text, or a byte that belongs to none. -/
inductive Piece where
  | char (c : Char)
  | stray (b : UInt8)
deriving DecidableEq

namespace Piece

/-- The bytes that the piece stands for. -/
def bytes : Piece → Text
  | char c => String.utf8EncodeChar c
  | stray b => [b]

/-- The character that stands for the piece where only characters can be written. -/
def toChar : Piece → Char
  | char c => c
  | stray _ => '\uFFFD'

@[simp]
theorem toChar_char (c : Char) : (char c).toChar = c := rfl

end Piece

namespace Text

/-- The bytes of a character. -/
def ofChar (c : Char) : Text := String.utf8EncodeChar c

/-- The bytes of a list of characters. -/
def ofChars (cs : List Char) : Text := cs.flatMap ofChar

/-- The character whose encoding the text starts with. -/
def decodeChar? (t : Text) : Option Char := ByteArray.utf8DecodeChar? ⟨(t.take 4).toArray⟩ 0

/-- The text as characters and stray bytes. -/
def pieces : Text → List Piece
  | [] => []
  | b :: r =>
    match decodeChar? (b :: r) with
    | some c => .char c :: pieces (r.drop (c.utf8Size - 1))
    | none => .stray b :: pieces r
termination_by t => t.length
decreasing_by all_goals simp; try omega

/-- The text as characters, with U+FFFD for every stray byte. -/
def chars (t : Text) : List Char := t.pieces.map Piece.toChar

/-- U+FFFD in place of every stray byte. -/
def repaired (t : Text) : Text := ofChars t.chars

/-- No byte of the text is stray. -/
def isValid (t : Text) : Bool := t.pieces.all fun p => match p with
  | .char _ => true
  | .stray _ => false

/-! ### Reading back -/

theorem decodeChar?_ofChar_append (c : Char) (t : Text) : decodeChar? (ofChar c ++ t) = some c := by
  have hlen : (ofChar c).length = c.utf8Size := by simp [ofChar]
  have hle := c.utf8Size_le_four
  have : (ofChar c ++ t).take 4 = ofChar c ++ t.take (4 - c.utf8Size) := by
    rw [List.take_append, List.take_of_length_le (by omega), hlen]
  have happ : (⟨(ofChar c ++ t.take (4 - c.utf8Size)).toArray⟩ : ByteArray) =
      (ofChar c).toByteArray ++ (t.take (4 - c.utf8Size)).toByteArray := by
    ext1; simp
  rw [decodeChar?, this, happ]
  exact ByteArray.utf8DecodeChar?_utf8EncodeChar_append

theorem eq_ofChar_append_of_decodeChar? {t : Text} {c : Char} (h : decodeChar? t = some c) :
    t = ofChar c ++ t.drop c.utf8Size := by
  obtain ⟨l, hl⟩ := ByteArray.exists_of_utf8DecodeChar?_eq_some h
  have htake : t.take 4 = ofChar c ++ l.data.toList := by
    have := congrArg (fun b : ByteArray => b.data.toList) hl
    simpa [ofChar] using this
  have hlen : (ofChar c).length = c.utf8Size := by simp [ofChar]
  conv => lhs; rw [← List.take_append_drop c.utf8Size t]
  congr 1
  have h4 : t.take c.utf8Size = (t.take 4).take c.utf8Size := by
    rw [List.take_take, Nat.min_eq_left c.utf8Size_le_four]
  rw [h4, htake, List.take_append, ← hlen, List.take_length]
  simp

/-- **No byte is lost:** the pieces written one after the other are the text. -/
theorem flatMap_bytes_pieces (t : Text) : t.pieces.flatMap Piece.bytes = t := by
  fun_induction pieces t with
  | case1 => rfl
  | case2 b r c hc ih =>
    have h := eq_ofChar_append_of_decodeChar? hc
    have hpos := c.utf8Size_pos
    obtain ⟨k, hk⟩ : ∃ k, c.utf8Size = k + 1 := ⟨c.utf8Size - 1, by omega⟩
    rw [List.flatMap_cons, ih, h]
    simp [Piece.bytes, ofChar, hk]
  | case3 b r hc ih => simp [Piece.bytes, ih]

theorem pieces_ofChar_append (c : Char) (t : Text) :
    pieces (ofChar c ++ t) = .char c :: pieces t := by
  have hlen : (ofChar c).length = c.utf8Size := by simp [ofChar]
  have hpos := c.utf8Size_pos
  cases hs : ofChar c ++ t with
  | nil => rw [List.append_eq_nil_iff] at hs; rw [hs.1] at hlen; simp at hlen; omega
  | cons b r =>
    rw [pieces, ← hs, decodeChar?_ofChar_append]
    simp only [List.cons.injEq, true_and]
    obtain ⟨k, hk⟩ : ∃ k, c.utf8Size = k + 1 := ⟨c.utf8Size - 1, by omega⟩
    have : r.drop k = (b :: r).drop (k + 1) := rfl
    rw [hk, Nat.add_sub_cancel, this, ← hs, ← hk, ← hlen, List.drop_left]

@[simp]
theorem pieces_ofChars (cs : List Char) : pieces (ofChars cs) = cs.map .char := by
  induction cs with
  | nil => simp [ofChars, pieces]
  | cons c cs ih =>
    rw [show ofChars (c :: cs) = ofChar c ++ ofChars cs from List.flatMap_cons,
      pieces_ofChar_append,
      ih, List.map_cons]

/-- Repairing a text twice is repairing it once. -/
@[simp]
theorem repaired_repaired (t : Text) : t.repaired.repaired = t.repaired := by
  simp [repaired, chars, Function.comp_def, Piece.toChar_char]

end Text

end ContractNet

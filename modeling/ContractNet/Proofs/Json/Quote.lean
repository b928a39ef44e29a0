import ContractNet.Json.Reader
import ContractNet.Proofs.Text.Utf8

/-!
# Strings written and read back

Each character of a string is written as it is, after a backslash as a letter, or as a number.

* `Json.Spells raw cs` says that in a string `raw` is read as the characters `cs`; what is written
  for a text spells its characters (`Json.spells_escapePieces`);
* `Json.readString_quote`: a string is read as the text that was written, with U+FFFD for stray
  bytes.
-/

namespace ContractNet.Json

/-- In a string, `raw` is read as the characters `cs`, whatever follows. -/
def Spells (raw : Text) (cs : List Char) : Prop :=
  ∃ us, (∀ t vs rest, stringUnits t = .ok (vs, rest) →
      stringUnits (raw ++ t) = .ok (us ++ vs, rest)) ∧
    ∀ vs, unitsText (us ++ vs) = Text.ofChars cs ++ unitsText vs

theorem Spells.nil : Spells [] [] := ⟨[], fun _ _ _ h => h, fun _ => rfl⟩

theorem Spells.append {raw raw' : Text} {cs cs' : List Char} (h : Spells raw cs)
    (h' : Spells raw' cs') : Spells (raw ++ raw') (cs ++ cs') := by
  obtain ⟨us, hread, htext⟩ := h
  obtain ⟨us', hread', htext'⟩ := h'
  refine ⟨us ++ us', fun t vs rest ht => ?_, fun vs => ?_⟩
  · rw [List.append_assoc, List.append_assoc]
    exact hread _ _ _ (hread' _ _ _ ht)
  · rw [List.append_assoc, htext, htext', Text.ofChars, Text.ofChars, Text.ofChars,
      List.flatMap_append, List.append_assoc]

/-! ### Characters as they are -/

/-- A byte that stands for itself in a string. -/
def isPlain (b : UInt8) : Bool := 0x20 ≤ b && b ≠ 0x22 && b ≠ 0x5c

theorem stringUnits_plain {b : UInt8} (hb : isPlain b = true) {t rest : Text}
    {vs : List StringUnit} (ht : stringUnits t = .ok (vs, rest)) :
    stringUnits (b :: t) = .ok (.byte b :: vs, rest) := by
  simp only [isPlain, Bool.and_eq_true, decide_eq_true_eq] at hb
  obtain ⟨⟨hlow, hquote⟩, hslash⟩ := hb
  rw [stringUnits, if_neg (UInt8.not_lt.2 hlow), if_neg hslash, ht]
  · rfl
  · exact fun h => hquote h
  · exact fun _ _ _ _ _ h _ => hslash h
  · exact fun _ _ h _ => hslash h

theorem stringUnits_plain_append {bs : Text} (hbs : ∀ b ∈ bs, isPlain b = true) {t rest : Text}
    {vs : List StringUnit} (ht : stringUnits t = .ok (vs, rest)) :
    stringUnits (bs ++ t) = .ok (bs.map .byte ++ vs, rest) := by
  induction bs with
  | nil => exact ht
  | cons b bs ih =>
    rw [List.forall_mem_cons] at hbs
    exact stringUnits_plain hbs.1 (ih hbs.2)

theorem unitsText_bytes_append (bs : Text) (vs : List StringUnit) :
    unitsText (bs.map .byte ++ vs) = bs ++ unitsText vs := by
  induction bs with
  | nil => rfl
  | cons b bs ih => rw [List.map_cons, List.cons_append, unitsText, ih, List.cons_append]

theorem isPlain_of_mem_ofChar {c : Char} (hquote : c ≠ '"') (hslash : c ≠ '\\')
    (hlow : ¬c.toNat < 0x20) {b : UInt8} (hb : b ∈ Text.ofChar c) : isPlain b = true := by
  have hne : ∀ d : Char, c ≠ d → d.toNat < 0x80 → b.toNat ≠ d.toNat := by
    intro d hd hascii
    rcases Text.toNat_of_mem_ofChar hb with ⟨-, he⟩ | ⟨-, hhigh⟩
    · exact fun h => hd (Char.toNat_inj.1 (he ▸ h))
    · omega
  have hle : 0x20 ≤ b.toNat := by
    rcases Text.toNat_of_mem_ofChar hb with ⟨-, he⟩ | ⟨-, hhigh⟩ <;> omega
  simp only [isPlain, Bool.and_eq_true, decide_eq_true_eq]
  exact ⟨⟨hle, fun h => hne _ hquote (by decide) (congrArg UInt8.toNat h)⟩,
    fun h => hne _ hslash (by decide) (congrArg UInt8.toNat h)⟩

/-- A character that needs no escape spells itself. -/
theorem spells_ofChar {c : Char} (hquote : c ≠ '"') (hslash : c ≠ '\\')
    (hlow : ¬c.toNat < 0x20) : Spells (Text.ofChar c) [c] := by
  refine ⟨(Text.ofChar c).map .byte, fun t vs rest ht => ?_, fun vs => ?_⟩
  · exact stringUnits_plain_append (fun b hb => isPlain_of_mem_ofChar hquote hslash hlow hb) ht
  · rw [unitsText_bytes_append, Text.ofChars_cons]
    simp [Text.ofChars]

/-! ### Escapes -/

/-- A letter after a backslash spells the byte that it stands for. -/
theorem spells_letter {l b : UInt8} {c : Char} (hl : escapedByte? l = some b) (hu : l ≠ 'u')
    (hc : Text.ofChar c = [b]) : Spells [0x5c, l] [c] := by
  refine ⟨[.byte b], fun t vs rest ht => ?_, fun vs => ?_⟩
  · change stringUnits (0x5c :: l :: t) = _
    rw [stringUnits, if_neg hu, hl]
    · simp only [ht]
      rfl
    · exact fun _ _ _ _ _ h _ => hu h
  · rw [Text.ofChars_cons, hc]
    rfl

/-- Half of a surrogate pair. -/
def isSurrogate (n : Nat) : Bool := 0xd800 ≤ n && n < 0xe000

theorem unitsText_unit {n : Nat} (hn : isSurrogate n = false) (vs : List StringUnit) :
    unitsText (.unit n :: vs) = Text.ofChar (Char.ofNat n) ++ unitsText vs := by
  have hchar : unitChar n = Char.ofNat n := by
    rw [isSurrogate] at hn
    rw [unitChar, hn]
    rfl
  have hpair : ∀ m, surrogatePair? n m = none := by
    intro m
    simp only [isSurrogate, Bool.and_eq_false_iff, decide_eq_false_iff_not] at hn
    rw [surrogatePair?, if_neg]
    simp only [Bool.and_eq_true, decide_eq_true_eq]
    omega
  match vs with
  | [] => rw [← hchar]; rfl
  | .byte b :: vs => rw [← hchar]; rfl
  | .unit m :: vs => rw [unitsText, hpair, hchar]

/-- Four digits after a backslash and `u` spell the character with their number. -/
theorem spells_digits {ds : Text} {n : Nat} (hlen : ds.length = 4) (hds : hex4 ds = .ok n)
    (hn : isSurrogate n = false) : Spells (0x5c :: 0x75 :: ds) [Char.ofNat n] := by
  obtain ⟨a, b, c, d, rfl⟩ : ∃ a b c d, ds = [a, b, c, d] := by
    match ds, hlen with
    | [a, b, c, d], _ => exact ⟨a, b, c, d, rfl⟩
  refine ⟨[.unit n], fun t vs rest ht => ?_, fun vs => ?_⟩
  · change stringUnits (0x5c :: 0x75 :: a :: b :: c :: d :: t) = _
    rw [stringUnits, hds, ht]
    rfl
  · rw [List.singleton_append, unitsText_unit hn, Text.ofChars_cons]
    simp [Text.ofChars]

/-- The numbers that are written: those of control characters, of marks, of separators of lines and
of U+FFFD. -/
def writtenNumbers : List Nat := List.range 0x20 ++ [0x26, 0x3c, 0x3e, 0x2028, 0x2029, 0xfffd]

theorem spells_numberEscape {n : Nat} (hn : n ∈ writtenNumbers) :
    Spells (numberEscape n) [Char.ofNat n] := by
  have hdigits : ∀ n ∈ writtenNumbers, (Text.padZeros 4 (Text.hex n)).length = 4 ∧
      hex4 (Text.padZeros 4 (Text.hex n)) = .ok n ∧ isSurrogate n = false := by decide
  obtain ⟨hlen, hread, hsurrogate⟩ := hdigits n hn
  exact spells_digits hlen hread hsurrogate

theorem spells_numberEscape_toNat {c : Char} (hc : c.toNat ∈ writtenNumbers) :
    Spells (numberEscape c.toNat) [c] := by
  have h := spells_numberEscape hc
  rwa [Char.ofNat_toNat] at h

/-! ### Texts -/

/-- **What is written for a character spells it,** whichever characters are escaped. -/
theorem spells_escapeChar (e : Escapes) (c : Char) : Spells (escapeChar e c) [c] := by
  unfold escapeChar
  split
  · subst_vars; exact spells_letter (l := 0x22) (b := 0x22) rfl (by decide) rfl
  rename_i hquote
  split
  · subst_vars; exact spells_letter (l := 0x5c) (b := 0x5c) rfl (by decide) rfl
  rename_i hslash
  split
  · subst_vars; exact spells_letter (l := 0x6e) (b := 0x0a) rfl (by decide) rfl
  split
  · subst_vars; exact spells_letter (l := 0x72) (b := 0x0d) rfl (by decide) rfl
  split
  · subst_vars; exact spells_letter (l := 0x74) (b := 0x09) rfl (by decide) rfl
  split
  · rename_i h
    simp only [Bool.and_eq_true, decide_eq_true_eq] at h
    obtain rfl : c = Char.ofNat 8 := Char.toNat_inj.1 h.2
    exact spells_letter (l := 0x62) (b := 0x08) rfl (by decide) rfl
  split
  · rename_i h
    simp only [Bool.and_eq_true, decide_eq_true_eq] at h
    obtain rfl : c = Char.ofNat 12 := Char.toNat_inj.1 h.2
    exact spells_letter (l := 0x66) (b := 0x0c) rfl (by decide) rfl
  split
  · rename_i h
    refine spells_numberEscape_toNat ?_
    simp only [Bool.or_eq_true, decide_eq_true_eq] at h
    simp only [writtenNumbers, List.mem_append, List.mem_range, List.mem_cons]
    tauto
  rename_i hlow
  split
  · rename_i h
    refine spells_numberEscape_toNat ?_
    simp only [Bool.and_eq_true, Bool.or_eq_true, decide_eq_true_eq] at h
    rcases h.2 with (rfl | rfl) | rfl <;> decide
  · simp only [Bool.or_eq_true, decide_eq_true_eq, not_or] at hlow
    exact spells_ofChar hquote hslash hlow.1.1

theorem spells_escapePiece (e : Escapes) (p : Piece) : Spells (escapePiece e p) [p.toChar] := by
  cases p with
  | char c => exact spells_escapeChar e c
  | stray b => exact spells_numberEscape (n := 0xfffd) (by decide)

theorem spells_escapePieces (e : Escapes) (t : Text) :
    Spells (t.pieces.flatMap (escapePiece e)) t.chars := by
  rw [Text.chars]
  induction t.pieces with
  | nil => exact .nil
  | cons p ps ih =>
    rw [List.flatMap_cons, List.map_cons]
    exact (spells_escapePiece e p).append ih

/-- What spells characters is read up to the quote after it. -/
theorem Spells.readString {raw : Text} {cs : List Char} (h : Spells raw cs) (rest : Text) :
    Json.readString (raw ++ 0x22 :: rest) = .ok (Text.ofChars cs, rest) := by
  obtain ⟨us, hread, htext⟩ := h
  have hus := hread _ _ _ (stringUnits.eq_2 rest)
  have htext : unitsText us = Text.ofChars cs := by simpa [unitsText] using htext []
  rw [List.append_nil] at hus
  rw [Json.readString, hus]
  change Except.ok ((unitsText us).repaired, rest) = _
  rw [htext, Text.repaired, Text.chars_ofChars]

/-- **A string is read as the text that was written,** with U+FFFD in place of stray bytes. -/
theorem readString_quote (e : Escapes) (t rest : Text) :
    Json.readString (t.pieces.flatMap (escapePiece e) ++ 0x22 :: rest) = .ok (t.repaired, rest) :=
  (spells_escapePieces e t).readString rest

end ContractNet.Json

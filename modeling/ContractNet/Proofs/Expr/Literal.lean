import ContractNet.Proofs.Expr.Borders
import ContractNet.Proofs.Expr.Numeral

/-!
# Integer literals

What `parseUint` reads and what `isIntegerLiteral` accepts, told by the spelling of a text.

* `literalValue?`: the number that an integer literal denotes;
* `parseUint_literal`: **a literal is read as its number**, with white space around it or not, if
  the number has 256 bits, and is refused otherwise;
* `isIntegerLiteral_of_isNumber`: which number tokens are accepted as integers;
* `isIntegerLiteral_iff_of_parseUint`: **which of the texts that are read are single tokens.**
  Others are read too: with a plus sign, with a mark that nothing follows or that underscores break
  up, with an underscore in front, or with white space around them that does not separate tokens.
-/

namespace ContractNet.Expr

/-- The number that a numeral denotes: a row of digits, at least one, with underscores anywhere. -/
def Radix.numeral? (r : Radix) (t : Text) : Option Nat :=
  if (t.all fun b => r.isDigit b || b = '_'.toUInt8) && t.any r.isDigit then some (r.value t)
  else none

/-- The number that an integer literal denotes: a decimal numeral, or a hexadecimal one after `0x`
or `0X`. -/
def literalValue? (t : Text) : Option Nat :=
  match hexDigits? t with
  | some digits => Radix.hexadecimal.numeral? digits
  | none => Radix.decimal.numeral? t

/-- The text is spelled as a number token is. -/
structure IsNumber (t : Text) : Prop where
  first : t.head?.any Text.isDigit = true
  all : ∀ b ∈ t, isNumberByte b = true

variable {r : Radix} {s t text digits : Text} {n : Nat} {b : UInt8} {w : BitVec 256}

/-! ### Underscores -/

/-- A text without its underscores. -/
def withoutUnderscores (t : Text) : Text := t.filter (· ≠ '_'.toUInt8)

theorem isDigit_underscore (r : Radix) : r.isDigit '_'.toUInt8 = false := by
  cases r <;> decide

theorem Radix.numeral?_eq_some_iff : r.numeral? t = some n ↔
    (∀ b ∈ t, r.isDigit b = true ∨ b = '_'.toUInt8) ∧ (∃ b ∈ t, r.isDigit b = true) ∧
      r.value t = n := by
  simp only [Radix.numeral?, Option.ite_none_right_eq_some, Bool.and_eq_true, List.all_eq_true,
    List.any_eq_true, Bool.or_eq_true, decide_eq_true_eq, Option.some.injEq, and_assoc]

theorem value_withoutUnderscores (r : Radix) (t : Text) :
    r.value (withoutUnderscores t) = r.value t := by
  have hdigits : r.digits (withoutUnderscores t) = r.digits t := by
    rw [Radix.digits, withoutUnderscores, List.filterMap_filter]
    refine List.filterMap_congr fun b _ => ?_
    by_cases hb : b = '_'.toUInt8
    · have hnone : r.digit? b = none := by
        rw [hb]
        simpa [Radix.isDigit] using isDigit_underscore r
      simp [hnone]
    · simp [hb]
  rw [Radix.value, hdigits, Radix.value]

theorem forall_withoutUnderscores {P : UInt8 → Prop} :
    (∀ b ∈ withoutUnderscores t, P b) ↔ ∀ b ∈ t, P b ∨ b = '_'.toUInt8 := by
  simp only [withoutUnderscores, List.mem_filter, decide_eq_true_eq, and_imp]
  refine forall₂_congr fun b _ => ?_
  rw [or_comm, or_iff_not_imp_left]

/-! ### The mark of hexadecimal literals -/

theorem hexDigits?_eq_some_iff :
    hexDigits? t = some digits ↔ t = "0x" ++ digits ∨ t = "0X" ++ digits := by
  rw [hexDigits?, Option.or_eq_some_iff, Text.after?, Text.after?,
    List.isPrefixOf?_eq_some_iff_append_eq, List.isPrefixOf?_eq_some_iff_append_eq, eq_comm,
    eq_comm (a := _ ++ digits)]
  refine or_congr_right (and_iff_right_of_imp ?_)
  rintro rfl
  rfl

theorem hexDigits?_append {mark : Text} (h : mark = "0x" ∨ mark = "0X") :
    hexDigits? (mark ++ t) = some t := by
  rw [hexDigits?_eq_some_iff]
  rcases h with rfl | rfl
  · exact .inl rfl
  · exact .inr rfl

theorem hexDigits?_withoutUnderscores (h : hexDigits? t = some digits) :
    hexDigits? (withoutUnderscores t) = some (withoutUnderscores digits) := by
  rw [hexDigits?_eq_some_iff] at h ⊢
  rcases h with rfl | rfl
  · exact .inl (List.filter_append _ _)
  · exact .inr (List.filter_append _ _)

theorem hexDigits?_eq_none (h : ∀ b ∈ t, Text.isDigit b = true ∨ b = '_'.toUInt8) :
    hexDigits? t = none := by
  rw [Option.eq_none_iff_forall_not_mem]
  intro digits hdigits
  rcases hexDigits?_eq_some_iff.1 hdigits with rfl | rfl
  · exact absurd (h 'x'.toUInt8 (List.mem_append_left _ (by decide))) (by decide)
  · exact absurd (h 'X'.toUInt8 (List.mem_append_left _ (by decide))) (by decide)

/-! ### Reading -/

theorem ofNat_eq_iff (hn : n < 2 ^ 256) : BitVec.ofNat 256 n = w ↔ w.toNat = n := by
  rw [← BitVec.toNat_inj, BitVec.toNat_ofNat, Nat.mod_eq_of_lt hn, eq_comm]

/-- What is read after a hexadecimal mark. -/
theorem parseUint_of_mark (h : hexDigits? (withoutUnderscores text.trim) = some digits) :
    parseUint text = .ok w ↔ (∀ b ∈ digits, Radix.hexadecimal.isDigit b = true) ∧
      w.toNat = Radix.hexadecimal.value digits := by
  have hne : withoutUnderscores text.trim ≠ [] := by
    intro he
    rw [he] at h
    cases h
  rw [parseUint, ← withoutUnderscores, if_neg hne, h]
  simp only [map_eq_ok_iff, parseHex_eq_ok_iff]
  constructor
  · rintro ⟨_, ⟨hall, rfl, hfits⟩, hw⟩
    exact ⟨hall, (ofNat_eq_iff hfits).1 hw⟩
  · rintro ⟨hall, hw⟩
    have hfits := hw ▸ w.isLt
    exact ⟨_, ⟨hall, rfl, hfits⟩, (ofNat_eq_iff hfits).2 hw⟩

/-- What is read without a mark. -/
theorem parseUint_of_noMark (h : hexDigits? (withoutUnderscores text.trim) = none) :
    parseUint text = .ok w ↔ unsigned (withoutUnderscores text.trim) ≠ [] ∧
      (∀ b ∈ unsigned (withoutUnderscores text.trim), Text.isDigit b = true) ∧
      w.toNat = Radix.decimal.value (unsigned (withoutUnderscores text.trim)) := by
  rw [parseUint, ← withoutUnderscores]
  by_cases hnil : withoutUnderscores text.trim = []
  · rw [if_pos hnil, hnil]
    exact iff_of_false nofun fun hall => hall.1 rfl
  · rw [if_neg hnil, h]
    simp only [map_eq_ok_iff, parseDecimal_eq_ok_iff]
    constructor
    · rintro ⟨_, ⟨hne, hall, rfl, hfits⟩, hw⟩
      exact ⟨hne, hall, (ofNat_eq_iff hfits).1 hw⟩
    · rintro ⟨hne, hall, hw⟩
      have hfits := hw ▸ w.isLt
      exact ⟨_, ⟨hne, hall, rfl, hfits⟩, (ofNat_eq_iff hfits).2 hw⟩

theorem unsigned_eq_self (h : ∀ b ∈ t, Text.isDigit b = true) : unsigned t = t := by
  have hnone : Text.after? "+" t = none := by
    rw [Option.eq_none_iff_forall_not_mem]
    intro s hs
    obtain rfl := List.isPrefixOf?_eq_some_iff_append_eq.1 hs
    exact absurd (h '+'.toUInt8 (List.mem_append_left _ (by decide))) (by decide)
  rw [unsigned, hnone]
  rfl

/-- A literal is read as the number that it denotes, and as nothing else. -/
theorem parseUint_of_literalValue? (h : literalValue? text.trim = some n) :
    parseUint text = .ok w ↔ w.toNat = n := by
  rw [literalValue?] at h
  cases hmark : hexDigits? text.trim with
  | some digits =>
    rw [hmark] at h
    obtain ⟨hall, -, rfl⟩ := Radix.numeral?_eq_some_iff.1 h
    rw [parseUint_of_mark (hexDigits?_withoutUnderscores hmark), value_withoutUnderscores]
    exact and_iff_right (forall_withoutUnderscores.2 hall)
  | none =>
    rw [hmark] at h
    obtain ⟨hall, ⟨b, hb, hdigit⟩, rfl⟩ := Radix.numeral?_eq_some_iff.1 h
    simp only [Radix.isDigit_decimal] at hall hdigit
    have hdigits := forall_withoutUnderscores.2 hall
    -- a digit stays when the underscores go, so that there is something to read
    have hmem : b ∈ withoutUnderscores text.trim := by
      refine List.mem_filter.2 ⟨hb, ?_⟩
      rw [decide_eq_true_eq]
      rintro rfl
      exact absurd hdigit (by decide)
    rw [parseUint_of_noMark (hexDigits?_eq_none fun b hb => .inl (hdigits b hb)),
      unsigned_eq_self hdigits, value_withoutUnderscores,
      and_iff_right (List.ne_nil_of_mem hmem), and_iff_right hdigits]

/-- What is read as a number is read if the number has 256 bits. -/
theorem exists_parseUint_iff (h : ∀ w, parseUint text = .ok w ↔ w.toNat = n) :
    (∃ w, parseUint text = .ok w) ↔ n < 2 ^ 256 := by
  constructor
  · rintro ⟨w, hw⟩
    exact (h w).1 hw ▸ w.isLt
  · intro hn
    exact ⟨BitVec.ofNat 256 n, (h _).2 ((ofNat_eq_iff hn).1 rfl)⟩

/-! ### Bytes of numbers -/

theorem isNumberByte_of_isDigit (h : r.isDigit b = true) : isNumberByte b = true := by
  cases r with
  | decimal =>
    rw [Radix.isDigit_decimal] at h
    simp [isNumberByte, h]
  | hexadecimal =>
    have hf : 'f'.toUInt8 ≤ 'z'.toUInt8 ∧ 'F'.toUInt8 ≤ 'Z'.toUInt8 := by decide
    simp only [Radix.isDigit, Radix.digit?, Text.hexDigit?] at h
    split_ifs at h with hdigit hsmall hlarge
    · simp [isNumberByte, hdigit]
    · simp only [Bool.and_eq_true, decide_eq_true_eq] at hsmall
      simp [isNumberByte, isLetter, hsmall.1, UInt8.le_trans hsmall.2 hf.1]
    · simp only [Bool.and_eq_true, decide_eq_true_eq] at hlarge
      simp [isNumberByte, isLetter, hlarge.1, UInt8.le_trans hlarge.2 hf.2]
    · cases h

theorem isNumberByte_of_digits (h : ∀ b ∈ s, r.isDigit b = true ∨ b = '_'.toUInt8) :
    ∀ b ∈ s, isNumberByte b = true := by
  intro b hb
  rcases h b hb with hdigit | rfl
  · exact isNumberByte_of_isDigit hdigit
  · decide

/-- A number, with an underscore in front or not, is no part of the white space around it. -/
theorem trim_number {front back : Text} (hfront : Text.IsWhite front) (hback : Text.IsWhite back)
    (hfirst : t.head?.any (fun b => Text.isDigit b || b = '_'.toUInt8) = true)
    (hall : ∀ b ∈ t, isNumberByte b = true) : Text.trim (front ++ t ++ back) = t := by
  have hstart : ∀ code ∈ Text.blanks,
      code.head?.any (fun b => Text.isDigit b || b = '_'.toUInt8) = false := by
    decide
  have hstop : ∀ code ∈ Text.blanks, code.getLast?.any isNumberByte = false := by
    decide
  have hne : t ≠ [] := by
    rintro rfl
    cases hfirst
  refine Text.trim_white hfront hback hne (fun code hcode he => ?_) fun code hcode he => ?_
  · rw [← he, hstart code hcode] at hfirst
    cases hfirst
  · have hlast : t.getLast?.any isNumberByte = true := by
      rw [List.getLast?_eq_getLast_of_ne_nil hne]
      exact hall _ (List.getLast_mem hne)
    rw [← he, hstop code hcode] at hlast
    cases hlast

theorem IsNumber.starts (h : IsNumber t) :
    t.head?.any (fun b => Text.isDigit b || b = '_'.toUInt8) = true := by
  obtain ⟨b, hb, hdigit⟩ := (Option.any_eq_true _ _).1 h.first
  exact (Option.any_eq_true _ _).2 ⟨b, hb, by simp [hdigit]⟩

theorem IsNumber.trim_append {front back : Text} (h : IsNumber t) (hfront : Text.IsWhite front)
    (hback : Text.IsWhite back) : Text.trim (front ++ t ++ back) = t :=
  trim_number hfront hback h.starts h.all

theorem isNumber_of_mark (hmark : hexDigits? t = some digits)
    (hall : ∀ b ∈ digits, Radix.hexadecimal.isDigit b = true ∨ b = '_'.toUInt8) : IsNumber t := by
  have hbytes := isNumberByte_of_digits hall
  rcases hexDigits?_eq_some_iff.1 hmark with rfl | rfl
  · exact ⟨rfl, List.forall_mem_append.2 ⟨by decide +kernel, hbytes⟩⟩
  · exact ⟨rfl, List.forall_mem_append.2 ⟨by decide +kernel, hbytes⟩⟩

theorem literalValue?_bytes (h : literalValue? t = some n) :
    t.head?.any (fun b => Text.isDigit b || b = '_'.toUInt8) = true ∧
      ∀ b ∈ t, isNumberByte b = true := by
  rw [literalValue?] at h
  cases hmark : hexDigits? t with
  | some digits =>
    rw [hmark] at h
    have hnumber := isNumber_of_mark hmark (Radix.numeral?_eq_some_iff.1 h).1
    exact ⟨hnumber.starts, hnumber.all⟩
  | none =>
    rw [hmark] at h
    obtain ⟨hall, ⟨b, hb, -⟩, -⟩ := Radix.numeral?_eq_some_iff.1 h
    refine ⟨?_, isNumberByte_of_digits hall⟩
    obtain ⟨c, s, rfl⟩ := List.exists_cons_of_ne_nil (List.ne_nil_of_mem hb)
    simpa using hall c List.mem_cons_self

/-- **A literal is read as the number that it denotes**, with white space around it or not, if the
number has 256 bits, and is refused otherwise. -/
theorem parseUint_literal {front back : Text} (hfront : Text.IsWhite front)
    (hback : Text.IsWhite back) (h : literalValue? t = some n) :
    ((∃ w, parseUint (front ++ t ++ back) = .ok w) ↔ n < 2 ^ 256) ∧
      ∀ w, parseUint (front ++ t ++ back) = .ok w → w.toNat = n := by
  obtain ⟨hfirst, hall⟩ := literalValue?_bytes h
  rw [← trim_number hfront hback hfirst hall] at h
  have hread : ∀ w, parseUint (front ++ t ++ back) = .ok w ↔ w.toNat = n :=
    fun _ => parseUint_of_literalValue? h
  exact ⟨exists_parseUint_iff hread, fun w => (hread w).1⟩

/-- A decimal literal with zeros and underscores in front: the greatest number of 256 bits. -/
def greatestLiteral : Text := "_000_" ++ maxDecimal

theorem parseUint_literal_greatest :
    Text.IsWhite "\t\u00a0" ∧ literalValue? greatestLiteral = some (2 ^ 256 - 1) ∧
      ∃ w, parseUint ("\t\u00a0" ++ greatestLiteral ++ "\n") = .ok w ∧ w.toNat = 2 ^ 256 - 1 := by
  have hfront : Text.IsWhite "\t\u00a0" := ⟨[[0x09], [0xc2, 0xa0]], by decide, by decide⟩
  have hback : Text.IsWhite "\n" := ⟨[[0x0a]], by decide, by decide⟩
  have hvalue : literalValue? greatestLiteral = some (2 ^ 256 - 1) := by decide +kernel
  obtain ⟨hread, hword⟩ := parseUint_literal hfront hback hvalue
  obtain ⟨w, hw⟩ := hread.2 (by norm_num)
  exact ⟨hfront, hvalue, w, hw, hword w hw⟩

/-! ### Numbers as tokens -/

theorem kindOf_eq_number_iff : kindOf b = .number ↔ Text.isDigit b = true := by
  have hstart : ∀ k < 256, Text.isDigit (UInt8.ofNat k) = true →
      isIdentStart (UInt8.ofNat k) = false := by
    decide +kernel
  have hb : Text.isDigit b = true → isIdentStart b = false := by
    simpa using hstart b.toNat b.toNat_lt
  unfold kindOf
  split_ifs with hident hdigit hquote <;> simp_all

theorem isNumberByte_of_isSpace (h : isSpace b = true) : isNumberByte b = false := by
  simp only [isSpace, Bool.or_eq_true, decide_eq_true_eq] at h
  rcases h with ((rfl | rfl) | rfl) | rfl <;> decide

theorem isAlone_of_isSpace (h : isSpace b = true) : isAlone b = true := by
  simp [isAlone, h]

theorem tokensOf_spaces (hs : ∀ b ∈ s, isSpace b = true) (pos : Nat) (ps : List Piece) :
    tokensOf pos (s.map Piece.single ++ ps) = tokensOf (pos + s.length) ps := by
  induction s generalizing pos with
  | nil => rfl
  | cons b s ih =>
    obtain ⟨hb, hs⟩ := List.forall_mem_cons.1 hs
    have hgap : (Piece.single b).isGap = true := hb
    have hlength : (Piece.single b).bytes.length = 1 := rfl
    rw [List.map_cons, List.cons_append, tokensOf_gap hgap, ih hs, hlength, List.length_cons,
      Nat.add_assoc, Nat.add_comm 1]

theorem IsNumber.kind {p : Piece} (h : IsNumber p.bytes) : p.kind = .number :=
  kindOf_eq_number_iff.2 (by simpa [Piece.bytes] using h.first)

/-- A number ends before white space. -/
theorem IsNumber.ends {p : Piece} (h : IsNumber p.bytes) (hs : ∀ b ∈ s, isSpace b = true) :
    p.Ends s := by
  have hkind : kindOf p.first = .number := h.kind
  rw [Piece.Ends, if_neg (by simp [Piece.isGap_of_kind (p := p) (by simp [h.kind])])]
  simp only [tailLength, hkind]
  refine length_takeWhile_append_eq_iff.2 ⟨(List.forall_mem_cons.1 h.all).2, fun b hb => ?_⟩
  exact isNumberByte_of_isSpace (hs b (List.mem_of_mem_head? hb))

/-- White space and a number are pieces of their own. -/
theorem covers_number {front back : Text} {p : Piece} (hfront : ∀ b ∈ front, isSpace b = true)
    (hback : ∀ b ∈ back, isSpace b = true) (hp : IsNumber p.bytes) :
    Covers (front ++ p.bytes ++ back) (front.map Piece.single ++ p :: back.map Piece.single) [] := by
  have hspace : ∀ b, isSpace b = true → b ≠ 0 := by
    rintro b hb rfl
    exact absurd hb (by decide)
  have hspaces : Cut (back.map Piece.single ++ []) :=
    cut_alone (fun b hb => isAlone_of_isSpace (hback b hb)) trivial
  rw [List.append_nil] at hspaces
  have htext : bytes (front.map Piece.single ++ p :: back.map Piece.single) =
      front ++ p.bytes ++ back := by
    simp
  refine ⟨by rw [htext, List.append_nil], ?_, ?_, rfl⟩
  · refine cut_alone (fun b hb => isAlone_of_isSpace (hfront b hb)) ⟨?_, hspaces⟩
    rw [bytes_map_single]
    exact hp.ends hback
  · rw [htext, List.forall_mem_append, List.forall_mem_append]
    refine ⟨⟨fun b hb => hspace b (hfront b hb), ?_⟩, fun b hb => hspace b (hback b hb)⟩
    rintro b hb rfl
    exact absurd (hp.all 0 hb) (by decide)

/-- A number with white space around it is one token. -/
theorem tokenize_number {front back : Text} (hfront : ∀ b ∈ front, isSpace b = true)
    (hback : ∀ b ∈ back, isSpace b = true) (ht : IsNumber t) :
    ∃ stop, tokenize (front ++ t ++ back) = [⟨.number, t, front.length⟩, stop] := by
  obtain ⟨p, rfl⟩ : ∃ p : Piece, p.bytes = t := by
    cases t with
    | nil => exact absurd ht.first (by decide)
    | cons d u => exact ⟨⟨d, u⟩, rfl⟩
  have hgap : p.isGap = false := Piece.isGap_of_kind (by simp [ht.kind])
  have hstop := tokensOf_spaces hback (front.length + p.bytes.length) []
  rw [List.append_nil] at hstop
  refine ⟨⟨.stop, [], front.length + p.bytes.length + back.length⟩, ?_⟩
  rw [(covers_number hfront hback ht).tokenize_eq, tokensOf_spaces hfront, tokensOf_token hgap,
    ht.kind, Nat.zero_add, hstop, tokensOf]

/-- A number token is an integer if it has only digits and underscores, or more than a hexadecimal
mark. -/
theorem isIntegerLiteral_of_isNumber {front back : Text} (hfront : ∀ b ∈ front, isSpace b = true)
    (hback : ∀ b ∈ back, isSpace b = true) (ht : IsNumber t) :
    isIntegerLiteral (front ++ t ++ back) = true ↔ (∃ u, hexDigits? t = some u ∧ u ≠ []) ∨
      hexDigits? t = none ∧ ∀ b ∈ t, Text.isDigit b = true ∨ b = '_'.toUInt8 := by
  obtain ⟨stop, htokens⟩ := tokenize_number hfront hback ht
  rw [isIntegerLiteral, htokens]
  cases hmark : hexDigits? t <;> simp [hmark]

/-! ### Single tokens -/

/-- The text is an integer literal as a token of its own: digits and underscores after a first
digit, or a hexadecimal mark with digits and underscores after it. -/
inductive IsIntegerToken : Text → Prop
  | decimal {t : Text} (hfirst : t.head?.any Text.isDigit = true)
      (hall : ∀ b ∈ t, Text.isDigit b = true ∨ b = '_'.toUInt8) : IsIntegerToken t
  | hexadecimal {mark t : Text} (hmark : mark = "0x" ∨ mark = "0X") (hne : t ≠ [])
      (hall : ∀ b ∈ t, Radix.hexadecimal.isDigit b = true ∨ b = '_'.toUInt8) :
      IsIntegerToken (mark ++ t)

theorem tokensOf_ne_nil (pos : Nat) (ps : List Piece) : tokensOf pos ps ≠ [] := by
  induction ps generalizing pos with
  | nil => simp [tokensOf]
  | cons p ps ih =>
    cases hgap : p.isGap with
    | true => rw [tokensOf_gap hgap]; exact ih _
    | false => simp [tokensOf_token hgap]

theorem isGap_of_tokensOf_eq_singleton {ps : List Piece} {pos : Nat} {stop : Token}
    (h : tokensOf pos ps = [stop]) : ∀ q ∈ ps, q.isGap = true := by
  induction ps generalizing pos with
  | nil => simp
  | cons p ps ih =>
    cases hgap : p.isGap with
    | true =>
      rw [tokensOf_gap hgap] at h
      exact List.forall_mem_cons.2 ⟨hgap, ih h⟩
    | false =>
      rw [tokensOf_token hgap] at h
      exact absurd (List.cons.inj h).2 (tokensOf_ne_nil _ ps)

/-- Pieces with one token are one piece with white space around it. -/
theorem exists_of_tokensOf_eq_pair {ps : List Piece} {pos : Nat} {x stop : Token}
    (h : tokensOf pos ps = [x, stop]) : ∃ front p back, ps = front ++ p :: back ∧
      (∀ q ∈ front, q.isGap = true) ∧ (∀ q ∈ back, q.isGap = true) ∧ p.isGap = false ∧
      x.kind = p.kind ∧ x.literal = p.bytes := by
  induction ps generalizing pos with
  | nil => cases h
  | cons p ps ih =>
    cases hgap : p.isGap with
    | true =>
      rw [tokensOf_gap hgap] at h
      obtain ⟨front, q, back, rfl, hfront, hrest⟩ := ih h
      exact ⟨p :: front, q, back, rfl, List.forall_mem_cons.2 ⟨hgap, hfront⟩, hrest⟩
    | false =>
      rw [tokensOf_token hgap] at h
      obtain ⟨rfl, hback⟩ := List.cons.inj h
      exact ⟨[], p, ps, rfl, by simp, isGap_of_tokensOf_eq_singleton hback, hgap, rfl, rfl⟩

theorem Cut.exists_ends {ps : List Piece} (h : Cut ps) {p : Piece} (hp : p ∈ ps) :
    ∃ u, p.Ends u := by
  induction ps with
  | nil => cases hp
  | cons q ps ih =>
    rcases List.mem_cons.1 hp with rfl | hp
    · exact ⟨_, h.1⟩
    · exact ih h.2 hp

theorem Piece.Ends.isNumber {p : Piece} {u : Text} (h : p.Ends u) (hp : p.kind = .number) :
    IsNumber p.bytes := by
  have hkind : kindOf p.first = .number := hp
  have hfirst : Text.isDigit p.first = true := kindOf_eq_number_iff.1 hkind
  rw [Piece.Ends, if_neg (by simp [Piece.isGap_of_kind (p := p) (by simp [hp])])] at h
  simp only [tailLength, hkind] at h
  refine ⟨hfirst, List.forall_mem_cons.2 ⟨?_, (length_takeWhile_append_eq_iff.1 h).1⟩⟩
  simp [isNumberByte, hfirst]

theorem isNumber_of_mem_tokenize {x : Token} (hx : x ∈ tokenize text) (hkind : x.kind = .number) :
    IsNumber x.literal := by
  obtain ⟨ps, hidden, hcovers⟩ := exists_covers text
  rw [hcovers.tokenize_eq] at hx
  obtain ⟨p, hp, hpkind, hbytes⟩ := exists_mem_of_mem_tokensOf hx (by simp [hkind])
  obtain ⟨u, hends⟩ := hcovers.cut.exists_ends hp
  exact hbytes ▸ hends.isNumber (hpkind.trans hkind)

theorem isSpace_of_mem_bytes {ps : List Piece} (h : Cut ps) (hgap : ∀ p ∈ ps, p.isGap = true) :
    ∀ b ∈ bytes ps, isSpace b = true := by
  induction ps with
  | nil => simp
  | cons p ps ih =>
    obtain ⟨hends, hcut⟩ := h
    obtain ⟨hp, hps⟩ := List.forall_mem_cons.1 hgap
    rw [Piece.Ends, if_pos hp] at hends
    rw [bytes_cons, Piece.bytes, hends, List.singleton_append, List.forall_mem_cons]
    exact ⟨hp, ih hcut hps⟩

/-- What is accepted as an integer literal is one number token with white space around it, before
what a NUL byte hides. -/
theorem exists_isNumber_of_isIntegerLiteral (h : isIntegerLiteral text = true) :
    ∃ front t back hidden, text = front ++ t ++ back ++ hidden ∧ visible hidden = [] ∧
      (∀ b ∈ front, isSpace b = true) ∧ (∀ b ∈ back, isSpace b = true) ∧ IsNumber t := by
  obtain ⟨ps, hidden, hcovers⟩ := exists_covers text
  rw [isIntegerLiteral, hcovers.tokenize_eq] at h
  split at h
  · rename_i x stop htokens
    obtain ⟨hkind, -⟩ := Bool.and_eq_true_iff.1 h
    obtain ⟨front, p, back, rfl, hfront, hback, -, hp, -⟩ := exists_of_tokensOf_eq_pair htokens
    obtain ⟨hcut, hends, hcut'⟩ := hcovers.cut.of_append
    have hnumber : p.kind = .number := hp.symm.trans (of_decide_eq_true hkind)
    refine ⟨bytes front, p.bytes, bytes back, hidden, ?_, hcovers.hidden,
      isSpace_of_mem_bytes hcut hfront, isSpace_of_mem_bytes hcut' hback, hends.isNumber hnumber⟩
    rw [hcovers.text, bytes_append, bytes_cons]
    simp
  · cases h

/-- The text is one integer token, with nothing around it but the white space that separates
tokens. -/
def IsSingleToken (text : Text) : Prop :=
  ∃ front t back, text = front ++ t ++ back ∧ (∀ b ∈ front, isSpace b = true) ∧
    (∀ b ∈ back, isSpace b = true) ∧ IsIntegerToken t

theorem isWhite_of_isSpace (h : ∀ b ∈ s, isSpace b = true) : Text.IsWhite s := by
  refine ⟨s.map fun b => [b], List.forall_mem_map.2 fun b hb => ?_, by simp [← List.flatMap_def]⟩
  have hspace := h b hb
  simp only [isSpace, Bool.or_eq_true, decide_eq_true_eq] at hspace
  rcases hspace with ((rfl | rfl) | rfl) | rfl <;> decide

/-- No text with a NUL byte is read. -/
theorem parseUint_nul (s rest : Text) : parseUint (s ++ 0 :: rest) ≠ .ok w := by
  intro h
  have hmem : (0 : UInt8) ∈ withoutUnderscores (Text.trim (s ++ 0 :: rest)) := by
    rw [Text.trim_append_cons (by decide)]
    exact List.mem_filter.2 ⟨by simp, by decide⟩
  cases hmark : hexDigits? (withoutUnderscores (Text.trim (s ++ 0 :: rest))) with
  | some digits =>
    have hzero : (0 : UInt8) ∈ digits := by
      rcases hexDigits?_eq_some_iff.1 hmark with he | he <;> rw [he] at hmem <;>
        exact (List.mem_append.1 hmem).resolve_left (by decide)
    exact absurd (((parseUint_of_mark hmark).1 h).1 0 hzero) (by decide)
  | none =>
    have hzero : (0 : UInt8) ∈ unsigned (withoutUnderscores (Text.trim (s ++ 0 :: rest))) := by
      rw [unsigned]
      cases hsign : Text.after? "+" (withoutUnderscores (Text.trim (s ++ 0 :: rest))) with
      | none => exact hmem
      | some u =>
        rw [← List.isPrefixOf?_eq_some_iff_append_eq.1 hsign] at hmem
        exact (List.mem_append.1 hmem).resolve_left (by decide)
    exact absurd (((parseUint_of_noMark hmark).1 h).2.1 0 hzero) (by decide)

theorem IsIntegerToken.isNumber (h : IsIntegerToken t) : IsNumber t := by
  cases h with
  | decimal hfirst hall =>
    exact ⟨hfirst, isNumberByte_of_digits (r := .decimal) (by simpa using hall)⟩
  | hexadecimal hmark hne hall => exact isNumber_of_mark (hexDigits?_append hmark) hall

/-- **Which of the texts that are read are single tokens:** those that start with a digit, that
have no underscore in a hexadecimal mark and something after it, and that have only the white space
around them that separates tokens. -/
theorem isIntegerLiteral_iff_of_parseUint (h : parseUint text = .ok w) :
    isIntegerLiteral text = true ↔ IsSingleToken text := by
  constructor
  · intro hint
    obtain ⟨front, t, back, hidden, rfl, hhidden, hfront, hback, ht⟩ :=
      exists_isNumber_of_isIntegerLiteral hint
    -- a NUL byte hides what follows it from the tokens, but not from the reader
    obtain rfl : hidden = [] := by
      cases hidden with
      | nil => rfl
      | cons b rest =>
        obtain rfl : b = 0 := by simpa [visible] using hhidden
        exact absurd h (parseUint_nul _ rest)
    rw [List.append_nil] at h hint ⊢
    refine ⟨front, t, back, rfl, hfront, hback, ?_⟩
    rcases (isIntegerLiteral_of_isNumber hfront hback ht).1 hint with ⟨u, hmark, hne⟩ | ⟨-, hall⟩
    · have htrim : Text.trim (front ++ t ++ back) = t :=
        ht.trim_append (isWhite_of_isSpace hfront) (isWhite_of_isSpace hback)
      have hread := (parseUint_of_mark (hexDigits?_withoutUnderscores (htrim ▸ hmark))).1 h
      have hall := forall_withoutUnderscores.1 hread.1
      rcases hexDigits?_eq_some_iff.1 hmark with rfl | rfl
      · exact .hexadecimal (.inl rfl) hne hall
      · exact .hexadecimal (.inr rfl) hne hall
    · exact .decimal ht.first hall
  · rintro ⟨front, t, back, rfl, hfront, hback, ht⟩
    rw [isIntegerLiteral_of_isNumber hfront hback ht.isNumber]
    cases ht with
    | decimal hfirst hall => exact .inr ⟨hexDigits?_eq_none hall, hall⟩
    | hexadecimal hmark hne hall => exact .inl ⟨_, hexDigits?_append hmark, hne⟩

theorem isIntegerLiteral_iff_of_parseUint_hexadecimal :
    parseUint " 0x_fF\n" = .ok 255 ∧ isIntegerLiteral " 0x_fF\n" = true := by
  have hread : parseUint " 0x_fF\n" = .ok 255 := by decide +kernel
  refine ⟨hread, (isIntegerLiteral_iff_of_parseUint hread).2 ?_⟩
  refine ⟨" ", "0x" ++ "_fF", "\n", by decide +kernel, by decide +kernel, by decide +kernel, ?_⟩
  exact .hexadecimal (.inl rfl) (by decide +kernel) (by decide +kernel)

/-- A sign, and a mark without digits, are read although they are no integer tokens. -/
theorem parseUint_without_token :
    parseUint "+5" = .ok 5 ∧ isIntegerLiteral "+5" = false ∧
      parseUint "0x" = .ok 0 ∧ isIntegerLiteral "0x" = false := by
  decide +kernel

end ContractNet.Expr

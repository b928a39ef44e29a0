import ContractNet.Text.Utf8
import Mathlib.Data.List.Basic

/-!
# The bytes of characters

* `Text.toNat_of_mem_ofChar`: the byte of an ASCII character is the character itself, and other
  characters have no ASCII bytes;
* `Text.ofChars_chars`: a text without stray bytes is made of its characters;
* `Text.repaired_ofString`, `Text.isEmpty_repaired`: literals need no repair, and a repaired text
  is empty only if it was;
* `Text.pieces_append_ofChar`: no piece reaches over the start of a character.
-/

namespace ContractNet.Text

/-- The byte of an ASCII character is the character; other characters have no ASCII bytes. -/
theorem toNat_of_mem_ofChar {c : Char} {b : UInt8} (h : b ∈ ofChar c) :
    (c.toNat < 0x80 ∧ b.toNat = c.toNat) ∨ (0x80 ≤ c.toNat ∧ 0x80 ≤ b.toNat) := by
  have hnat : c.val.toNat = c.toNat := rfl
  have hhigh : ∀ n m, 0x80 ≤ m → n + m < 0x100 → 0x80 ≤ (UInt8.ofNat (n + m)).toNat := by
    intro n m hm hlt
    rw [UInt8.toNat_ofNat_of_lt' hlt]
    omega
  rw [ofChar, String.utf8EncodeChar] at h
  simp only [hnat] at h
  split_ifs at h with h₁ h₂ h₃ <;> simp only [List.mem_cons, List.not_mem_nil, or_false] at h
  · left
    rw [h, UInt8.toNat_ofNat_of_lt' (Nat.lt_of_le_of_lt h₁ (by decide))]
    omega
  all_goals refine .inr ⟨by omega, ?_⟩
  · rcases h with rfl | rfl <;> exact hhigh _ _ (by decide) (by omega)
  · rcases h with rfl | rfl | rfl <;> exact hhigh _ _ (by decide) (by omega)
  · rcases h with rfl | rfl | rfl | rfl <;> exact hhigh _ _ (by decide) (by omega)

theorem ofChars_cons (c : Char) (cs : List Char) : ofChars (c :: cs) = ofChar c ++ ofChars cs :=
  List.flatMap_cons

@[simp] theorem chars_ofChars (cs : List Char) : chars (ofChars cs) = cs := by
  simp [chars, Function.comp_def]

@[simp] theorem chars_ofString (s : String) : chars (ofString s) = s.toList :=
  chars_ofChars s.toList

@[simp] theorem repaired_ofString (s : String) : repaired (ofString s) = ofString s := by
  rw [repaired, chars_ofString]
  rfl

@[simp] theorem repaired_nil : repaired [] = [] := repaired_ofString ""

theorem isValid_ofChars (cs : List Char) : isValid (ofChars cs) = true := by
  simp [isValid]

/-- A text without stray bytes is made of its characters. -/
theorem ofChars_chars {t : Text} (h : t.isValid = true) : ofChars t.chars = t := by
  have hchar : ∀ p ∈ t.pieces, Text.ofChar p.toChar = p.bytes := by
    intro p hp
    have := List.all_eq_true.1 h p hp
    cases p with
    | char c => rfl
    | stray b => cases this
  rw [chars, ofChars, List.flatMap_map, List.flatMap_congr hchar, flatMap_bytes_pieces]

theorem chars_eq_nil_iff {t : Text} : t.chars = [] ↔ t = [] := by
  rw [chars, List.map_eq_nil_iff]
  constructor
  · intro h
    rw [← flatMap_bytes_pieces t, h]
    rfl
  · rintro rfl
    rw [pieces]

theorem ofChar_ne_nil (c : Char) : ofChar c ≠ [] := String.utf8EncodeChar_ne_nil

@[simp] theorem isEmpty_repaired (t : Text) : t.repaired.isEmpty = t.isEmpty := by
  have hnil : t.repaired = [] ↔ t = [] := by
    rw [← chars_eq_nil_iff (t := t), repaired, ofChars, List.flatMap_eq_nil_iff,
      List.eq_nil_iff_forall_not_mem]
    exact forall₂_congr fun c _ => iff_of_false (ofChar_ne_nil c) id
  rw [Bool.eq_iff_iff, List.isEmpty_iff, List.isEmpty_iff, hnil]

/-! ### Texts side by side -/

/-- What is read at the start of a text does not depend on what stands behind it, if a character
begins there. -/
theorem decodeChar?_append_ofChar {t : Text} (ht : t ≠ []) (c : Char) (u : Text) :
    decodeChar? (t ++ (ofChar c ++ u)) = decodeChar? t := by
  have hreads : ∀ {t : Text} {d : Char} {v : Text}, t = ofChar d ++ v → decodeChar? t = some d :=
    fun h => h ▸ decodeChar?_ofChar_append ..
  cases hdecode : decodeChar? t with
  | some d =>
    refine hreads (v := t.drop d.utf8Size ++ (ofChar c ++ u)) ?_
    rw [← List.append_assoc (ofChar d), ← eq_ofChar_append_of_decodeChar? hdecode]
  | none =>
    by_contra hsome
    obtain ⟨d, hd⟩ := Option.ne_none_iff_exists'.1 hsome
    rcases List.append_eq_append_iff.1 (eq_ofChar_append_of_decodeChar? hd) with
      ⟨v, hchar, hrest⟩ | ⟨v, htext, -⟩
    · cases v with
      | nil =>
        rw [hreads (v := []) (by rw [hchar, List.append_nil, List.append_nil])] at hdecode
        cases hdecode
      | cons b v =>
        -- a byte in the middle of a character begins none
        have hlength : t.length < (ofChar d).length := by simp [hchar]
        have hd' : (ofChar d)[t.length] = b := by simp [hchar]
        obtain ⟨b', v', hc⟩ := List.exists_cons_of_ne_nil (ofChar_ne_nil c)
        have hb : b' = b := by
          rw [hc] at hrest
          exact (List.cons.inj hrest).1
        have hfirst : b'.IsUTF8FirstByte := by
          have hlead := (@UInt8.isUTF8FirstByte_getElem_utf8EncodeChar c 0
            (List.length_pos_iff.2 (ofChar_ne_nil c))).2 rfl
          rw [ofChar] at hc
          simpa only [hc, List.getElem_cons_zero] using hlead
        have hstart := UInt8.isUTF8FirstByte_getElem_utf8EncodeChar.1 (hd'.trans hb.symm ▸ hfirst)
        exact ht (List.eq_nil_of_length_eq_zero hstart)
    · rw [hreads htext] at hdecode
      cases hdecode

/-- **A character ends what stands before it:** no piece reaches over its start. -/
theorem pieces_append_ofChar (t : Text) (c : Char) (u : Text) :
    pieces (t ++ (ofChar c ++ u)) = pieces t ++ .char c :: pieces u := by
  fun_induction pieces t with
  | case1 => exact pieces_ofChar_append c u
  | case2 b r d hd ih =>
    have hsize : d.utf8Size = (d.utf8Size - 1) + 1 := by
      have := d.utf8Size_pos
      omega
    have htext : b :: r = ofChar d ++ r.drop (d.utf8Size - 1) := by
      have := eq_ofChar_append_of_decodeChar? hd
      rwa [hsize, List.drop_succ_cons] at this
    rw [htext, List.append_assoc, pieces_ofChar_append, ih, List.cons_append]
  | case3 b r hnone ih =>
    rw [List.cons_append, pieces, ← List.cons_append,
      decodeChar?_append_ofChar (List.cons_ne_nil b r), hnone]
    simp only [ih, List.cons_append]

theorem isValid_append_ofChar (t : Text) (c : Char) (u : Text) :
    isValid (t ++ (ofChar c ++ u)) = (isValid t && isValid u) := by
  rw [isValid, pieces_append_ofChar, List.all_append]
  rfl

theorem isValid_ofChars_append (cs : List Char) (t : Text) :
    isValid (ofChars cs ++ t) = isValid t := by
  induction cs with
  | nil => rfl
  | cons c cs ih =>
    rw [ofChars_cons, List.append_assoc, isValid, pieces_ofChar_append]
    exact ih

theorem isValid_ofString_append (s : String) (t : Text) : isValid (ofString s ++ t) = isValid t :=
  isValid_ofChars_append s.toList t

@[simp] theorem isValid_ofString (s : String) : isValid (ofString s) = true :=
  isValid_ofChars s.toList

@[simp] theorem isValid_nil : isValid [] = true := isValid_ofString ""

/-- **A literal splits a text:** what stands before it and what comes after it are valid each for
itself. -/
theorem isValid_append_ofString {s : String} (hs : s.toList ≠ []) (t u : Text) :
    isValid (t ++ (ofString s ++ u)) = (isValid t && isValid u) := by
  obtain ⟨c, cs, hcs⟩ := List.exists_cons_of_ne_nil hs
  have hsplit : ofString s = ofChar c ++ ofChars cs := by
    rw [← ofChars_cons, ← hcs]
    rfl
  rw [hsplit, List.append_assoc, isValid_append_ofChar, isValid_ofChars_append]

/-- An ASCII character is its byte. -/
theorem ofChar_ofNat {b : UInt8} (h : b.toNat < 0x80) : ofChar (Char.ofNat b.toNat) = [b] := by
  have hall : ∀ n < 0x80, ofChar (Char.ofNat n) = [UInt8.ofNat n] := by decide +kernel
  rw [hall _ h, UInt8.ofNat_toNat]

theorem isValid_ascii_append {t : Text} (h : ∀ b ∈ t, b.toNat < 0x80) (u : Text) :
    isValid (t ++ u) = isValid u := by
  have ht : t = ofChars (t.map fun b => Char.ofNat b.toNat) := by
    rw [ofChars, List.flatMap_map, List.flatMap_congr fun b hb => ofChar_ofNat (h b hb)]
    simp
  rw [ht, isValid_ofChars_append]

end ContractNet.Text

import ContractNet.Text.Blank
import Mathlib.Data.List.Basic

/-!
# Numbers and white space in texts

* `Text.digitsValue_decimal`: a number can be read off its digits, so different numbers are
  written differently (`Text.decimal_injective`);
* `Text.exists_decimal_eq_cons`: no number but zero starts with a zero;
* `Text.trim_bracketed`: nothing is trimmed from a text in square brackets.
-/

namespace ContractNet.Text

/-! ### Numbers -/

theorem toNat_toUInt8_of_isDigit {c : Char} (h : c.isDigit = true) : c.toUInt8.toNat = c.toNat := by
  have hc : c.toNat ≤ 57 := by
    simp only [Char.isDigit, Bool.and_eq_true, decide_eq_true_eq] at h
    exact h.2
  change c.val.toUInt8.toNat = c.val.toNat
  rw [UInt32.toNat_toUInt8]
  exact Nat.mod_eq_of_lt (Nat.lt_of_le_of_lt hc (by decide))

/-- Digits denote the number that they were written for. -/
theorem digitsValue_decimal (n : Nat) : digitsValue (decimal n) = n := by
  have hfold : digitsValue (decimal n) = Nat.ofDigitChars 10 (Nat.toDigits 10 n) 0 := by
    rw [digitsValue, decimal, List.foldl_map, Nat.ofDigitChars_eq_foldl]
    refine List.foldl_ext _ _ _ fun k c hc => ?_
    have hdigit := Nat.isDigit_of_mem_toDigits (by decide) (by decide) hc
    rw [toNat_toUInt8_of_isDigit hdigit]
  rw [hfold, Nat.ofDigitChars_ten_toDigits]

/-- Different numbers are written differently. -/
theorem decimal_injective : Function.Injective decimal :=
  Function.LeftInverse.injective digitsValue_decimal

theorem isDigit_of_mem_decimal {n : Nat} {b : UInt8} (h : b ∈ decimal n) : isDigit b = true := by
  obtain ⟨c, hc, rfl⟩ := List.mem_map.1 h
  have hdigit := Nat.isDigit_of_mem_toDigits (by decide) (by decide) hc
  have hcode := toNat_toUInt8_of_isDigit hdigit
  simp only [Char.isDigit, Bool.and_eq_true, decide_eq_true_eq] at hdigit
  simp only [isDigit, Bool.and_eq_true, decide_eq_true_eq, UInt8.le_iff_toNat_le, hcode]
  exact hdigit

/-- A number has a first digit, and only that of zero is a zero. -/
theorem exists_decimal_eq_cons (n : Nat) :
    ∃ b ds, decimal n = b :: ds ∧ (b = 0x30 → n = 0) := by
  induction n using Nat.strongRecOn with
  | ind n ih =>
    by_cases hn : n < 10
    · have hfirst : ∀ n < 10, (Nat.digitChar n).toUInt8 = 0x30 → n = 0 := by decide
      exact ⟨_, [], by rw [decimal, Nat.toDigits_of_lt_base hn]; rfl, hfirst n hn⟩
    · obtain ⟨b, ds, hds, hb⟩ := ih (n / 10) (by omega)
      refine ⟨b, ds ++ [(Nat.digitChar (n % 10)).toUInt8], ?_, fun h => ?_⟩
      · rw [decimal, Nat.toDigits_of_base_le (by decide) (by omega), List.map_append]
        exact congrArg (· ++ _) hds
      · have := hb h
        omega

/-! ### White space -/

/-- No code is dropped from a text that starts with a byte that no code starts with. -/
theorem dropCodes_cons_of_forall {codes : List Text} {b : UInt8}
    (h : ∀ code ∈ codes, code.head? ≠ some b ∧ code ≠ []) (t : Text) :
    dropCodes codes (b :: t) = b :: t := by
  have hnone : codes.find? (Text.startsWith (b :: t)) = none := by
    rw [List.find?_eq_none]
    intro code hcode hstart
    obtain ⟨hhead, hne⟩ := h code hcode
    obtain ⟨a, r, rfl⟩ := List.exists_cons_of_ne_nil hne
    rw [startsWith, List.isPrefixOf_cons_cons, Bool.and_eq_true, beq_iff_eq] at hstart
    exact hhead (by rw [hstart.1]; rfl)
  rw [dropCodes, codeLength, hnone]
  rfl

/-- **Brackets are no white space:** trimming leaves a text in square brackets as it is. -/
theorem trim_bracketed (t : Text) : trim ("[" ++ t ++ "]") = "[" ++ t ++ "]" := by
  have hleft : trimLeft ("[" ++ t ++ "]") = "[" ++ t ++ "]" :=
    dropCodes_cons_of_forall (by decide) (t ++ "]")
  have hright : dropCodes (blanks.map List.reverse) ("[" ++ t ++ "]" : Text).reverse =
      ("[" ++ t ++ "]" : Text).reverse := by
    rw [List.reverse_append]
    exact dropCodes_cons_of_forall (by decide) ("[" ++ t : Text).reverse
  rw [trim, hleft, trimRight, hright, List.reverse_reverse]

end ContractNet.Text

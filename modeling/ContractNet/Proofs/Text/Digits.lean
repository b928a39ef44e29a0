import ContractNet.Proofs.Text.Basic
import Mathlib.Tactic.Ring

/-!
# Digits and the order of texts

* `Text.digitsValue_cons`, `Text.digitsValue_lt`: the value of a row of digits, place by place;
* `Text.le_iff_digitsValue_le`: **rows of digits of the same length are ordered as their values**;
* `Text.le_append_iff`: texts with fronts of the same length are ordered by these first;
* `Text.length_padZeros_decimal`, `Text.digitsValue_padZeros_decimal`: a number that is filled up
  with zeros.
-/

namespace ContractNet.Text

variable {s t u v : Text} {b : UInt8}

/-! ### Values -/

theorem foldl_digits (n : Nat) (t : Text) :
    t.foldl (fun n b => 10 * n + (b.toNat - '0'.toNat)) n = n * 10 ^ t.length + digitsValue t := by
  induction t generalizing n with
  | nil => simp [digitsValue]
  | cons b t ih =>
    rw [digitsValue, List.foldl_cons, List.foldl_cons, ih, ih, List.length_cons]
    ring

theorem digitsValue_cons (b : UInt8) (t : Text) :
    digitsValue (b :: t) = (b.toNat - 48) * 10 ^ t.length + digitsValue t := by
  rw [digitsValue, List.foldl_cons, foldl_digits]
  simp

theorem toNat_of_isDigit (h : isDigit b = true) : 48 ≤ b.toNat ∧ b.toNat ≤ 57 := by
  simp only [isDigit, Bool.and_eq_true, decide_eq_true_eq, UInt8.le_iff_toNat_le] at h
  exact h

theorem digitsValue_lt (h : ∀ b ∈ t, isDigit b = true) : digitsValue t < 10 ^ t.length := by
  induction t with
  | nil => decide
  | cons b t ih =>
    obtain ⟨hb, ht⟩ := List.forall_mem_cons.1 h
    have hdigit := toNat_of_isDigit hb
    have hrest := ih ht
    rw [digitsValue_cons, List.length_cons, Nat.pow_succ]
    have hplace : (b.toNat - 48) * 10 ^ t.length ≤ 9 * 10 ^ t.length :=
      Nat.mul_le_mul_right _ (by omega)
    omega

/-! ### Order -/

theorem le_cons_iff {a b : UInt8} :
    le (a :: s) (b :: t) = true ↔ a < b ∨ a = b ∧ le s t = true := by
  simp [le]

/-- Texts with fronts of the same length are ordered by these first. -/
theorem le_append_iff (h : s.length = t.length) :
    le (s ++ u) (t ++ v) = true ↔ (s ≠ t ∧ le s t = true) ∨ (s = t ∧ le u v = true) := by
  induction s generalizing t with
  | nil =>
    obtain rfl : t = [] := List.eq_nil_of_length_eq_zero h.symm
    simp
  | cons a s ih =>
    obtain ⟨b, t, rfl⟩ := List.exists_cons_of_length_eq_add_one h.symm
    have hlength : s.length = t.length := by simpa using h
    rw [List.cons_append, List.cons_append, le_cons_iff, le_cons_iff, ih hlength]
    by_cases hab : a = b
    · subst hab
      simp
    · simp [hab]

/-- **Rows of digits of the same length are ordered as their values.** -/
theorem le_iff_digitsValue_le (hs : ∀ b ∈ s, isDigit b = true) (ht : ∀ b ∈ t, isDigit b = true)
    (h : s.length = t.length) : le s t = true ↔ digitsValue s ≤ digitsValue t := by
  induction s generalizing t with
  | nil =>
    obtain rfl : t = [] := List.eq_nil_of_length_eq_zero h.symm
    simp [le]
  | cons a s ih =>
    obtain ⟨b, t, rfl⟩ := List.exists_cons_of_length_eq_add_one h.symm
    obtain ⟨ha, hs⟩ := List.forall_mem_cons.1 hs
    obtain ⟨hb, ht⟩ := List.forall_mem_cons.1 ht
    have hlength : s.length = t.length := by simpa using h
    have hvalue := digitsValue_lt hs
    have hvalue' := digitsValue_lt ht
    have hdigit := toNat_of_isDigit ha
    have hdigit' := toNat_of_isDigit hb
    rw [le_cons_iff, ih hs ht hlength, digitsValue_cons, digitsValue_cons, hlength]
    rw [hlength] at hvalue
    -- the first digit decides: a higher one outweighs all that follow
    have houtweighs : ∀ {m n : Nat}, m < n →
        m * 10 ^ t.length + 10 ^ t.length ≤ n * 10 ^ t.length := by
      intro m n hmn
      have := Nat.mul_le_mul_right (10 ^ t.length) hmn
      rwa [Nat.succ_mul] at this
    rw [UInt8.lt_iff_toNat_lt, ← UInt8.toNat_inj]
    rcases Nat.lt_trichotomy a.toNat b.toNat with hab | hab | hab
    · have := houtweighs (show a.toNat - 48 < b.toNat - 48 by omega)
      omega
    · rw [hab]
      omega
    · have := houtweighs (show b.toNat - 48 < a.toNat - 48 by omega)
      omega

/-! ### Numbers of fixed width -/

theorem length_padZeros_decimal {w n : Nat} (hw : 0 < w) (hn : n < 10 ^ w) :
    (padZeros w (decimal n)).length = w := by
  have hlength : (decimal n).length ≤ w := by
    rw [decimal, List.length_map, Nat.length_toDigits_le_iff (by decide) hw]
    exact hn
  rw [padZeros, List.length_append, List.length_replicate]
  omega

theorem digitsValue_padZeros_decimal (w n : Nat) : digitsValue (padZeros w (decimal n)) = n := by
  have hzeros : ∀ k t, digitsValue (List.replicate k '0'.toUInt8 ++ t) = digitsValue t := by
    intro k t
    induction k with
    | zero => rfl
    | succ k ih =>
      have hzero : '0'.toUInt8.toNat - 48 = 0 := rfl
      rw [List.replicate_succ, List.cons_append, digitsValue_cons, ih, hzero, Nat.zero_mul,
        Nat.zero_add]
  rw [padZeros, hzeros, digitsValue_decimal]

theorem isDigit_of_mem_padZeros {w n : Nat} (h : b ∈ padZeros w (decimal n)) :
    isDigit b = true := by
  rcases List.mem_append.1 h with hzero | hdigit
  · obtain rfl := List.eq_of_mem_replicate hzero
    decide
  · exact isDigit_of_mem_decimal hdigit

end ContractNet.Text

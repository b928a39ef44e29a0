import ContractNet.Expr.Literal
import ContractNet.Proofs.Results
import ContractNet.Proofs.Text.Digits
import Mathlib.Data.List.TakeWhile
import Mathlib.Data.Nat.Digits.Lemmas

/-!
# Numerals

The number that a row of digits denotes, beside what `parseDecimal` and `parseHex` make of it.
These tell by the length of a text, and at 78 digits by its order, whether the number has 256 bits,
and a decimal number is put together from groups of 19 digits.

* `Radix.value`: the number that the digits of a text denote;
* `Radix.value_lt_pow_iff`: without zeros in front, the size of a number is the length of its text;
* `sumGroups_eq_ok_iff`: the groups of a decimal number add up to it;
* `parseDecimal_eq_ok_iff`, `parseHex_eq_ok_iff`: **the numbers of 256 bits are read, each as
  itself**, and nothing else is.
-/

namespace ContractNet.Expr

/-- The bases of literals. -/
inductive Radix where
  | decimal
  | hexadecimal
deriving DecidableEq

namespace Radix

/-- The base as a number. -/
def base : Radix → Nat
  | decimal => 10
  | hexadecimal => 16

/-- The value of a digit. -/
def digit? : Radix → UInt8 → Option Nat
  | decimal, b => if Text.isDigit b then some (b.toNat - '0'.toNat) else none
  | hexadecimal, b => Text.hexDigit? b

variable (r : Radix)

/-- The byte is a digit. -/
def isDigit (b : UInt8) : Bool := (r.digit? b).isSome

/-- The values of the digits of a text; other bytes are passed over. -/
def digits (t : Text) : List Nat := t.filterMap r.digit?

/-- The number that the digits of a text denote, the last one lowest. -/
def value (t : Text) : Nat := Nat.ofDigits r.base (r.digits t).reverse

variable {r} {b : UInt8} {d : Nat} {s t : Text}

/-! ### Digits -/

@[simp] theorem isDigit_decimal (b : UInt8) : decimal.isDigit b = Text.isDigit b := by
  cases h : Text.isDigit b <;> simp [isDigit, digit?, h]

@[simp] theorem digit?_zero (r : Radix) : r.digit? '0'.toUInt8 = some 0 := by
  cases r <;> decide

theorem one_lt_base (r : Radix) : 1 < r.base := by
  cases r <;> decide

theorem digit?_lt (h : r.digit? b = some d) : d < r.base := by
  cases r with
  | decimal =>
    simp only [digit?, Option.ite_none_right_eq_some, Option.some.injEq] at h
    have := Text.toNat_of_isDigit h.1
    have hzero : '0'.toNat = 48 := rfl
    simp only [base]
    omega
  | hexadecimal =>
    have hletters : 'a'.toNat = 97 ∧ 'A'.toNat = 65 ∧ '0'.toNat = 48 := ⟨rfl, rfl, rfl⟩
    have hf : 'f'.toUInt8.toNat = 102 ∧ 'F'.toUInt8.toNat = 70 := ⟨rfl, rfl⟩
    simp only [digit?, Text.hexDigit?, Bool.and_eq_true, decide_eq_true_eq,
      UInt8.le_iff_toNat_le] at h
    simp only [base]
    split_ifs at h with hdigit hsmall hlarge <;> cases h
    · have := Text.toNat_of_isDigit hdigit
      omega
    · omega
    · omega

/-- No digit but that of zero has the value zero. -/
theorem eq_of_digit?_eq_zero (h : r.digit? b = some 0) : b = '0'.toUInt8 := by
  have hzero : '0'.toUInt8.toNat = 48 ∧ '0'.toNat = 48 := ⟨rfl, rfl⟩
  rw [← UInt8.toNat_inj]
  cases r with
  | decimal =>
    simp only [digit?, Option.ite_none_right_eq_some, Option.some.injEq] at h
    have := Text.toNat_of_isDigit h.1
    omega
  | hexadecimal =>
    simp only [digit?, Text.hexDigit?] at h
    split_ifs at h with hdigit
    · have := Text.toNat_of_isDigit hdigit
      simp only [Option.some.injEq] at h
      omega
    all_goals simp at h

/-! ### Values -/

@[simp] theorem digits_append (r : Radix) (s t : Text) :
    r.digits (s ++ t) = r.digits s ++ r.digits t :=
  List.filterMap_append

theorem length_digits (h : ∀ b ∈ t, r.isDigit b = true) : (r.digits t).length = t.length :=
  List.filterMap_length_eq_length.2 h

theorem foldl_eq_ofDigits (base : Nat) (ds : List Nat) :
    ds.foldl (fun n d => base * n + d) 0 = Nat.ofDigits base ds.reverse := by
  rw [Nat.ofDigits_eq_foldr, List.foldr_reverse]
  simp [Nat.add_comm]

theorem value_append (r : Radix) (s t : Text) :
    r.value (s ++ t) = r.value s * r.base ^ (r.digits t).length + r.value t := by
  rw [value, digits_append, List.reverse_append, Nat.ofDigits_append, List.length_reverse, value,
    value]
  ring

/-- Zeros in front do not count. -/
theorem value_zeros (r : Radix) (k : Nat) (t : Text) :
    r.value (List.replicate k '0'.toUInt8 ++ t) = r.value t := by
  have hzeros : r.digits (List.replicate k '0'.toUInt8) = List.replicate k 0 := by
    rw [digits, List.filterMap_replicate_of_some (digit?_zero r)]
  rw [value_append, value, hzeros, List.reverse_replicate, Nat.ofDigits_replicate_zero,
    Nat.zero_mul, Nat.zero_add]

theorem forall_isDigit_zeros (r : Radix) (k : Nat) (t : Text) :
    (∀ b ∈ List.replicate k '0'.toUInt8 ++ t, r.isDigit b = true) ↔
      ∀ b ∈ t, r.isDigit b = true := by
  rw [List.forall_mem_append]
  refine and_iff_right fun b hb => ?_
  rw [List.eq_of_mem_replicate hb, isDigit, digit?_zero]
  rfl

theorem value_lt (h : ∀ b ∈ t, r.isDigit b = true) : r.value t < r.base ^ t.length := by
  rw [← length_digits h, ← List.length_reverse]
  refine Nat.ofDigits_lt_base_pow_length r.one_lt_base fun d hd => ?_
  obtain ⟨b, -, hb⟩ := List.mem_filterMap.1 (List.mem_reverse.1 hd)
  exact digit?_lt hb

/-- A digit in front that is not zero counts at least once for its place. -/
theorem pow_le_value (h : ∀ c ∈ b :: t, r.isDigit c = true) (hb : b ≠ '0'.toUInt8) :
    r.base ^ t.length ≤ r.value (b :: t) := by
  obtain ⟨hfirst, ht⟩ := List.forall_mem_cons.1 h
  obtain ⟨d, hd⟩ := Option.isSome_iff_exists.1 hfirst
  have hpos : d ≠ 0 := by
    rintro rfl
    exact hb (eq_of_digit?_eq_zero hd)
  have hvalue : r.value [b] = d := by simp [value, digits, hd]
  have happend := value_append r [b] t
  rw [List.singleton_append, hvalue, length_digits ht] at happend
  rw [happend]
  exact (Nat.le_mul_of_pos_left _ (Nat.pos_of_ne_zero hpos)).trans (Nat.le_add_right _ _)

/-- **Without zeros in front, the size of a number is the length of its text.** -/
theorem value_lt_pow_iff (h : ∀ b ∈ t, r.isDigit b = true) (hzero : t.head? ≠ some '0'.toUInt8)
    (k : Nat) : r.value t < r.base ^ k ↔ t.length ≤ k := by
  have hmono {m n : Nat} : r.base ^ m < r.base ^ n ↔ m < n := Nat.pow_lt_pow_iff_right r.one_lt_base
  constructor
  · intro hlt
    cases t with
    | nil => exact Nat.zero_le k
    | cons b t =>
      have hb : b ≠ '0'.toUInt8 := fun he => hzero (by rw [he]; rfl)
      exact hmono.1 ((pow_le_value h hb).trans_lt hlt)
  · intro hle
    exact (value_lt h).trans_le (Nat.pow_le_pow_right (Nat.zero_lt_of_lt r.one_lt_base) hle)

end Radix

variable {t : Text} {n : Nat}

/-! ### Decimal numbers -/

theorem digitsValue_eq_value (h : ∀ b ∈ t, Text.isDigit b = true) :
    Text.digitsValue t = Radix.decimal.value t := by
  have hdigits : Radix.decimal.digits t = t.map fun b => b.toNat - '0'.toNat := by
    rw [Radix.digits, ← List.filterMap_eq_map]
    refine List.filterMap_congr fun b hb => ?_
    simp [Radix.digit?, h b hb]
  rw [Radix.value, hdigits, ← Radix.foldl_eq_ofDigits, List.foldl_map]
  rfl

/-- A group is read if it has only digits, and is added to the number above it. -/
theorem sumGroups_cons_eq_ok_iff {g : Text} {gs : List Text} (hg : g ≠ []) :
    sumGroups (g :: gs) = .ok n ↔ (∀ b ∈ g, Text.isDigit b = true) ∧
      ∃ high, sumGroups gs = .ok high ∧ n = high * 10 ^ 19 + Text.digitsValue g := by
  rw [sumGroups]
  by_cases hall : ∀ b ∈ g, Text.isDigit b = true
  · have hcheck : (g.all Text.isDigit && !g.isEmpty) = true := by simpa [hg] using hall
    rw [if_pos hcheck, bind_eq_ok_iff, and_iff_right hall]
    refine exists_congr fun high => and_congr_right fun _ => ?_
    rw [pure_eq_ok_iff, eq_comm, Nat.add_comm, Nat.mul_comm]
    rfl
  · have hcheck : ¬(g.all Text.isDigit && !g.isEmpty) = true := by simpa [hg] using hall
    rw [if_neg hcheck]
    exact iff_of_false nofun fun h => hall h.1

/-- **The groups of a decimal number add up to it.** -/
theorem sumGroups_eq_ok_iff {fuel : Nat} (hne : t ≠ []) (hfuel : t.length ≤ fuel) :
    sumGroups (groups19 fuel t) = .ok n ↔
      (∀ b ∈ t, Text.isDigit b = true) ∧ n = Radix.decimal.value t := by
  induction fuel generalizing t n with
  | zero => exact absurd (List.eq_nil_of_length_eq_zero (Nat.le_zero.1 hfuel)) hne
  | succ fuel ih =>
    rw [groups19]
    by_cases hshort : t.length ≤ 19
    · rw [if_pos hshort, sumGroups_cons_eq_ok_iff hne]
      refine and_congr_right fun hdigits => ?_
      rw [← digitsValue_eq_value hdigits]
      simp [sumGroups, eq_comm]
    · -- the last 19 bytes are one group, and what stands before them is shorter
      obtain ⟨high, low, rfl, hlow⟩ : ∃ high low, t = high ++ low ∧ low.length = 19 := by
        refine ⟨t.take (t.length - 19), t.drop (t.length - 19), by simp, ?_⟩
        rw [List.length_drop]
        omega
      rw [List.length_append, hlow] at hshort hfuel
      have hlow' : low ≠ [] := List.ne_nil_of_length_eq_add_one hlow
      have hhigh : high ≠ [] := List.ne_nil_of_length_pos (by omega)
      have hcut : (high ++ low).length - 19 = high.length := by
        rw [List.length_append, hlow, Nat.add_sub_cancel]
      rw [if_neg (by rw [List.length_append, hlow]; exact hshort), hcut, List.drop_left,
        List.take_left, sumGroups_cons_eq_ok_iff hlow', List.forall_mem_append,
        and_comm (a := ∀ b ∈ high, _), and_assoc]
      refine and_congr_right fun hdigits => ?_
      rw [Radix.value_append, Radix.length_digits (by simpa using hdigits), hlow,
        ← digitsValue_eq_value hdigits]
      simp only [ih hhigh (by omega)]
      constructor
      · rintro ⟨_, ⟨hfront, rfl⟩, hn⟩
        exact ⟨hfront, hn⟩
      · rintro ⟨hfront, hn⟩
        exact ⟨_, ⟨hfront, rfl⟩, hn⟩

theorem exists_dropZeros (t : Text) : ∃ k, t = List.replicate k '0'.toUInt8 ++ dropZeros t ∧
    ((dropZeros t).head? = some '0'.toUInt8 → dropZeros t = "0") ∧ (dropZeros t = [] → t = []) := by
  fun_induction dropZeros t with
  | case1 c rest ih =>
    obtain ⟨k, htext, hzero, hnil⟩ := ih
    refine ⟨k + 1, ?_, hzero, fun he => absurd (hnil he) (List.cons_ne_nil _ _)⟩
    rw [List.replicate_succ, List.cons_append, ← htext]
  | case2 b c rest hb => exact ⟨0, rfl, fun he => absurd (Option.some.inj he) hb, nofun⟩
  | case3 t hshort =>
    refine ⟨0, rfl, fun hhead => ?_, id⟩
    match t with
    | [b] =>
      rw [Option.some.inj hhead]
      rfl
    | b :: c :: rest => exact absurd rfl (hshort b c rest)

/-- The longest decimal numbers of 256 bits have 78 digits, and of these the texts up to the
greatest number are such numbers. -/
theorem not_decimalRange_iff (hdigits : ∀ b ∈ t, Text.isDigit b = true)
    (hzero : t.head? = some '0'.toUInt8 → t = "0") :
    (¬t.length > maxDecimal.length ∧ ¬(t.length = maxDecimal.length && !t.le maxDecimal) = true) ↔
      Radix.decimal.value t < 2 ^ 256 := by
  have hlength : maxDecimal.length = 78 := by decide +kernel
  have hmax : Text.digitsValue maxDecimal = 2 ^ 256 - 1 := Text.digitsValue_decimal _
  have hmaxDigits : ∀ b ∈ maxDecimal, Text.isDigit b = true := fun _ hb =>
    Text.isDigit_of_mem_decimal hb
  have hpow : (10 : Nat) ^ 77 < 2 ^ 256 ∧ (2 : Nat) ^ 256 < 10 ^ 78 := by norm_num
  rw [hlength]
  by_cases hhead : t.head? = some '0'.toUInt8
  · rw [hzero hhead]
    decide +kernel
  · have hsize := Radix.value_lt_pow_iff (r := .decimal) (by simpa using hdigits) hhead
    rcases Nat.lt_trichotomy t.length 78 with hlt | heq | hgt
    · have hless : Radix.decimal.value t < 10 ^ 77 := (hsize 77).2 (by omega)
      exact iff_of_true ⟨by omega, by simp [hlt.ne]⟩ (hless.trans hpow.1)
    · have horder := Text.le_iff_digitsValue_le hdigits hmaxDigits (heq.trans hlength.symm)
      rw [hmax, digitsValue_eq_value hdigits] at horder
      simp only [heq, gt_iff_lt, lt_self_iff_false, not_false_eq_true, decide_true, Bool.true_and,
        Bool.not_eq_true', Bool.not_eq_false, true_and, horder]
      omega
    · have hmore : ¬Radix.decimal.value t < 10 ^ 78 := fun hlt => by
        have := (hsize 78).1 hlt
        omega
      exact iff_of_false (fun h => h.1 hgt) (by omega)

/-- A decimal literal without its plus sign. -/
def unsigned (t : Text) : Text := (Text.after? "+" t).getD t

/-- **Decimal digits are read as the number that they denote**, if it has 256 bits. -/
theorem parseDecimal_eq_ok_iff : parseDecimal t = .ok n ↔
    unsigned t ≠ [] ∧ (∀ b ∈ unsigned t, Text.isDigit b = true) ∧
      n = Radix.decimal.value (unsigned t) ∧ n < 2 ^ 256 := by
  obtain ⟨k, htext, hzero, hnil⟩ := exists_dropZeros (unsigned t)
  have hempty : dropZeros (unsigned t) = [] ↔ unsigned t = [] := by
    refine ⟨hnil, fun he => ?_⟩
    rw [he]
    rfl
  have hdigits : (∀ b ∈ dropZeros (unsigned t), Text.isDigit b = true) ↔
      ∀ b ∈ unsigned t, Text.isDigit b = true := by
    have := Radix.forall_isDigit_zeros .decimal k (dropZeros (unsigned t))
    rw [← htext] at this
    simpa using this.symm
  have hvalue : Radix.decimal.value (dropZeros (unsigned t)) =
      Radix.decimal.value (unsigned t) := by
    conv_rhs => rw [htext, Radix.value_zeros]
  rw [parseDecimal, ← unsigned]
  constructor
  · intro h
    split_ifs at h with hlong hlate hne
    obtain ⟨hall, rfl⟩ := (sumGroups_eq_ok_iff hne le_rfl).1 h
    have hfits := (not_decimalRange_iff hall hzero).1 ⟨hlong, hlate⟩
    exact ⟨fun he => hne (hempty.2 he), hdigits.1 hall, hvalue, hfits⟩
  · rintro ⟨hne, hall, rfl, hfits⟩
    obtain ⟨hlong, hlate⟩ := (not_decimalRange_iff (hdigits.2 hall) hzero).2 (hvalue ▸ hfits)
    rw [if_neg hlong, if_neg hlate, if_neg fun he => hne (hempty.1 he),
      sumGroups_eq_ok_iff (fun he => hne (hempty.1 he)) le_rfl]
    exact ⟨hdigits.2 hall, hvalue.symm⟩

/-! ### Hexadecimal numbers -/

theorem mapM_digit?_eq_some_iff {r : Radix} {ds : List Nat} :
    t.mapM r.digit? = some ds ↔ (∀ b ∈ t, r.isDigit b = true) ∧ ds = r.digits t := by
  induction t generalizing ds with
  | nil => simp [Radix.digits]
  | cons b t ih =>
    cases hb : r.digit? b with
    | none => simp [List.mapM_cons, Radix.isDigit, hb]
    | some d =>
      simp only [List.mapM_cons, hb, List.forall_mem_cons, Radix.isDigit, Option.isSome_some,
        true_and, Radix.digits, List.filterMap_cons_some hb, Option.bind_eq_bind, Option.bind_some,
        Option.bind_eq_some_iff, ih, Option.pure_def, Option.some.injEq]
      constructor
      · rintro ⟨_, ⟨hall, rfl⟩, rfl⟩
        exact ⟨hall, rfl⟩
      · rintro ⟨hall, rfl⟩
        exact ⟨_, ⟨hall, rfl⟩, rfl⟩

theorem dropWhile_zeros (t : Text) :
    ∃ k, t = List.replicate k '0'.toUInt8 ++ t.dropWhile (· = '0'.toUInt8) ∧
      (t.dropWhile (· = '0'.toUInt8)).head? ≠ some '0'.toUInt8 := by
  refine ⟨(t.takeWhile (· = '0'.toUInt8)).length, ?_, fun he => ?_⟩
  · conv_lhs => rw [← List.takeWhile_append_dropWhile (p := (· = '0'.toUInt8)) (l := t)]
    congr 1
    exact List.eq_replicate_of_mem fun b hb => by simpa using List.mem_takeWhile_imp hb
  · have := List.head?_dropWhile_not (· = '0'.toUInt8) t
    rw [he] at this
    simp at this

/-- **Hexadecimal digits are read as the number that they denote**, if it has 256 bits. -/
theorem parseHex_eq_ok_iff : parseHex t = .ok n ↔
    (∀ b ∈ t, Radix.hexadecimal.isDigit b = true) ∧ n = Radix.hexadecimal.value t ∧
      n < 2 ^ 256 := by
  obtain ⟨k, htext, hhead⟩ := dropWhile_zeros t
  have hdigits := Radix.forall_isDigit_zeros .hexadecimal k (t.dropWhile (· = '0'.toUInt8))
  have hvalue := Radix.value_zeros .hexadecimal k (t.dropWhile (· = '0'.toUInt8))
  rw [← htext] at hdigits hvalue
  have hpow : Radix.hexadecimal.base ^ 64 = 2 ^ 256 := by norm_num [Radix.base]
  have hfold : ∀ ds : List Nat, ds.foldl (fun n d => 16 * n + d) 0 = Nat.ofDigits 16 ds.reverse :=
    Radix.foldl_eq_ofDigits 16
  rw [parseHex, hdigits, hvalue]
  constructor
  · intro h
    split_ifs at h with hlong
    split at h
    · rename_i ds hmap
      obtain ⟨hall, rfl⟩ := mapM_digit?_eq_some_iff (r := .hexadecimal).1 hmap
      obtain rfl := Except.ok.inj h
      have hfits := (Radix.value_lt_pow_iff hall hhead 64).2 (Nat.not_lt.1 hlong)
      exact ⟨hall, hfold _, by rw [hfold, ← hpow]; exact hfits⟩
    · cases h
  · rintro ⟨hall, rfl, hfits⟩
    have hshort := (Radix.value_lt_pow_iff hall hhead 64).1 (hpow ▸ hfits)
    have hmap : (t.dropWhile (· = '0'.toUInt8)).mapM Text.hexDigit? = some _ :=
      mapM_digit?_eq_some_iff (r := .hexadecimal).2 ⟨hall, rfl⟩
    rw [if_neg (Nat.not_lt.2 hshort), hmap]
    exact congrArg Except.ok (hfold _)

end ContractNet.Expr

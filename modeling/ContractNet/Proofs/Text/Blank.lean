import ContractNet.Proofs.Text.Basic
import Mathlib.Data.List.Find

/-!
# Trimming

* `Text.exists_trimLeft`, `Text.exists_trimRight`: what is trimmed is a row of white space
  characters;
* `Text.trim_trim`: a trimmed text has nothing left to trim;
* `Text.trim_append_cons`: a byte that is in no white space character stops the trimming on both
  of its sides;
* `Text.trim_white`: white space around a text is trimmed away, and the text itself is left.
-/

namespace ContractNet.Text

variable {codes : List Text} {t : Text}

/-- Codes without the byte `b` do not reach past it. -/
theorem startsWith_append_cons {code : Text} {b : UInt8} (hb : b ∉ code) (s r : Text) :
    startsWith (s ++ b :: r) code = startsWith s code := by
  induction s generalizing code with
  | nil =>
    cases code with
    | nil => rfl
    | cons a code =>
      have hab : (a == b) = false := by
        rw [beq_eq_false_iff_ne]
        rintro rfl
        exact hb List.mem_cons_self
      simp [startsWith, List.isPrefixOf, hab]
  | cons c s ih =>
    cases code with
    | nil => rfl
    | cons a code =>
      have := ih fun h => hb (List.mem_cons_of_mem a h)
      simp only [startsWith] at this
      simp [startsWith, List.isPrefixOf, this]

/-! ### Codes at the front -/

theorem find?_of_codeLength_ne (h : codeLength codes t ≠ 0) :
    ∃ code ∈ codes, code <+: t ∧ codeLength codes t = code.length := by
  unfold codeLength at h ⊢
  cases hfind : codes.find? t.startsWith with
  | none => simp [hfind] at h
  | some code =>
    have hstart : t.startsWith code = true := List.find?_some hfind
    exact ⟨code, List.mem_of_find?_eq_some hfind, List.isPrefixOf_iff_prefix.1 hstart, rfl⟩

theorem codeLength_eq_zero_iff (hne : [] ∉ codes) :
    codeLength codes t = 0 ↔ ∀ code ∈ codes, ¬code <+: t := by
  constructor
  · intro h code hcode hfront
    have hstart : t.startsWith code = true := List.isPrefixOf_iff_prefix.2 hfront
    cases hfind : codes.find? t.startsWith with
    | none => exact List.find?_eq_none.1 hfind code hcode hstart
    | some c =>
      rw [codeLength, hfind] at h
      exact hne (List.eq_nil_of_length_eq_zero h ▸ List.mem_of_find?_eq_some hfind)
  · intro h
    by_contra hlength
    obtain ⟨code, hcode, hfront, -⟩ := find?_of_codeLength_ne hlength
    exact h code hcode hfront

theorem dropCodes_of_codeLength_eq (h : codeLength codes t = 0) : dropCodes codes t = t := by
  cases t with
  | nil => rw [dropCodes]
  | cons b r => rw [dropCodes, if_pos h]

theorem dropCodes_of_codeLength_ne (h : codeLength codes t ≠ 0) :
    dropCodes codes t = dropCodes codes (t.drop (codeLength codes t)) := by
  obtain ⟨n, hn⟩ := Nat.exists_eq_succ_of_ne_zero h
  cases t with
  | nil => rw [List.drop_nil]
  | cons b r =>
    rw [dropCodes, if_neg h, hn]
    rfl

/-- Dropping codes goes on as long as there is one. -/
theorem dropCodes_induction (codes : List Text) {P : Text → Prop}
    (stop : ∀ t, codeLength codes t = 0 → P t)
    (step : ∀ t, codeLength codes t ≠ 0 → P (t.drop (codeLength codes t)) → P t) (t : Text) :
    P t := by
  by_cases h : codeLength codes t = 0
  · exact stop t h
  · obtain ⟨code, -, hfront, hlength⟩ := find?_of_codeLength_ne h
    have hle := hfront.length_le
    exact step t h (dropCodes_induction codes stop step _)
termination_by t.length
decreasing_by
  rw [List.length_drop]
  omega

theorem codeLength_dropCodes (codes : List Text) (t : Text) :
    codeLength codes (dropCodes codes t) = 0 := by
  induction t using dropCodes_induction codes with
  | stop t h => rwa [dropCodes_of_codeLength_eq h]
  | step t h ih => rwa [dropCodes_of_codeLength_ne h]

/-- What is dropped is a row of codes. -/
theorem exists_dropCodes (codes : List Text) (t : Text) :
    ∃ dropped : List Text, (∀ code ∈ dropped, code ∈ codes) ∧
      t = dropped.flatten ++ dropCodes codes t := by
  induction t using dropCodes_induction codes with
  | stop t h => exact ⟨[], by simp, by rw [dropCodes_of_codeLength_eq h]; rfl⟩
  | step t h ih =>
    obtain ⟨dropped, hcodes, htext⟩ := ih
    obtain ⟨code, hcode, hfront, hlength⟩ := find?_of_codeLength_ne h
    refine ⟨code :: dropped, List.forall_mem_cons.2 ⟨hcode, hcodes⟩, ?_⟩
    rw [dropCodes_of_codeLength_ne h, List.flatten_cons, List.append_assoc, ← htext, hlength]
    exact (List.prefix_iff_eq_append.1 hfront).symm

/-- A byte that is in no code stops the dropping. -/
theorem dropCodes_append_cons {b : UInt8} (hb : ∀ code ∈ codes, b ∉ code) (s r : Text) :
    dropCodes codes (s ++ b :: r) = dropCodes codes s ++ b :: r := by
  have hlength : ∀ s, codeLength codes (s ++ b :: r) = codeLength codes s := by
    intro s
    unfold codeLength
    rw [List.find?_congr fun code hcode => startsWith_append_cons (hb code hcode) s r]
  induction s using dropCodes_induction codes with
  | stop s h => rw [dropCodes_of_codeLength_eq h, dropCodes_of_codeLength_eq (hlength s ▸ h)]
  | step s h ih =>
    obtain ⟨code, -, hfront, hle⟩ := find?_of_codeLength_ne h
    have hle : codeLength codes s ≤ s.length := hle ▸ hfront.length_le
    rw [dropCodes_of_codeLength_ne h, ← ih, dropCodes_of_codeLength_ne (hlength s ▸ h), hlength,
      List.drop_append_of_le_length hle]

/-! ### Trimming -/

theorem exists_trimLeft (t : Text) :
    ∃ dropped : List Text, (∀ code ∈ dropped, code ∈ blanks) ∧ t = dropped.flatten ++ trimLeft t :=
  exists_dropCodes blanks t

theorem trimLeft_trimLeft (t : Text) : trimLeft (trimLeft t) = trimLeft t :=
  dropCodes_of_codeLength_eq (codeLength_dropCodes blanks t)

theorem trimRight_trimRight (t : Text) : trimRight (trimRight t) = trimRight t := by
  unfold trimRight
  rw [List.reverse_reverse, dropCodes_of_codeLength_eq (codeLength_dropCodes _ _)]

theorem exists_trimRight (t : Text) :
    ∃ dropped : List Text, (∀ code ∈ dropped, code ∈ blanks) ∧
      t = trimRight t ++ dropped.flatten := by
  obtain ⟨dropped, hdropped, htext⟩ := exists_dropCodes (blanks.map List.reverse) t.reverse
  refine ⟨(dropped.map List.reverse).reverse, fun code hcode => ?_, ?_⟩
  · obtain ⟨c, hc, rfl⟩ := List.mem_map.1 (List.mem_reverse.1 hcode)
    obtain ⟨c', hc', rfl⟩ := List.mem_map.1 (hdropped c hc)
    rwa [List.reverse_reverse]
  · rw [trimRight, ← List.reverse_flatten, ← List.reverse_append, ← htext, List.reverse_reverse]

theorem trimRight_front (t : Text) : trimRight t <+: t := by
  obtain ⟨dropped, -, htext⟩ := exists_trimRight t
  exact ⟨dropped.flatten, htext.symm⟩

theorem trim_trimLeft (t : Text) : trim (trimLeft t) = trim t := by
  rw [trim, trimLeft_trimLeft, trim]

/-- **A trimmed text has nothing left to trim.** -/
theorem trim_trim (t : Text) : trim (trim t) = trim t := by
  have hne : [] ∉ blanks := by decide
  have hleft : trimLeft (trim t) = trim t := by
    have hnone := (codeLength_eq_zero_iff hne).1 (codeLength_dropCodes blanks t)
    refine dropCodes_of_codeLength_eq ((codeLength_eq_zero_iff hne).2 fun code hcode hfront => ?_)
    exact hnone code hcode (hfront.trans (trimRight_front (trimLeft t)))
  rw [trim, hleft, trim, trimRight_trimRight]

/-- **A byte that is in no white space character stops the trimming** on both of its sides. -/
theorem trim_append_cons {b : UInt8} (hb : ∀ code ∈ blanks, b ∉ code) (s r : Text) :
    trim (s ++ b :: r) = trimLeft s ++ b :: trimRight r := by
  have hback : ∀ code ∈ blanks.map List.reverse, b ∉ code := by
    rw [List.forall_mem_map]
    exact fun code hcode hmem => hb code hcode (List.mem_reverse.1 hmem)
  have hright : trimRight (trimLeft s ++ b :: r) = trimLeft s ++ b :: trimRight r := by
    unfold trimRight
    rw [List.reverse_append, List.reverse_cons, List.append_assoc, List.singleton_append,
      dropCodes_append_cons hback]
    simp
  rw [trim, trimLeft, dropCodes_append_cons hb, ← trimLeft, hright]

/-! ### White space around a text -/

/-- The text is a row of white space characters. -/
def IsWhite (t : Text) : Prop :=
  ∃ row : List Text, (∀ code ∈ row, code ∈ blanks) ∧ t = row.flatten

/-- Codes of which none starts with another one are dropped one by one. -/
theorem dropCodes_flatten_append (hne : [] ∉ codes)
    (hfree : ∀ c ∈ codes, ∀ c' ∈ codes, c <+: c' → c = c') {row : List Text}
    (hrow : ∀ code ∈ row, code ∈ codes) (t : Text) :
    dropCodes codes (row.flatten ++ t) = dropCodes codes t := by
  induction row with
  | nil => rfl
  | cons code row ih =>
    obtain ⟨hcode, hrest⟩ := List.forall_mem_cons.1 hrow
    rw [List.flatten_cons, List.append_assoc]
    have hfront : code <+: code ++ (row.flatten ++ t) := List.prefix_append _ _
    have hdrop : codeLength codes (code ++ (row.flatten ++ t)) ≠ 0 := fun h =>
      (codeLength_eq_zero_iff hne).1 h code hcode hfront
    obtain ⟨c, hc, hc', hlength⟩ := find?_of_codeLength_ne hdrop
    -- the code that is found is the one that stands there
    obtain rfl : c = code := by
      rcases List.prefix_or_prefix_of_prefix hc' hfront with h | h
      · exact hfree c hc code hcode h
      · exact (hfree code hcode c hc h).symm
    rw [dropCodes_of_codeLength_ne hdrop, hlength, List.drop_left, ih hrest]

theorem trimLeft_white {front : Text} (hfront : IsWhite front) (hne : t ≠ [])
    (hfirst : ∀ code ∈ blanks, code.head? ≠ t.head?) : trimLeft (front ++ t) = t := by
  obtain ⟨row, hrow, rfl⟩ := hfront
  have hnil : ∀ code ∈ blanks, code ≠ [] := by decide
  have hfree : ∀ c ∈ blanks, ∀ c' ∈ blanks, c <+: c' → c = c' := by decide +kernel
  rw [trimLeft, dropCodes_flatten_append (by decide) hfree hrow]
  obtain ⟨b, u, rfl⟩ := List.exists_cons_of_ne_nil hne
  exact dropCodes_cons_of_forall (fun code hcode => ⟨hfirst code hcode, hnil code hcode⟩) u

theorem trimRight_white {back : Text} (hback : IsWhite back) (hne : t ≠ [])
    (hlast : ∀ code ∈ blanks, code.getLast? ≠ t.getLast?) : trimRight (t ++ back) = t := by
  obtain ⟨row, hrow, rfl⟩ := hback
  have hnil : ∀ code ∈ blanks, code ≠ [] := by decide
  have hfree : ∀ c ∈ blanks.map List.reverse, ∀ c' ∈ blanks.map List.reverse,
      c <+: c' → c = c' := by
    decide +kernel
  have hrow' : ∀ code ∈ (row.map List.reverse).reverse, code ∈ blanks.map List.reverse := by
    intro code hcode
    obtain ⟨c, hc, rfl⟩ := List.mem_map.1 (List.mem_reverse.1 hcode)
    exact List.mem_map_of_mem (hrow c hc)
  have hstays : dropCodes (blanks.map List.reverse) t.reverse = t.reverse := by
    obtain ⟨b, u, hreverse⟩ := List.exists_cons_of_ne_nil (List.reverse_ne_nil_iff.2 hne)
    rw [hreverse]
    refine dropCodes_cons_of_forall (List.forall_mem_map.2 fun code hcode => ?_) u
    have hb : t.getLast? = some b := by rw [← List.head?_reverse, hreverse, List.head?_cons]
    exact ⟨by simpa [hb] using hlast code hcode, by simpa using hnil code hcode⟩
  rw [trimRight, List.reverse_append, List.reverse_flatten,
    dropCodes_flatten_append (by decide) hfree hrow', hstays, List.reverse_reverse]

/-- **White space around a text is trimmed away**, and the text itself is left, if white space
neither starts as it starts nor ends as it ends. -/
theorem trim_white {front back : Text} (hfront : IsWhite front) (hback : IsWhite back)
    (hne : t ≠ []) (hfirst : ∀ code ∈ blanks, code.head? ≠ t.head?)
    (hlast : ∀ code ∈ blanks, code.getLast? ≠ t.getLast?) : trim (front ++ t ++ back) = t := by
  have hleft : trimLeft (front ++ (t ++ back)) = t ++ back := by
    refine trimLeft_white hfront (by simp [hne]) fun code hcode => ?_
    rw [List.head?_append_of_ne_nil t hne]
    exact hfirst code hcode
  rw [trim, List.append_assoc, hleft, trimRight_white hback hne hlast]

end ContractNet.Text

import ContractNet.Proofs.Expr.Arguments

/-!
# Brackets

When the brackets of a text match, and what cutting out the first argument makes of them.

* `Balanced`: along the tokens the bracket depth is never negative, and it is 0 in the end;
* `HeadBalanced`: the brackets of the tokens up to the end, or up to some comma, match;
* `Covers.exists_trim`: trimming takes neither brackets nor commas from a text;
* `isBalanced_firstArgument_iff`: **the brackets of the first argument match** if and only if those
  of the tokens up to the end or a comma do.
-/

namespace ContractNet.Expr

/-- From depth `d` on, the brackets among the tokens match: the depth is never negative, and it is
0 in the end. -/
structure Balanced (d : Int) (ts : List Token) : Prop where
  nonneg : ∀ i, 0 ≤ d + depth (ts.take i)
  closed : d + depth ts = 0

/-- From depth `d` on, the brackets match up to the end, or up to some comma. -/
def HeadBalanced (d : Int) (ts : List Token) : Prop :=
  ∃ front rest, ts = front ++ rest ∧ Balanced d front ∧ ∀ t ∈ rest.head?, t.isPunct "," = true

/-- The brackets of the text match. -/
def IsBalanced (e : Text) : Prop := Balanced 0 (tokenize e)

/-- The brackets of the text match up to its end, or up to some comma. -/
def IsHeadBalanced (e : Text) : Prop := HeadBalanced 0 (tokenize e)

variable {d : Int} {t : Token} {ts : List Token} {p : Piece} {ps qs : List Piece}
  {e hidden : Text}

/-! ### Tokens one by one -/

theorem balanced_nil_iff : Balanced d [] ↔ d = 0 := by
  constructor
  · intro h
    simpa [depth] using h.closed
  · rintro rfl
    exact ⟨by simp [depth], rfl⟩

theorem balanced_cons_iff : Balanced d (t :: ts) ↔ 0 ≤ d ∧ Balanced (d + bracketStep t) ts := by
  constructor
  · intro h
    refine ⟨by simpa [depth] using h.nonneg 0, fun i => ?_, ?_⟩
    · simpa [depth, Int.add_assoc] using h.nonneg (i + 1)
    · simpa [depth, Int.add_assoc] using h.closed
  · rintro ⟨hd, h⟩
    refine ⟨fun i => ?_, ?_⟩
    · cases i with
      | zero => simpa [depth] using hd
      | succ i => simpa [depth, Int.add_assoc] using h.nonneg i
    · simpa [depth, Int.add_assoc] using h.closed

instance (d : Int) (ts : List Token) : Decidable (Balanced d ts) :=
  match ts with
  | [] => decidable_of_iff (d = 0) balanced_nil_iff.symm
  | t :: ts =>
    have := instDecidableBalanced (d + bracketStep t) ts
    decidable_of_iff (0 ≤ d ∧ Balanced (d + bracketStep t) ts) balanced_cons_iff.symm

instance (e : Text) : Decidable (IsBalanced e) :=
  inferInstanceAs (Decidable (Balanced 0 (tokenize e)))

theorem headBalanced_nil_iff : HeadBalanced d [] ↔ d = 0 := by
  rw [← balanced_nil_iff]
  constructor
  · rintro ⟨front, rest, hsplit, hfront, -⟩
    rwa [(List.append_eq_nil_iff.1 hsplit.symm).1] at hfront
  · intro h
    exact ⟨[], [], rfl, h, by simp⟩

theorem headBalanced_cons_iff : HeadBalanced d (t :: ts) ↔
    t.isPunct "," = true ∧ d = 0 ∨ 0 ≤ d ∧ HeadBalanced (d + bracketStep t) ts := by
  constructor
  · rintro ⟨front, rest, hsplit, hfront, hrest⟩
    cases front with
    | nil =>
      rw [List.nil_append] at hsplit
      exact .inl ⟨hrest t (by rw [← hsplit]; rfl), balanced_nil_iff.1 hfront⟩
    | cons u front =>
      obtain ⟨rfl, rfl⟩ := List.cons.inj hsplit
      obtain ⟨hd, hfront⟩ := balanced_cons_iff.1 hfront
      exact .inr ⟨hd, front, rest, rfl, hfront, hrest⟩
  · rintro (⟨hcomma, hd⟩ | ⟨hd, front, rest, rfl, hfront, hrest⟩)
    · exact ⟨[], t :: ts, rfl, balanced_nil_iff.2 hd, by simpa using hcomma⟩
    · exact ⟨t :: front, rest, rfl, balanced_cons_iff.2 ⟨hd, hfront⟩, hrest⟩

theorem Balanced.head (h : Balanced d ts) : HeadBalanced d ts :=
  ⟨ts, [], (List.append_nil ts).symm, h, by simp⟩

/-! ### Pieces -/

/-- `Balanced` for pieces. -/
def Closes : Int → List Piece → Prop
  | d, [] => d = 0
  | d, p :: ps => 0 ≤ d ∧ Closes (d + p.step) ps

/-- The pieces before the first comma at depth 0, if they start at depth `d`. -/
def argument : Int → List Piece → List Piece
  | _, [] => []
  | d, p :: ps => if p.isComma = true ∧ d = 0 then [] else p :: argument (d + p.step) ps

instance : DecidablePred Piece.IsPlain := fun p =>
  inferInstanceAs (Decidable (∀ m ∈ marks, p.bytes ≠ [m]))

/-- The brackets and commas among pieces. -/
def marksOf (ps : List Piece) : List Piece := ps.filter fun p => ¬p.IsPlain

theorem Closes.nonneg (h : Closes d ps) : 0 ≤ d := by
  cases ps with
  | nil => exact h.ge
  | cons p ps => exact h.1

theorem closes_cons_of_isPlain (hp : p.IsPlain) : Closes d (p :: ps) ↔ Closes d ps := by
  rw [Closes, hp.step, Int.add_zero]
  exact and_iff_right_of_imp Closes.nonneg

theorem argument_cons_of_isPlain (hp : p.IsPlain) :
    argument d (p :: ps) = p :: argument d ps := by
  rw [argument, if_neg (by simp [hp.isComma]), hp.step, Int.add_zero]

theorem marksOf_cons_of_isPlain (hp : p.IsPlain) : marksOf (p :: ps) = marksOf ps :=
  List.filter_cons_of_neg (by simpa using hp)

theorem marksOf_cons_of_not_isPlain (hp : ¬p.IsPlain) : marksOf (p :: ps) = p :: marksOf ps :=
  List.filter_cons_of_pos (by simpa using hp)

theorem closes_marksOf_iff : Closes d (marksOf ps) ↔ Closes d ps := by
  induction ps generalizing d with
  | nil => rfl
  | cons p ps ih =>
    by_cases hp : p.IsPlain
    · rw [marksOf_cons_of_isPlain hp, closes_cons_of_isPlain hp, ih]
    · rw [marksOf_cons_of_not_isPlain hp, Closes, Closes, ih]

theorem marksOf_argument (d : Int) (ps : List Piece) :
    marksOf (argument d ps) = argument d (marksOf ps) := by
  induction ps generalizing d with
  | nil => rfl
  | cons p ps ih =>
    by_cases hp : p.IsPlain
    · rw [argument_cons_of_isPlain hp, marksOf_cons_of_isPlain hp, marksOf_cons_of_isPlain hp, ih]
    · rw [marksOf_cons_of_not_isPlain hp, argument, argument]
      split_ifs
      · rfl
      · rw [marksOf_cons_of_not_isPlain hp, ih]

theorem marksOf_append (ps qs : List Piece) : marksOf (ps ++ qs) = marksOf ps ++ marksOf qs :=
  List.filter_append ps qs

theorem marksOf_of_isPlain (h : ∀ p ∈ ps, p.IsPlain) : marksOf ps = [] :=
  List.filter_eq_nil_iff.2 fun p hp => by simpa using h p hp

/-! ### Pieces and tokens -/

theorem balanced_tokensOf_iff (pos : Nat) : Balanced d (tokensOf pos ps) ↔ Closes d ps := by
  induction ps generalizing d pos with
  | nil =>
    have hstop : bracketStep ⟨.stop, [], pos⟩ = 0 := rfl
    rw [tokensOf, balanced_cons_iff, balanced_nil_iff, hstop, Closes]
    omega
  | cons p ps ih =>
    cases hgap : p.isGap with
    | true =>
      rw [tokensOf_gap hgap, ih, closes_cons_of_isPlain (Piece.isPlain_of_isGap hgap)]
    | false =>
      rw [tokensOf_token hgap, balanced_cons_iff, ih]
      rfl

theorem headBalanced_tokensOf_iff (pos : Nat) :
    HeadBalanced d (tokensOf pos ps) ↔ Closes d (argument d ps) := by
  induction ps generalizing d pos with
  | nil =>
    have hstop : bracketStep ⟨.stop, [], pos⟩ = 0 := rfl
    have hcomma : Token.isPunct "," ⟨.stop, [], pos⟩ ≠ true := Bool.false_ne_true
    rw [tokensOf, headBalanced_cons_iff, headBalanced_nil_iff, hstop, argument, Closes,
      or_iff_right fun h => hcomma h.1]
    omega
  | cons p ps ih =>
    cases hgap : p.isGap with
    | true =>
      have hplain := Piece.isPlain_of_isGap hgap
      rw [tokensOf_gap hgap, ih, argument_cons_of_isPlain hplain, closes_cons_of_isPlain hplain]
    | false =>
      rw [tokensOf_token hgap, headBalanced_cons_iff, ih, argument]
      by_cases hcomma : p.isComma = true ∧ d = 0
      · rw [if_pos hcomma]
        exact iff_of_true (.inl hcomma) hcomma.2
      · rw [if_neg hcomma]
        exact or_iff_right hcomma

theorem Covers.isBalanced_iff (h : Covers e ps hidden) : IsBalanced e ↔ Closes 0 ps := by
  rw [IsBalanced, h.tokenize_eq, balanced_tokensOf_iff]

theorem Covers.isHeadBalanced_iff (h : Covers e ps hidden) :
    IsHeadBalanced e ↔ Closes 0 (argument 0 ps) := by
  rw [IsHeadBalanced, h.tokenize_eq, headBalanced_tokensOf_iff]

/-! ### Trimming and cutting -/

/-- **Trimming takes neither brackets nor commas from a text.** -/
theorem Covers.exists_trim (h : Covers e ps hidden) :
    ∃ qs hidden', Covers e.trim qs hidden' ∧ marksOf qs = marksOf ps := by
  obtain ⟨blank, qs, rfl, hqs, hbytes, hblank⟩ := exists_append_of_trimLeft h.cut
  have hmarks : marksOf (blank ++ qs) = marksOf qs := by
    rw [marksOf_append, marksOf_of_isPlain hblank, List.nil_append]
  have hseen : ∀ b ∈ bytes qs, b ≠ 0 := fun b hb =>
    h.seen b (by rw [bytes_append]; exact List.mem_append_right _ hb)
  cases hidden with
  | nil =>
    obtain ⟨dropped, hdropped, htext⟩ := Text.exists_trimRight (bytes qs)
    obtain ⟨whole, part, back, rfl, hcut, hfront, hpart, hback⟩ := hqs.exists_front htext
    have hback : ∀ q ∈ back, q.IsPlain := hback (not_mem_marks_of_blanks hdropped)
    refine ⟨whole ++ part, [], ⟨?_, hcut, fun b hb => hseen b ?_, rfl⟩, ?_⟩
    · rw [h.text, List.append_nil, List.append_nil, hfront, hbytes]
      rfl
    · rw [htext]
      exact List.mem_append_left _ (hfront ▸ hb)
    · rw [hmarks, marksOf_append, marksOf_append, marksOf_of_isPlain hpart,
        marksOf_of_isPlain hback]
  | cons b rest =>
    -- the trimming at the end does not reach over a NUL byte
    obtain rfl : b = 0 := by simpa [visible] using h.hidden
    refine ⟨qs, 0 :: Text.trimRight rest, ⟨?_, hqs, hseen, rfl⟩, hmarks.symm⟩
    rw [h.text, hbytes]
    exact Text.trim_append_cons (b := 0) (by decide) _ rest

/-- The first argument goes up to a comma at depth 0, or to the end. -/
theorem exists_argument_append (d : Int) (ps : List Piece) :
    ∃ rest, ps = argument d ps ++ rest ∧ NoComma d (argument d ps) ∧
      ∀ c ∈ rest.head?, c.isComma = true ∧ d + depthOf (argument d ps) = 0 := by
  induction ps generalizing d with
  | nil => exact ⟨[], rfl, trivial, by simp⟩
  | cons p ps ih =>
    rw [argument]
    split_ifs with hcomma
    · exact ⟨p :: ps, rfl, trivial, by simpa [depthOf] using hcomma⟩
    · obtain ⟨rest, hsplit, hnone, hrest⟩ := ih (d + p.step)
      refine ⟨rest, by rw [List.cons_append, ← hsplit], ⟨?_, hnone⟩, ?_⟩
      · exact fun hp hd => hcomma ⟨hp, hd⟩
      · simpa [depthOf, Int.add_assoc] using hrest

/-- The first argument is cut out between pieces and then trimmed. -/
theorem Covers.exists_firstArgument (h : Covers e ps hidden) :
    ∃ t hidden', Covers t (argument 0 ps) hidden' ∧ firstArgument e = t.trim := by
  obtain ⟨rest, hsplit, hnone, hrest⟩ := exists_argument_append 0 ps
  cases rest with
  | nil =>
    rw [List.append_nil] at hsplit
    rw [← hsplit] at hnone ⊢
    exact ⟨e, hidden, h, h.firstArgument_eq hnone⟩
  | cons c rest =>
    obtain ⟨hcomma, hdepth⟩ := hrest c rfl
    have hcut := h.cut
    have hseen := h.seen
    rw [hsplit] at hcut hseen
    refine ⟨bytes (argument 0 ps), [], ⟨by simp, hcut.of_append.1, fun b hb => hseen b ?_, rfl⟩, ?_⟩
    · rw [bytes_append]
      exact List.mem_append_left _ hb
    · have hpos : commaPos? 0 (tokenize e) = some (bytes (argument 0 ps)).length := by
        have hfound := commaPos?_tokensOf_append hnone 0 (c :: rest)
        rwa [← hsplit, hdepth, commaPos?_tokensOf_comma hcomma, Nat.zero_add,
          ← h.tokenize_eq] at hfound
      have htext : e = bytes (argument 0 ps) ++ (bytes (c :: rest) ++ hidden) := by
        rw [← List.append_assoc, ← bytes_append, ← hsplit, h.text]
      rw [firstArgument, hpos]
      simp only
      rw [htext, List.take_left]

/-- **The brackets of the first argument match** if and only if those of the text match up to its
end, or up to some comma. -/
theorem isBalanced_firstArgument_iff (e : Text) :
    IsBalanced (firstArgument e.trim) ↔ IsHeadBalanced e := by
  -- trimming happens before the cut and after it, and changes no bracket and no comma either time
  obtain ⟨ps, hidden, hcovers⟩ := exists_covers e
  obtain ⟨qs, _, htrimmed, hqs⟩ := hcovers.exists_trim
  obtain ⟨t, _, hcut, hfirst⟩ := htrimmed.exists_firstArgument
  obtain ⟨rs, _, hcovered, hrs⟩ := hcut.exists_trim
  calc IsBalanced (firstArgument e.trim)
      ↔ Closes 0 rs := by rw [hfirst, hcovered.isBalanced_iff]
    _ ↔ Closes 0 (argument 0 (marksOf ps)) := by
        rw [← closes_marksOf_iff, hrs, marksOf_argument, hqs]
    _ ↔ IsHeadBalanced e := by
        rw [← marksOf_argument, closes_marksOf_iff, hcovers.isHeadBalanced_iff]

end ContractNet.Expr

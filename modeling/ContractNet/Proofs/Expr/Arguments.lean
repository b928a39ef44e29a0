import ContractNet.Expr.Variables
import ContractNet.Proofs.Expr.Borders

/-!
# The first argument

`firstArgument` cuts a list of arguments at its first comma outside of brackets and strings.

* `OneArgument` says that a text is an argument: its brackets and strings end in it, and no comma
  stands outside of them;
* `OneArgument.firstArgument_trim`: an argument alone is its own first argument;
* `OneArgument.firstArgument_append`: **what follows the comma does not matter**: neither brackets,
  quotes or commas in later arguments nor the trimming of the list move the place of the cut.
-/

namespace ContractNet.Expr

/-- The bracket depth after some tokens. -/
def depth : List Token → Int
  | [] => 0
  | t :: ts => bracketStep t + depth ts

/-- The text is one argument: it has no NUL byte, its strings are closed, its brackets match up in
number, and every comma stands inside of brackets. -/
structure OneArgument (e : Text) : Prop where
  seen : ∀ b ∈ e, b ≠ 0
  closed : ∀ t ∈ tokenize e, t.kind = .string → isClosed t.literal = true
  balanced : depth (tokenize e) = 0
  comma : ∀ i t, (tokenize e)[i]? = some t → t.isPunct "," = true →
    depth ((tokenize e).take i) ≠ 0

instance (e : Text) : Decidable (OneArgument e) :=
  decidable_of_iff
    (0 ∉ e ∧ (∀ t ∈ tokenize e, t.kind = .string → isClosed t.literal = true) ∧
      depth (tokenize e) = 0 ∧
      ∀ i < (tokenize e).length, ((tokenize e)[i]?.any (Token.isPunct ",")) = true →
        depth ((tokenize e).take i) ≠ 0)
    ⟨fun ⟨hzero, hclosed, hbalanced, hcomma⟩ =>
        ⟨fun _ hb h => hzero (h ▸ hb), hclosed, hbalanced, fun i t ht h =>
          hcomma i (List.getElem?_eq_some_iff.1 ht).1 (by rw [ht]; exact h)⟩,
      fun h => ⟨fun hzero => h.seen 0 hzero rfl, h.closed, h.balanced, fun i hi hany => by
        obtain ⟨t, ht, hcomma⟩ := (Option.any_eq_true _ _).1 hany
        exact h.comma i t ht hcomma⟩⟩

/-! ### Depth among pieces -/

/-- How a piece changes the bracket depth. -/
def Piece.step (p : Piece) : Int := bracketStep ⟨p.kind, p.bytes, 0⟩

/-- The piece is a comma. -/
def Piece.isComma (p : Piece) : Bool := Token.isPunct "," ⟨p.kind, p.bytes, 0⟩

/-- The bracket depth after some pieces. -/
def depthOf : List Piece → Int
  | [] => 0
  | p :: ps => p.step + depthOf ps

/-- No comma among the pieces stands at depth 0, if they start at depth `d`. -/
def NoComma : Int → List Piece → Prop
  | _, [] => True
  | d, p :: ps => (p.isComma = true → d ≠ 0) ∧ NoComma (d + p.step) ps

variable {p : Piece} {ps qs : List Piece} {d : Int} {e hidden : Text}

theorem depthOf_append (ps qs : List Piece) : depthOf (ps ++ qs) = depthOf ps + depthOf qs := by
  induction ps with
  | nil => exact (Int.zero_add _).symm
  | cons p ps ih => rw [List.cons_append, depthOf, depthOf, ih, Int.add_assoc]

theorem Piece.IsPlain.step (h : p.IsPlain) : p.step = 0 := by
  have hopen : p.bytes ∉ (["(", "[", "\x7b"] : List Text) := by
    intro hmem
    simp only [List.mem_cons, List.not_mem_nil, or_false] at hmem
    rcases hmem with hmem | hmem | hmem <;> exact h _ (by decide) hmem
  have hclose : p.bytes ∉ ([")", "]", "\x7d"] : List Text) := by
    intro hmem
    simp only [List.mem_cons, List.not_mem_nil, or_false] at hmem
    rcases hmem with hmem | hmem | hmem <;> exact h _ (by decide) hmem
  simp [Piece.step, bracketStep, hopen, hclose]

theorem Piece.IsPlain.isComma (h : p.IsPlain) : p.isComma = false := by
  have hne : p.bytes ≠ "," := h _ (by decide)
  simp [Piece.isComma, Token.isPunct, hne]

theorem Piece.isPlain_of_isGap (h : p.isGap = true) : p.IsPlain := by
  refine isPlain_of_first fun hmem => ?_
  have hspace : ∀ m ∈ marks, isSpace m = false := by decide +kernel
  rw [isGap, hspace _ hmem] at h
  cases h

theorem depthOf_of_isPlain (h : ∀ p ∈ ps, p.IsPlain) : depthOf ps = 0 := by
  induction ps with
  | nil => rfl
  | cons p ps ih =>
    obtain ⟨hp, hps⟩ := List.forall_mem_cons.1 h
    rw [depthOf, hp.step, ih hps, Int.add_zero]

namespace NoComma

theorem append_iff : NoComma d (ps ++ qs) ↔ NoComma d ps ∧ NoComma (d + depthOf ps) qs := by
  induction ps generalizing d with
  | nil => simp [NoComma, depthOf]
  | cons p ps ih => simp [NoComma, ih, depthOf, and_assoc, Int.add_assoc]

theorem of_isPlain (h : ∀ p ∈ ps, p.IsPlain) : NoComma d ps := by
  induction ps generalizing d with
  | nil => trivial
  | cons p ps ih =>
    obtain ⟨hp, hps⟩ := List.forall_mem_cons.1 h
    exact ⟨by simp [hp.isComma], ih hps⟩

end NoComma

/-! ### Depth among tokens -/

theorem depth_tokensOf (pos : Nat) (ps : List Piece) : depth (tokensOf pos ps) = depthOf ps := by
  induction ps generalizing pos with
  | nil => rfl
  | cons p ps ih =>
    cases hgap : p.isGap with
    | true =>
      rw [tokensOf_gap hgap, ih, depthOf, (Piece.isPlain_of_isGap hgap).step, Int.zero_add]
    | false =>
      rw [tokensOf_token hgap, depth, depthOf, ih]
      rfl

theorem noComma_of_tokensOf (pos : Nat)
    (h : ∀ i t, (tokensOf pos ps)[i]? = some t → t.isPunct "," = true →
      d + depth ((tokensOf pos ps).take i) ≠ 0) : NoComma d ps := by
  induction ps generalizing d pos with
  | nil => trivial
  | cons p ps ih =>
    cases hgap : p.isGap with
    | true =>
      have hplain := Piece.isPlain_of_isGap hgap
      rw [tokensOf_gap hgap] at h
      refine ⟨by simp [hplain.isComma], ?_⟩
      rw [hplain.step, Int.add_zero]
      exact ih _ h
    | false =>
      rw [tokensOf_token hgap] at h
      refine ⟨fun hcomma => ?_, ih (pos + p.bytes.length) fun i t ht hcomma => ?_⟩
      · simpa [depth] using h 0 _ rfl hcomma
      · have := h (i + 1) t ht hcomma
        rwa [List.take_succ_cons, depth, ← Int.add_assoc] at this

/-- The first comma at depth 0 is not among pieces without one. -/
theorem commaPos?_tokensOf_append (h : NoComma d ps) (pos : Nat) (qs : List Piece) :
    commaPos? d (tokensOf pos (ps ++ qs)) =
      commaPos? (d + depthOf ps) (tokensOf (pos + (bytes ps).length) qs) := by
  induction ps generalizing d pos with
  | nil => simp [depthOf]
  | cons p ps ih =>
    obtain ⟨hp, hps⟩ := h
    have hpos : pos + (bytes (p :: ps)).length = pos + p.bytes.length + (bytes ps).length := by
      simp [Nat.add_assoc]
    rw [List.cons_append, hpos, depthOf, ← Int.add_assoc, ← ih hps]
    cases hgap : p.isGap with
    | true => rw [tokensOf_gap hgap, (Piece.isPlain_of_isGap hgap).step, Int.add_zero]
    | false =>
      have hnot : ¬(Token.isPunct "," ⟨p.kind, p.bytes, pos⟩ && decide (d = 0)) = true := by
        intro hboth
        obtain ⟨hcomma, hd⟩ := Bool.and_eq_true_iff.1 hboth
        exact hp hcomma (of_decide_eq_true hd)
      rw [tokensOf_token hgap, commaPos?, if_neg hnot]
      rfl

theorem commaPos?_tokensOf_comma (hp : p.isComma = true) (pos : Nat) (ps : List Piece) :
    commaPos? 0 (tokensOf pos (p :: ps)) = some pos := by
  have hgap : p.isGap = false := by
    by_contra hgap
    have := (Piece.isPlain_of_isGap (by simpa using hgap)).isComma
    rw [hp] at this
    cases this
  rw [tokensOf_token hgap, commaPos?, if_pos]
  exact Bool.and_eq_true_iff.2 ⟨hp, rfl⟩

theorem Covers.firstArgument_eq (h : Covers e ps hidden) (hps : NoComma 0 ps) :
    firstArgument e = e.trim := by
  have hnone : commaPos? 0 (tokenize e) = none := by
    have := commaPos?_tokensOf_append hps 0 []
    rw [List.append_nil, ← h.tokenize_eq] at this
    rw [this]
    simp [tokensOf, commaPos?, Token.isPunct]
  rw [firstArgument, hnone]

/-! ### The first argument -/

theorem not_mem_marks_of_blanks {row : List Text} (h : ∀ code ∈ row, code ∈ Text.blanks) :
    ∀ b ∈ row.flatten, b ∉ marks := by
  have hplain : ∀ code ∈ Text.blanks, ∀ b ∈ code, b ∉ marks := by decide +kernel
  intro b hb
  obtain ⟨code, hcode, hmem⟩ := List.mem_flatten.1 hb
  exact hplain code (h code hcode) b hmem

/-- What trimming leaves of a text at its end is cut into the last of its pieces. -/
theorem exists_append_of_trimLeft (hps : Cut ps) :
    ∃ blank qs, ps = blank ++ qs ∧ Cut qs ∧ bytes qs = Text.trimLeft (bytes ps) ∧
      ∀ p ∈ blank, p.IsPlain := by
  obtain ⟨dropped, hdropped, htext⟩ := Text.exists_trimLeft (bytes ps)
  obtain ⟨qs, hqs, hbytes⟩ := exists_cut (Text.trimLeft (bytes ps))
  refine ⟨dropped.flatten.map Piece.single, qs, ?_, hqs, hbytes, ?_⟩
  · refine hps.unique (cut_blanks hdropped hqs) ?_
    rw [bytes_append, bytes_map_single, hbytes, ← htext]
  · rw [List.forall_mem_map]
    exact fun b hb => Piece.isPlain_of_first (not_mem_marks_of_blanks hdropped b hb)

namespace OneArgument

/-- The pieces of an argument without the white space at its front. -/
theorem exists_pieces (h : OneArgument e) :
    ∃ qs, Cut qs ∧ bytes qs = e.trimLeft ∧ (∀ b ∈ bytes qs, b ≠ 0) ∧ NoComma 0 qs ∧
      depthOf qs = 0 ∧ ∀ q ∈ qs, q.kind = .string → isClosed q.bytes = true := by
  obtain ⟨ps, hps, rfl⟩ := exists_cut e
  have hcovers : Covers (bytes ps) ps [] := ⟨by simp, hps, h.seen, rfl⟩
  have htokens := hcovers.tokenize_eq
  obtain ⟨blank, qs, rfl, hqs, hbytes, hblank⟩ := exists_append_of_trimLeft hps
  have hcomma : NoComma 0 (blank ++ qs) :=
    noComma_of_tokensOf 0 fun i t hi ht => by
      rw [Int.zero_add, ← htokens]
      exact h.comma i t (htokens ▸ hi) ht
  have hdepth : depthOf (blank ++ qs) = 0 := by
    rw [← depth_tokensOf 0, ← htokens, h.balanced]
  rw [NoComma.append_iff, depthOf_of_isPlain hblank, Int.add_zero] at hcomma
  rw [depthOf_append, depthOf_of_isPlain hblank, Int.zero_add] at hdepth
  refine ⟨qs, hqs, hbytes, fun b hb => ?_, hcomma.2, hdepth, fun q hq hkind => ?_⟩
  · exact h.seen b (by rw [bytes_append]; exact List.mem_append_right _ hb)
  · obtain ⟨t, ht, htkind, hliteral⟩ := exists_mem_tokensOf (List.mem_append_right blank hq)
      (Piece.isGap_of_kind (by simp [hkind])) 0
    rw [← hliteral]
    exact h.closed t (htokens ▸ ht) (htkind.trans hkind)

/-- An argument alone is its own first argument. -/
theorem firstArgument_trim (h : OneArgument e) : firstArgument e.trim = e.trim := by
  obtain ⟨qs, hqs, hbytes, hseen, hcomma, -⟩ := h.exists_pieces
  obtain ⟨cut, htext⟩ := Text.trimRight_front e.trimLeft
  obtain ⟨whole, part, rest, rfl, hcut, hfront, hpart, -⟩ :=
    hqs.exists_front (hbytes.trans htext.symm)
  have hcovers : Covers e.trim (whole ++ part) [] := by
    refine ⟨by rw [hfront, List.append_nil]; rfl, hcut, fun b hb => hseen b ?_, rfl⟩
    rw [hbytes, ← htext]
    exact List.mem_append_left _ (hfront ▸ hb)
  have hnone : NoComma 0 (whole ++ part) :=
    NoComma.append_iff.2 ⟨(NoComma.append_iff.1 hcomma).1, .of_isPlain hpart⟩
  rw [hcovers.firstArgument_eq hnone, Text.trim_trim]

/-- **What follows the comma does not matter:** the first of several arguments is cut out and
trimmed, whatever the others are. -/
theorem firstArgument_append (h : OneArgument e) (others : Text) :
    firstArgument (Text.trim (e ++ ("," ++ others))) = e.trim := by
  obtain ⟨qs, hqs, hbytes, hseen, hcomma, hdepth, hclosed⟩ := h.exists_pieces
  have htrim : Text.trim (e ++ ("," ++ others)) = e.trimLeft ++ ','.toUInt8 :: others.trimRight :=
    Text.trim_append_cons (by decide) e others
  obtain ⟨rs, hidden, hrs⟩ := exists_covers others.trimRight
  have hcovers : Covers (e.trimLeft ++ ','.toUInt8 :: others.trimRight) (qs ++ .comma :: rs)
      hidden := by
    have htext : bytes (qs ++ .comma :: rs) = e.trimLeft ++ ','.toUInt8 :: bytes rs := by
      rw [bytes_append, bytes_cons, hbytes]
      rfl
    refine ⟨?_, hqs.append_comma hclosed hrs.cut, ?_, hrs.hidden⟩
    · rw [htext, hrs.text]
      simp
    · rw [htext, List.forall_mem_append, List.forall_mem_cons, ← hbytes]
      exact ⟨hseen, by decide, hrs.seen⟩
  have hpos : commaPos? 0 (tokenize (e.trimLeft ++ ','.toUInt8 :: others.trimRight)) =
      some e.trimLeft.length := by
    rw [hcovers.tokenize_eq, commaPos?_tokensOf_append hcomma, hdepth, hbytes, Int.add_zero,
      commaPos?_tokensOf_comma (by decide), Nat.zero_add]
  rw [htrim, firstArgument, hpos]
  simp only [List.take_left, Text.trim_trimLeft]

end OneArgument

end ContractNet.Expr

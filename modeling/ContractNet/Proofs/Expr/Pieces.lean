import ContractNet.Expr.Token
import Mathlib.Data.List.Chain
import Mathlib.Data.List.Forall2
import Mathlib.Data.List.Find
import Mathlib.Data.List.TakeWhile

/-!
# Pieces of an expression

A text is cut into pieces: single bytes of white space, and tokens.  `Cut` says that every piece
is as long as the tokens make it, given what follows.

* `exists_covers`: every expression is a row of pieces, followed by what a NUL byte hides;
* `Covers.tokenize_eq`: its tokens are the pieces that are no white space;
* `Cut.of_alike`: **identifiers may be respelled.**  Another identifier in the place of one does
  not move the border of any piece, unless it follows a number without white space between.
-/

namespace ContractNet.Expr

/-- A byte of white space, or the first byte of a token with its other bytes. -/
structure Piece where
  first : UInt8
  rest : Text
deriving DecidableEq

namespace Piece

variable (p : Piece)

/-- The text of a piece. -/
def bytes : Text := p.first :: p.rest

/-- The piece is white space. -/
def isGap : Bool := isSpace p.first

/-- The class of the token that the piece is. -/
def kind : Kind := kindOf p.first

/-- The piece ends where the text `after` follows it. -/
def Ends (after : Text) : Prop :=
  if p.isGap then p.rest = [] else tailLength p.first (p.rest ++ after) = p.rest.length

/-- The piece is spelled as an identifier. -/
structure IsIdent : Prop where
  start : isIdentStart p.first = true
  rest : ∀ b ∈ p.rest, isIdentByte b = true

/-- The same piece, or one identifier in the place of another. -/
def Alike (q : Piece) : Prop := q = p ∨ p.kind = .ident ∧ q.IsIdent

end Piece

/-- The text of pieces. -/
def bytes (ps : List Piece) : Text := ps.flatMap Piece.bytes

@[simp] theorem bytes_nil : bytes [] = [] := rfl

@[simp] theorem bytes_cons (p : Piece) (ps : List Piece) : bytes (p :: ps) = p.bytes ++ bytes ps :=
  rfl

/-- Each piece ends where the next one starts. -/
def Cut : List Piece → Prop
  | [] => True
  | p :: ps => p.Ends (bytes ps) ∧ Cut ps

/-- The tokens among pieces that stand at position `pos`. -/
def tokensOf (pos : Nat) : List Piece → List Token
  | [] => [⟨.stop, [], pos⟩]
  | p :: ps =>
    if p.isGap then tokensOf (pos + p.bytes.length) ps
    else ⟨p.kind, p.bytes, pos⟩ :: tokensOf (pos + p.bytes.length) ps

theorem tokensOf_gap {p : Piece} (h : p.isGap = true) (pos : Nat) (ps : List Piece) :
    tokensOf pos (p :: ps) = tokensOf (pos + p.bytes.length) ps := by
  rw [tokensOf, if_pos h]

theorem tokensOf_token {p : Piece} (h : p.isGap = false) (pos : Nat) (ps : List Piece) :
    tokensOf pos (p :: ps) = ⟨p.kind, p.bytes, pos⟩ :: tokensOf (pos + p.bytes.length) ps := by
  rw [tokensOf, if_neg (by simp [h])]

/-! ### Classes of bytes -/

theorem kindOf_eq_ident_iff {b : UInt8} : kindOf b = .ident ↔ isIdentStart b = true := by
  unfold kindOf
  split_ifs with hident <;> simp [hident]

theorem kindOf_ne_stop (b : UInt8) : kindOf b ≠ .stop := by
  unfold kindOf
  split_ifs <;> simp

theorem isSpace_of_isIdentStart {b : UInt8} (h : isIdentStart b = true) : isSpace b = false := by
  by_contra hspace
  simp only [isSpace, Bool.not_eq_false, Bool.or_eq_true, decide_eq_true_eq] at hspace
  rcases hspace with ((rfl | rfl) | rfl) | rfl <;> exact absurd h (by decide)

theorem isIdentByte_of_isIdentStart {b : UInt8} (h : isIdentStart b = true) :
    isIdentByte b = true := by
  simp [isIdentByte, h]

theorem isIdentStart_eq_false {b : UInt8} (h : isIdentByte b = false) : isIdentStart b = false := by
  by_contra hstart
  rw [isIdentByte_of_isIdentStart (by simpa using hstart)] at h
  cases h

/-- No operator has a byte that an identifier starts with. -/
theorem isIdentStart_of_mem_operators {op : Text} (hop : op ∈ operators) :
    ∀ b ∈ op, isIdentStart b = false := by
  revert op
  decide +kernel

theorem Piece.IsIdent.isGap {p : Piece} (h : p.IsIdent) : p.isGap = false :=
  isSpace_of_isIdentStart h.start

theorem Piece.IsIdent.kind {p : Piece} (h : p.IsIdent) : p.kind = .ident :=
  kindOf_eq_ident_iff.2 h.start

/-! ### The length of tokens -/

/-- The bytes of a class at the front of `s ++ u` are those of `s` if all of `s` is of the class and
`u` does not go on with it. -/
theorem length_takeWhile_append_eq_iff {P : UInt8 → Bool} {s u : Text} :
    ((s ++ u).takeWhile P).length = s.length ↔
      (∀ b ∈ s, P b = true) ∧ ∀ b ∈ u.head?, P b = false := by
  induction s with
  | nil => cases u <;> simp [List.takeWhile_cons]
  | cons a s ih =>
    cases ha : P a with
    | false => simp [ha]
    | true => simp [ha, ih]

theorem stringLength_quote (q : UInt8) (r : Text) : stringLength q (q :: r) = 1 := by
  simp [stringLength.eq_def]

theorem stringLength_escape {q : UInt8} (hq : ¬ '\\'.toUInt8 = q) (b : UInt8) (r : Text) :
    stringLength q ('\\'.toUInt8 :: b :: r) = 2 + stringLength q r := by
  rw [stringLength.eq_def]
  simp [hq]

theorem stringLength_other {q b : UInt8} (hq : ¬b = q) (hescape : ¬b = '\\'.toUInt8) (r : Text) :
    stringLength q (b :: r) = 1 + stringLength q r := by
  rw [stringLength.eq_def]
  simp [hq, hescape]

theorem stringLength_pos (q b : UInt8) (r : Text) : 0 < stringLength q (b :: r) := by
  rw [stringLength.eq_def]
  dsimp only
  split_ifs
  · exact Nat.one_pos
  · split <;> omega
  · omega

theorem stringLength_le (q : UInt8) (r : Text) : stringLength q r ≤ r.length := by
  fun_induction stringLength q r <;> simp_all <;> omega

theorem tailLength_le (b : UInt8) (r : Text) : tailLength b r ≤ r.length := by
  unfold tailLength
  split
  · exact (List.takeWhile_prefix _).length_le
  · exact (List.takeWhile_prefix _).length_le
  · exact stringLength_le b r
  · split
    · rename_i op hop
      have hstart : Text.startsWith (b :: r) op = true := List.find?_some hop
      have hfront : op <+: b :: r := List.isPrefixOf_iff_prefix.1 hstart
      have := hfront.length_le
      simp only [List.length_cons] at this
      omega
    · exact Nat.zero_le _

/-! ### Every expression is cut -/

theorem exists_cut (t : Text) : ∃ ps, Cut ps ∧ bytes ps = t := by
  induction 0, t using tokensAt.induct with
  | case1 _ => exact ⟨[], trivial, rfl⟩
  | case2 _ b r hspace ih =>
    obtain ⟨ps, hcut, rfl⟩ := ih
    exact ⟨⟨b, []⟩ :: ps, ⟨by simp [Piece.Ends, Piece.isGap, hspace], hcut⟩, rfl⟩
  | case3 _ b r hspace n ih =>
    obtain ⟨ps, hcut, htext⟩ := ih
    refine ⟨⟨b, r.take n⟩ :: ps, ⟨?_, hcut⟩, ?_⟩
    · have hn : n ≤ r.length := tailLength_le b r
      simp [Piece.Ends, Piece.isGap, hspace, htext, n, hn]
    · simp [Piece.bytes, htext]

theorem tokensAt_bytes {ps : List Piece} (h : Cut ps) (pos : Nat) :
    tokensAt pos (bytes ps) = tokensOf pos ps := by
  induction ps generalizing pos with
  | nil => simp [tokensAt, tokensOf]
  | cons p ps ih =>
    obtain ⟨hends, hcut⟩ := h
    rw [bytes_cons, Piece.bytes, List.cons_append, tokensAt]
    cases hgap : p.isGap with
    | true =>
      have hspace : isSpace p.first = true := hgap
      have hrest : p.rest = [] := by simpa [Piece.Ends, hgap] using hends
      rw [if_pos hspace, hrest, List.nil_append, ih hcut, tokensOf_gap hgap]
      simp [Piece.bytes, hrest]
    | false =>
      have hspace : isSpace p.first = false := hgap
      have hlen : tailLength p.first (p.rest ++ bytes ps) = p.rest.length := by
        simpa [Piece.Ends, hgap] using hends
      rw [if_neg (by simp [hspace]), tokensOf_token hgap]
      simp only [hlen, List.take_left, List.drop_left, ih hcut]
      simp [Piece.bytes, Piece.kind, Nat.add_assoc, Nat.add_comm 1]

/-- The expression `e` is the row of the pieces `ps`, followed by what a NUL byte hides. -/
structure Covers (e : Text) (ps : List Piece) (hidden : Text) : Prop where
  text : e = bytes ps ++ hidden
  cut : Cut ps
  seen : ∀ b ∈ bytes ps, b ≠ 0
  hidden : visible hidden = []

theorem exists_covers (e : Text) : ∃ ps hidden, Covers e ps hidden := by
  obtain ⟨ps, hcut, htext⟩ := exists_cut (visible e)
  refine ⟨ps, e.dropWhile (· ≠ 0), ⟨?_, hcut, fun b hb => ?_, ?_⟩⟩
  · rw [htext]
    exact List.takeWhile_append_dropWhile.symm
  · rw [htext] at hb
    simpa using List.mem_takeWhile_imp hb
  · exact List.takeWhile_eq_nil_iff.2 fun hl => List.dropWhile_get_zero_not _ _ hl

/-- The tokens of an expression are its pieces. -/
theorem Covers.tokenize_eq {e hidden : Text} {ps : List Piece} (h : Covers e ps hidden) :
    tokenize e = tokensOf 0 ps := by
  have hvisible : visible e = bytes ps := by
    rw [h.text, visible, List.takeWhile_append_of_pos (by simpa using h.seen)]
    exact (congrArg _ h.hidden).trans (List.append_nil _)
  rw [tokenize, hvisible, tokensAt_bytes h.cut]

/-! ### Texts that agree up to an identifier -/

/-- The texts agree up to where both end, or where an identifier may start in both. -/
inductive Agree : Text → Text → Prop
  | ended : Agree [] []
  | ident {a b : UInt8} (u v : Text) (ha : isIdentStart a = true) (hb : isIdentStart b = true) :
      Agree (a :: u) (b :: v)
  | same {u v : Text} (b : UInt8) (h : Agree u v) : Agree (b :: u) (b :: v)

namespace Agree

variable {u v : Text}

theorem append_left (h : Agree u v) (s : Text) : Agree (s ++ u) (s ++ v) := by
  induction s with
  | nil => exact h
  | cons b s ih => exact .same b ih

theorem eq_nil_iff (h : Agree u v) : u = [] ↔ v = [] := by
  cases h <;> simp

/-- If one text does not go on with a byte of a class or with an identifier, the other does not go
on with a byte of the class. -/
theorem head {P : UInt8 → Bool} (h : Agree u v)
    (hu : ∀ b ∈ u.head?, P b = false ∧ isIdentStart b = false) : ∀ b ∈ v.head?, P b = false := by
  cases h with
  | ended => simp
  | ident u v ha hb => simp [ha] at hu
  | same b h => simpa using fun hb => (hu b hb).1

/-- The texts start with the same operators. -/
theorem startsWith_eq (h : Agree u v) {op : Text} (hop : ∀ b ∈ op, isIdentStart b = false) :
    Text.startsWith u op = Text.startsWith v op := by
  induction h generalizing op with
  | ended => rfl
  | @ident a b u v ha hb =>
    cases op with
    | nil => rfl
    | cons x op =>
      have hx : isIdentStart x = false := hop x List.mem_cons_self
      have hxa : (x == a) = false := by
        rw [beq_eq_false_iff_ne]
        rintro rfl
        simp [hx] at ha
      have hxb : (x == b) = false := by
        rw [beq_eq_false_iff_ne]
        rintro rfl
        simp [hx] at hb
      simp [Text.startsWith, List.isPrefixOf, hxa, hxb]
  | same b h ih =>
    cases op with
    | nil => rfl
    | cons x op =>
      have := ih fun b hb => hop b (List.mem_cons_of_mem _ hb)
      simp only [Text.startsWith] at this
      simp [Text.startsWith, List.isPrefixOf, this]

end Agree

theorem agree_bytes {ps qs : List Piece} (h : List.Forall₂ Piece.Alike ps qs) :
    Agree (bytes ps) (bytes qs) := by
  induction h with
  | nil => exact .ended
  | cons hpq _ ih =>
    rcases hpq with rfl | ⟨hp, hq⟩
    · exact ih.append_left _
    · exact .ident _ _ (kindOf_eq_ident_iff.1 hp) hq.start

/-! ### Respelling identifiers -/

/-- A string that ends before the end of the text ends there whatever follows. -/
theorem stringLength_append {q : UInt8} {s u : Text} (hu : u ≠ [])
    (h : stringLength q (s ++ u) = s.length) (v : Text) :
    stringLength q (s ++ v) = s.length := by
  obtain ⟨a, u, rfl⟩ := List.exists_cons_of_ne_nil hu
  induction s using stringLength.induct q with
  | case1 => exact absurd h (stringLength_pos q a u).ne'
  | case2 r =>
    rw [List.cons_append, stringLength_quote] at h ⊢
    exact h
  | case3 hq =>
    rw [List.cons_append, List.nil_append, stringLength_escape hq, List.length_singleton] at h
    omega
  | case4 b r hq ih =>
    rw [List.cons_append, List.cons_append, stringLength_escape hq, List.length_cons,
      List.length_cons] at h ⊢
    rw [ih (by omega)]
    omega
  | case5 b r hq hescape ih =>
    rw [List.cons_append, stringLength_other hq hescape, List.length_cons] at h ⊢
    rw [ih (by omega)]
    omega

namespace Piece

variable {p q : Piece} {u v : Text}

theorem Ends.of_isIdent (hp : p.IsIdent) (hu : ∀ b ∈ u.head?, isIdentByte b = false) : p.Ends u := by
  rw [Ends, if_neg (by simp [hp.isGap])]
  have hkind : kindOf p.first = .ident := hp.kind
  simp only [tailLength, hkind]
  exact length_takeWhile_append_eq_iff.2 ⟨hp.rest, hu⟩

theorem Ends.ident (h : p.Ends u) (hp : p.kind = .ident) :
    (∀ b ∈ p.rest, isIdentByte b = true) ∧ ∀ b ∈ u.head?, isIdentByte b = false := by
  have hgap : p.isGap = false := isSpace_of_isIdentStart (kindOf_eq_ident_iff.1 hp)
  have hkind : kindOf p.first = .ident := hp
  rw [Ends, if_neg (by simp [hgap])] at h
  simp only [tailLength, hkind] at h
  exact length_takeWhile_append_eq_iff.1 h

/-- Where a piece ends depends on what follows only up to the next identifier, unless the piece is
a number. -/
theorem Ends.of_agree (h : p.Ends u) (huv : Agree u v)
    (hnum : p.kind = .number → ∀ b ∈ u.head?, isIdentStart b = false) : p.Ends v := by
  by_cases hgap : p.isGap = true
  · simpa [Ends, hgap] using h
  · simp only [Ends, hgap, Bool.false_eq_true, if_false] at h ⊢
    cases hkind : kindOf p.first with
    | ident =>
      simp only [tailLength, hkind] at h ⊢
      obtain ⟨hrest, hu⟩ := length_takeWhile_append_eq_iff.1 h
      exact length_takeWhile_append_eq_iff.2
        ⟨hrest, huv.head fun b hb => ⟨hu b hb, isIdentStart_eq_false (hu b hb)⟩⟩
    | number =>
      simp only [tailLength, hkind] at h ⊢
      obtain ⟨hrest, hu⟩ := length_takeWhile_append_eq_iff.1 h
      exact length_takeWhile_append_eq_iff.2
        ⟨hrest, huv.head fun b hb => ⟨hu b hb, hnum hkind b hb⟩⟩
    | string =>
      simp only [tailLength, hkind] at h ⊢
      by_cases hu : u = []
      · rw [huv.eq_nil_iff.1 hu]
        rwa [hu] at h
      · exact stringLength_append hu h v
    | stop | punct =>
      have hsame : operators.find? (Text.startsWith (p.first :: (p.rest ++ u))) =
          operators.find? (Text.startsWith (p.first :: (p.rest ++ v))) :=
        List.find?_congr fun op hop =>
          (huv.append_left p.bytes).startsWith_eq (isIdentStart_of_mem_operators hop)
      simp only [tailLength, hkind, hsame] at h ⊢
      exact h

end Piece

/-- No identifier follows a number without white space between. -/
def Spaced (ps : List Piece) : Prop := ps.IsChain fun p q => p.kind = .number → q.kind ≠ .ident

/-- **Identifiers may be respelled:** pieces stay pieces if some identifiers are replaced by
others. -/
theorem Cut.of_alike {ps qs : List Piece} (hcut : Cut ps) (hspaced : Spaced ps)
    (h : List.Forall₂ Piece.Alike ps qs) : Cut qs := by
  induction h with
  | nil => trivial
  | @cons p q ps qs hpq hall ih =>
    obtain ⟨hends, hcut⟩ := hcut
    obtain ⟨hnext, hspaced⟩ := List.isChain_cons.1 hspaced
    have hagree : Agree (bytes ps) (bytes qs) := agree_bytes hall
    refine ⟨?_, ih hcut hspaced⟩
    rcases hpq with rfl | ⟨hp, hq⟩
    · refine hends.of_agree hagree fun hnum b hb => ?_
      cases ps with
      | nil => simp at hb
      | cons p' ps =>
        obtain rfl : p'.first = b := by simpa [Piece.bytes] using hb
        by_contra hstart
        exact hnext p' rfl hnum (kindOf_eq_ident_iff.2 (by simpa using hstart))
    · have hu := (hends.ident hp).2
      exact .of_isIdent hq (hagree.head fun b hb => ⟨hu b hb, isIdentStart_eq_false (hu b hb)⟩)

/-- No identifier of the expression starts where a number ends. -/
def NamesApart (e : Text) : Prop :=
  ∀ t ∈ tokenize e, ∀ t' ∈ tokenize e, t.kind = .number → t'.kind = .ident → t'.pos ≠ t.endPos

instance (e : Text) : Decidable (NamesApart e) :=
  inferInstanceAs (Decidable (∀ t ∈ tokenize e, ∀ t' ∈ tokenize e, _ → _ → _))

theorem Piece.isGap_of_kind {p : Piece} (h : p.kind ≠ .punct) : p.isGap = false := by
  by_contra hgap
  simp only [isGap, isSpace, Bool.not_eq_false, Bool.or_eq_true, decide_eq_true_eq] at hgap
  rcases hgap with ((he | he) | he) | he <;> exact h (by rw [kind, he]; decide)

theorem spaced_of_tokensOf {ps : List Piece} {pos : Nat}
    (h : ∀ t ∈ tokensOf pos ps, ∀ t' ∈ tokensOf pos ps, t.kind = .number → t'.kind = .ident →
      t'.pos ≠ t.endPos) : Spaced ps := by
  induction ps generalizing pos with
  | nil => exact .nil
  | cons p ps ih =>
    have htail : ∀ t ∈ tokensOf (pos + p.bytes.length) ps, t ∈ tokensOf pos (p :: ps) := by
      intro t ht
      cases hgap : p.isGap with
      | true => rwa [tokensOf_gap hgap]
      | false =>
        rw [tokensOf_token hgap]
        exact List.mem_cons_of_mem _ ht
    refine List.isChain_cons.2 ⟨fun q hq hnum hident => ?_,
      ih fun t ht t' ht' => h t (htail t ht) t' (htail t' ht')⟩
    -- a number and the identifier after it are neighbours among the tokens too
    obtain ⟨qs, rfl⟩ : ∃ qs, ps = q :: qs := by
      cases ps with
      | nil => cases hq
      | cons q' qs => exact ⟨qs, by simpa using hq⟩
    have hp : ⟨p.kind, p.bytes, pos⟩ ∈ tokensOf pos (p :: q :: qs) := by
      rw [tokensOf_token (Piece.isGap_of_kind (by simp [hnum]))]
      exact List.mem_cons_self
    have hq : ⟨q.kind, q.bytes, pos + p.bytes.length⟩ ∈ tokensOf pos (p :: q :: qs) := by
      refine htail _ ?_
      rw [tokensOf_token (Piece.isGap_of_kind (by simp [hident]))]
      exact List.mem_cons_self
    exact h _ hp _ hq hnum hident rfl

/-- A piece that is no white space is a token. -/
theorem exists_mem_tokensOf {ps : List Piece} {p : Piece} (hp : p ∈ ps) (hgap : p.isGap = false)
    (pos : Nat) : ∃ t ∈ tokensOf pos ps, t.kind = p.kind ∧ t.literal = p.bytes := by
  induction ps generalizing pos with
  | nil => cases hp
  | cons q ps ih =>
    rcases List.mem_cons.1 hp with rfl | hp
    · rw [tokensOf_token hgap]
      exact ⟨_, List.mem_cons_self, rfl, rfl⟩
    · obtain ⟨t, ht, hsame⟩ := ih hp (pos + q.bytes.length)
      refine ⟨t, ?_, hsame⟩
      cases hq : q.isGap with
      | true => rwa [tokensOf_gap hq]
      | false =>
        rw [tokensOf_token hq]
        exact List.mem_cons_of_mem _ ht

/-- A token is the end, or a piece after those that stand before it. -/
theorem mem_tokensOf_cases {ps : List Piece} {pos : Nat} {t : Token} (h : t ∈ tokensOf pos ps) :
    t = ⟨.stop, [], pos + (bytes ps).length⟩ ∨
      ∃ front p back, ps = front ++ p :: back ∧ p.isGap = false ∧
        t = ⟨p.kind, p.bytes, pos + (bytes front).length⟩ := by
  induction ps generalizing pos with
  | nil => exact .inl (List.mem_singleton.1 h)
  | cons p ps ih =>
    have hlater (h : t ∈ tokensOf (pos + p.bytes.length) ps) :
        t = ⟨.stop, [], pos + (bytes (p :: ps)).length⟩ ∨
          ∃ front q back, p :: ps = front ++ q :: back ∧ q.isGap = false ∧
            t = ⟨q.kind, q.bytes, pos + (bytes front).length⟩ := by
      rcases ih h with rfl | ⟨front, q, back, rfl, hq, rfl⟩
      · exact .inl (by simp [Nat.add_assoc])
      · exact .inr ⟨p :: front, q, back, rfl, hq, by simp [Nat.add_assoc]⟩
    cases hgap : p.isGap with
    | true => exact hlater (tokensOf_gap hgap pos ps ▸ h)
    | false =>
      rw [tokensOf_token hgap] at h
      rcases List.mem_cons.1 h with rfl | h
      · exact .inr ⟨[], p, ps, rfl, hgap, rfl⟩
      · exact hlater h

/-- Every token but the end is a piece. -/
theorem exists_mem_of_mem_tokensOf {ps : List Piece} {pos : Nat} {t : Token}
    (ht : t ∈ tokensOf pos ps) (hkind : t.kind ≠ .stop) :
    ∃ p ∈ ps, p.kind = t.kind ∧ p.bytes = t.literal := by
  rcases mem_tokensOf_cases ht with rfl | ⟨front, p, back, rfl, -, rfl⟩
  · exact absurd rfl hkind
  · exact ⟨p, List.mem_append_right _ List.mem_cons_self, rfl, rfl⟩

/-- A piece of the class of identifiers is spelled as one. -/
theorem Cut.isIdent {ps : List Piece} (hcut : Cut ps) {p : Piece} (hp : p ∈ ps)
    (hkind : p.kind = .ident) : p.IsIdent := by
  induction ps with
  | nil => cases hp
  | cons q ps ih =>
    obtain ⟨hends, hcut⟩ := hcut
    rcases List.mem_cons.1 hp with rfl | hp
    · exact ⟨kindOf_eq_ident_iff.1 hkind, (hends.ident hkind).1⟩
    · exact ih hcut hp

theorem Covers.spaced {e hidden : Text} {ps : List Piece} (h : Covers e ps hidden)
    (he : NamesApart e) : Spaced ps := by
  rw [NamesApart, h.tokenize_eq] at he
  exact spaced_of_tokensOf he

end ContractNet.Expr

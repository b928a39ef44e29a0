import ContractNet.Proofs.Expr.Borders
import ContractNet.Proofs.Expr.Spans

/-!
# Expressions in two parts

An expression that is cut where no token goes over the cut has the tokens of its parts.

* `IsBorder` says that no token goes over a position; so it is the end of a token, or it has white
  space or a border of the expression on one side;
* `tokensOf_append`: the tokens of two rows of pieces are those of each;
* `forall_tokensOf_iff`: the borders of an expression are those between its pieces;
* `tokenize_take_drop`: **tokens do not look over borders.**  Cutting at a border changes no token
  on either side, and a token alone is read as the same token.
-/

namespace ContractNet.Expr

/-- The position is not beyond the first NUL byte, and no token goes over it. -/
structure IsBorder (e : Text) (p : Nat) : Prop where
  seen : p ≤ e.findIdx (· = 0)
  apart : ∀ t ∈ tokenize e, p ≤ t.pos ∨ t.endPos ≤ p

instance (e : Text) (p : Nat) : Decidable (IsBorder e p) :=
  decidable_of_iff (p ≤ e.findIdx (· = 0) ∧ ∀ t ∈ tokenize e, p ≤ t.pos ∨ t.endPos ≤ p)
    ⟨fun ⟨hseen, hapart⟩ => ⟨hseen, hapart⟩, fun h => ⟨h.seen, h.apart⟩⟩

/-- The same token in a text with `k` more bytes in front. -/
def Token.shift (k : Nat) (t : Token) : Token := { t with pos := k + t.pos }

variable {e hidden : Text} {ps qs : List Piece} {pos : Nat} {t : Token}

/-! ### Tokens of rows of pieces -/

theorem tokensOf_append (pos : Nat) (ps qs : List Piece) :
    ∃ ts, tokensOf pos ps = ts ++ [⟨.stop, [], pos + (bytes ps).length⟩] ∧
      tokensOf pos (ps ++ qs) = ts ++ tokensOf (pos + (bytes ps).length) qs := by
  induction ps generalizing pos with
  | nil => exact ⟨[], rfl, rfl⟩
  | cons p ps ih =>
    obtain ⟨ts, hfront, hall⟩ := ih (pos + p.bytes.length)
    have hlength : pos + (bytes (p :: ps)).length = pos + p.bytes.length + (bytes ps).length := by
      simp [Nat.add_assoc]
    rw [hlength, List.cons_append]
    cases hgap : p.isGap with
    | true => exact ⟨ts, by rw [tokensOf_gap hgap, hfront], by rw [tokensOf_gap hgap, hall]⟩
    | false =>
      refine ⟨⟨p.kind, p.bytes, pos⟩ :: ts, ?_, ?_⟩
      · rw [tokensOf_token hgap, hfront, List.cons_append]
      · rw [tokensOf_token hgap, hall, List.cons_append]

theorem map_shift_tokensOf (k pos : Nat) (ps : List Piece) :
    (tokensOf pos ps).map (Token.shift k) = tokensOf (k + pos) ps := by
  induction ps generalizing pos with
  | nil => rfl
  | cons p ps ih =>
    cases hgap : p.isGap with
    | true => rw [tokensOf_gap hgap, tokensOf_gap hgap, ih, Nat.add_assoc]
    | false =>
      rw [tokensOf_token hgap, tokensOf_token hgap, List.map_cons, ih, Nat.add_assoc]
      rfl

theorem within_of_mem_tokensOf (h : t ∈ tokensOf pos ps) :
    pos ≤ t.pos ∧ t.endPos ≤ pos + (bytes ps).length := by
  rcases mem_tokensOf_cases h with rfl | ⟨front, p, back, rfl, -, rfl⟩
  · simp [Token.endPos]
  · simp [Token.endPos, Nat.add_assoc]

/-! ### Borders -/

/-- **The borders of an expression are those between its pieces.** -/
theorem forall_tokensOf_iff (hps : Cut ps) {p : Nat} (hpos : pos ≤ p)
    (hp : p ≤ pos + (bytes ps).length) :
    (∀ t ∈ tokensOf pos ps, p ≤ t.pos ∨ t.endPos ≤ p) ↔
      ∃ front back, ps = front ++ back ∧ p = pos + (bytes front).length := by
  constructor
  · intro hout
    induction ps generalizing pos with
    | nil => exact ⟨[], [], rfl, Nat.le_antisymm hp hpos⟩
    | cons q ps ih =>
      by_cases hfirst : p = pos
      · exact ⟨[], q :: ps, rfl, hfirst⟩
      · -- the position is not at the front, so it is behind the first piece
        have hbehind : pos + q.bytes.length ≤ p ∧
            ∀ t ∈ tokensOf (pos + q.bytes.length) ps, p ≤ t.pos ∨ t.endPos ≤ p := by
          cases hgap : q.isGap with
          | true =>
            have hrest : q.rest = [] := by simpa [Piece.Ends, hgap] using hps.1
            have hlength : q.bytes.length = 1 := by simp [Piece.bytes, hrest]
            exact ⟨by omega, tokensOf_gap hgap pos ps ▸ hout⟩
          | false =>
            rw [tokensOf_token hgap, List.forall_mem_cons] at hout
            refine ⟨?_, hout.2⟩
            rcases hout.1 with hle | hle
            · exact absurd (Nat.le_antisymm hle hpos) hfirst
            · exact hle
        rw [bytes_cons, List.length_append, ← Nat.add_assoc] at hp
        obtain ⟨front, back, rfl, hfront⟩ := ih hps.2 hbehind.1 hp hbehind.2
        exact ⟨q :: front, back, rfl, by rw [hfront]; simp [Nat.add_assoc]⟩
  · rintro ⟨front, back, rfl, rfl⟩ t ht
    obtain ⟨ts, hfront, hall⟩ := tokensOf_append pos front back
    rw [hall, List.mem_append] at ht
    rcases ht with ht | ht
    · have hmem : t ∈ tokensOf pos front := hfront ▸ List.mem_append_left _ ht
      exact .inr (within_of_mem_tokensOf hmem).2
    · exact .inl (within_of_mem_tokensOf ht).1

theorem Covers.isBorder_iff (h : Covers e ps hidden) {p : Nat} :
    IsBorder e p ↔ ∃ front back, ps = front ++ back ∧ p = (bytes front).length := by
  have hseen : p ≤ e.findIdx (· = 0) ↔ p ≤ 0 + (bytes ps).length := by
    rw [h.findIdx_eq, Nat.zero_add]
  constructor
  · rintro ⟨hp, hout⟩
    rw [h.tokenize_eq, forall_tokensOf_iff h.cut p.zero_le (hseen.1 hp)] at hout
    simpa using hout
  · rintro ⟨front, back, rfl, rfl⟩
    have hp : (bytes front).length ≤ 0 + (bytes (front ++ back)).length := by simp
    refine ⟨hseen.2 hp, ?_⟩
    rw [h.tokenize_eq, forall_tokensOf_iff h.cut (Nat.zero_le _) hp]
    exact ⟨front, back, rfl, (Nat.zero_add _).symm⟩

/-- The end of a token is a border. -/
theorem isBorder_endPos (h : t ∈ tokenize e) : IsBorder e t.endPos := by
  obtain ⟨ps, hidden, hps⟩ := exists_covers e
  rw [hps.isBorder_iff]
  rw [hps.tokenize_eq] at h
  rcases mem_tokensOf_cases h with rfl | ⟨front, p, back, rfl, -, rfl⟩
  · exact ⟨ps, [], (List.append_nil ps).symm, by simp [Token.endPos]⟩
  · exact ⟨front ++ [p], back, by simp, by simp [Token.endPos]⟩

/-! ### Cutting -/

theorem Covers.take_drop {front back : List Piece} (h : Covers e (front ++ back) hidden) :
    Covers (e.take (bytes front).length) front [] ∧
      Covers (e.drop (bytes front).length) back hidden := by
  have htext : e = bytes front ++ (bytes back ++ hidden) := by
    rw [h.text, bytes_append, List.append_assoc]
  have hseen := h.seen
  rw [bytes_append, List.forall_mem_append] at hseen
  constructor
  · exact ⟨by rw [htext, List.take_left, List.append_nil], h.cut.of_append.1, hseen.1, rfl⟩
  · exact ⟨by rw [htext, List.drop_left], h.cut.of_append.2, hseen.2, h.hidden⟩

/-- A token alone is one piece. -/
theorem tokenize_literal (h : t ∈ tokenize e) (hkind : t.kind ≠ .stop) :
    tokenize t.literal = [⟨t.kind, t.literal, 0⟩, ⟨.stop, [], t.literal.length⟩] := by
  obtain ⟨ps, hidden, hps⟩ := exists_covers e
  rw [hps.tokenize_eq] at h
  rcases mem_tokensOf_cases h with rfl | ⟨front, p, back, rfl, hgap, rfl⟩
  · exact absurd rfl hkind
  · have hrest : Cut ([p] ++ back) := hps.cut.of_append.2
    have hcovers : Covers p.bytes [p] [] := by
      refine ⟨by simp, hrest.of_append.1, fun b hb => hps.seen b ?_, rfl⟩
      simp only [bytes_append, bytes_cons, bytes_nil, List.append_nil, List.mem_append] at hb ⊢
      exact .inr (.inl hb)
    rw [hcovers.tokenize_eq, tokensOf_token hgap]
    simp [tokensOf]

/-- **Tokens do not look over borders.**  The end of each token is a border.  Cut at a border, an
expression has the tokens of its front without their end, and then those of its back, moved behind
the front.  A token alone is read as this one token. -/
theorem tokenize_take_drop (e : Text) :
    (∀ t ∈ tokenize e, IsBorder e t.endPos) ∧
      (∀ p, IsBorder e p → ∃ ts, tokenize (e.take p) = ts ++ [⟨.stop, [], p⟩] ∧
        tokenize e = ts ++ (tokenize (e.drop p)).map (Token.shift p)) ∧
      ∀ t ∈ tokenize e, t.kind ≠ .stop →
        tokenize t.literal = [⟨t.kind, t.literal, 0⟩, ⟨.stop, [], t.literal.length⟩] := by
  refine ⟨fun t => isBorder_endPos, fun p hp => ?_, fun t => tokenize_literal⟩
  obtain ⟨ps, hidden, hps⟩ := exists_covers e
  obtain ⟨front, back, rfl, rfl⟩ := hps.isBorder_iff.1 hp
  obtain ⟨hfront, hback⟩ := hps.take_drop
  obtain ⟨ts, hleft, hall⟩ := tokensOf_append 0 front back
  rw [Nat.zero_add] at hleft hall
  refine ⟨ts, by rw [hfront.tokenize_eq, hleft], ?_⟩
  rw [hps.tokenize_eq, hall, hback.tokenize_eq, map_shift_tokensOf, Nat.add_zero]

/-- An operator that starts like a longer one, a number, and a string that only a NUL byte ends. -/
def openQuote : Text := "a >>= 0x1f\"b >> \x00 c"

theorem tokenize_take_drop_openQuote :
    IsBorder openQuote 5 ∧
      (∃ ts, tokenize "a >>=" = ts ++ [⟨.stop, [], 5⟩] ∧
        tokenize openQuote = ts ++ (tokenize " 0x1f\"b >> \x00 c").map (Token.shift 5)) ∧
      ⟨.string, "\"b >> ", 10⟩ ∈ tokenize openQuote ∧
      tokenize "\"b >> " = [⟨.string, "\"b >> ", 0⟩, ⟨.stop, [], 6⟩] := by
  obtain ⟨-, hcut, halone⟩ := tokenize_take_drop openQuote
  have hborder : IsBorder openQuote 5 := by decide +kernel
  have hstring : ⟨.string, "\"b >> ", 10⟩ ∈ tokenize openQuote := by decide +kernel
  exact ⟨hborder, hcut 5 hborder, hstring, halone _ hstring (by decide)⟩

end ContractNet.Expr

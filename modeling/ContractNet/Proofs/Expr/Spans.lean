import ContractNet.Proofs.Expr.Substitution

/-!
# Where tokens stand

The tokens of an expression with the text around them.

* `Spans` says that tokens stand one after the other in a stretch of a text, each spelled as the
  text at its place, with nothing but white space between them;
* `tokenize_spans`: **no byte is lost.**  The tokens of an expression span it up to its first NUL
  byte;
* `gaps` are the texts before each token;
* `tokenize_substitute`: **substitution changes a name and nothing else.**  An identifier in the
  place of a variable respells its tokens; all other tokens, the text between them and what a NUL
  byte hides stay as they are.
-/

namespace ContractNet.Expr

/-- The tokens `ts` stand one after the other in the text `e` between `start` and `stop`, and only
white space stands outside of them. -/
structure Spans (e : Text) (start stop : Nat) (ts : List Token) : Prop where
  token : ∀ t ∈ ts, t.kind ≠ .stop ∧ t.literal ≠ [] ∧ e.extract t.pos t.endPos = t.literal
  within : ∀ t ∈ ts, start ≤ t.pos ∧ t.endPos ≤ stop
  ordered : ts.Pairwise fun t u => t.endPos ≤ u.pos
  outside : ∀ i b, start ≤ i → i < stop → e[i]? = some b →
    (∀ t ∈ ts, ¬(t.pos ≤ i ∧ i < t.endPos)) → b ∈ (" \t\n\r" : Text)

/-- The texts before each token, back to the end of the one before it. -/
def gaps (e : Text) (last : Nat) : List Token → List Text
  | [] => []
  | t :: ts => e.extract last t.pos :: gaps e t.endPos ts

/-! ### Spans -/

theorem mem_of_isSpace {b : UInt8} (h : isSpace b = true) : b ∈ (" \t\n\r" : Text) := by
  simp only [isSpace, Bool.or_eq_true, decide_eq_true_eq] at h
  rcases h with ((rfl | rfl) | rfl) | rfl <;> decide

theorem extract_append_append (front s rest : Text) :
    (front ++ (s ++ rest)).extract front.length (front.length + s.length) = s := by
  simp [List.extract_eq_take_drop]

namespace Spans

variable {e : Text} {start stop : Nat} {ts : List Token} {t : Token}

theorem nil (e : Text) (start : Nat) : Spans e start start [] :=
  ⟨by simp, by simp, .nil, fun i b h h' => absurd h' (Nat.not_lt.2 h)⟩

/-- White space may stand before the tokens. -/
theorem gap {b : UInt8} (h : Spans e (start + 1) stop ts) (hb : e[start]? = some b)
    (hspace : isSpace b = true) : Spans e start stop ts := by
  refine ⟨h.token, fun t ht => ?_, h.ordered, fun i b' hi hstop hb' hout => ?_⟩
  · have := h.within t ht
    omega
  · by_cases hfirst : i = start
    · subst hfirst
      rw [hb] at hb'
      exact Option.some.inj hb' ▸ mem_of_isSpace hspace
    · exact h.outside i b' (by omega) hstop hb' hout

/-- A token may stand right before the stretch of the others. -/
theorem cons (h : Spans e t.endPos stop ts) (hstop : t.endPos ≤ stop) (hkind : t.kind ≠ .stop)
    (hne : t.literal ≠ []) (htext : e.extract t.pos t.endPos = t.literal) :
    Spans e t.pos stop (t :: ts) := by
  have hend : t.pos ≤ t.endPos := Nat.le_add_right ..
  refine ⟨?_, ?_, ?_, fun i b hi hi' hb hout => ?_⟩
  · exact List.forall_mem_cons.2 ⟨⟨hkind, hne, htext⟩, h.token⟩
  · refine List.forall_mem_cons.2 ⟨⟨le_rfl, hstop⟩, fun u hu => ?_⟩
    have := h.within u hu
    omega
  · exact .cons (fun u hu => (h.within u hu).1) h.ordered
  · obtain ⟨hnot, hout⟩ := List.forall_mem_cons.1 hout
    exact h.outside i b (by omega) hi' hb hout

end Spans

/-- The tokens among pieces span the text of the pieces. -/
theorem spans_tokensOf {ps : List Piece} (hcut : Cut ps) (front hidden : Text) :
    ∃ ts, tokensOf front.length ps =
        ts ++ [⟨.stop, [], front.length + (bytes ps).length⟩] ∧
      Spans (front ++ (bytes ps ++ hidden)) front.length (front.length + (bytes ps).length) ts := by
  induction ps generalizing front with
  | nil => exact ⟨[], rfl, .nil _ _⟩
  | cons p ps ih =>
    obtain ⟨hends, hcut⟩ := hcut
    obtain ⟨ts, htokens, hspans⟩ := ih hcut (front ++ p.bytes)
    -- the text and its end are the same, seen from before and from behind the first piece
    have htext : (front ++ p.bytes) ++ (bytes ps ++ hidden) =
        front ++ (bytes (p :: ps) ++ hidden) := by
      simp [List.append_assoc]
    have hstop : (front ++ p.bytes).length + (bytes ps).length =
        front.length + (bytes (p :: ps)).length := by
      simp [Nat.add_assoc]
    rw [htext, hstop] at hspans
    rw [hstop, List.length_append] at htokens
    rw [List.length_append] at hspans
    cases hgap : p.isGap with
    | true =>
      have hrest : p.rest = [] := by simpa [Piece.Ends, hgap] using hends
      have hlength : p.bytes.length = 1 := by simp [Piece.bytes, hrest]
      have hfirst : (front ++ (bytes (p :: ps) ++ hidden))[front.length]? = some p.first := by
        simp [Piece.bytes]
      rw [hlength] at hspans
      exact ⟨ts, by rw [tokensOf_gap hgap, htokens], hspans.gap hfirst hgap⟩
    | false =>
      refine ⟨⟨p.kind, p.bytes, front.length⟩ :: ts, ?_,
        Spans.cons (t := ⟨p.kind, p.bytes, front.length⟩) hspans ?_ (kindOf_ne_stop _) ?_ ?_⟩
      · rw [tokensOf_token hgap, htokens, List.cons_append]
      · simp only [Token.endPos, bytes_cons, List.length_append]
        omega
      · simp [Piece.bytes]
      · rw [bytes_cons, List.append_assoc]
        exact extract_append_append front p.bytes _

theorem Covers.findIdx_eq {e hidden : Text} {ps : List Piece} (h : Covers e ps hidden) :
    e.findIdx (· = 0) = (bytes ps).length := by
  have hseen : (bytes ps).findIdx (· = 0) = (bytes ps).length :=
    List.findIdx_eq_length.2 fun b hb => by simpa using h.seen b hb
  have hhidden : hidden.findIdx (· = 0) = 0 := by
    cases hidden with
    | nil => rfl
    | cons b hidden =>
      have hb : b = 0 := by simpa [visible, List.takeWhile_cons] using h.hidden
      simp [List.findIdx_cons, hb]
  rw [h.text, List.findIdx_append, hseen, hhidden]
  simp

/-- **No byte is lost.**  The tokens of an expression span it up to its first NUL byte, or up to its
end if it has none; there stands the token that ends it. -/
theorem tokenize_spans (e : Text) :
    ∃ ts, tokenize e = ts ++ [⟨.stop, [], e.findIdx (· = 0)⟩] ∧
      Spans e 0 (e.findIdx (· = 0)) ts := by
  obtain ⟨ps, hidden, h⟩ := exists_covers e
  obtain ⟨ts, htokens, hspans⟩ := spans_tokensOf h.cut [] hidden
  rw [List.nil_append, ← h.text] at hspans
  simp only [List.length_nil, Nat.zero_add] at htokens hspans
  rw [h.tokenize_eq, h.findIdx_eq]
  exact ⟨ts, htokens, hspans⟩

/-! ### Gaps -/

section

variable {name : Text} {q : Piece} {afterDot : Bool}

/-- The texts before each token among pieces, where `space` stands before the first piece. -/
def gapsOf (space : Text) : List Piece → List Text
  | [] => [space]
  | p :: ps => if p.isGap then gapsOf (space ++ p.bytes) ps else space :: gapsOf [] ps

theorem gaps_tokensOf (front space hidden : Text) (ps : List Piece) :
    gaps (front ++ (space ++ (bytes ps ++ hidden))) front.length
      (tokensOf (front.length + space.length) ps) = gapsOf space ps := by
  induction ps generalizing front space with
  | nil => simp [tokensOf, gaps, gapsOf]
  | cons p ps ih =>
    cases hgap : p.isGap with
    | true =>
      have htext : front ++ (space ++ (bytes (p :: ps) ++ hidden)) =
          front ++ ((space ++ p.bytes) ++ (bytes ps ++ hidden)) := by
        simp [List.append_assoc]
      rw [tokensOf_gap hgap, htext, Nat.add_assoc, ← List.length_append, ih, gapsOf, if_pos hgap]
    | false =>
      have hnot : ¬p.isGap = true := by simp [hgap]
      have htext : front ++ (space ++ (bytes (p :: ps) ++ hidden)) =
          (front ++ (space ++ p.bytes)) ++ ([] ++ (bytes ps ++ hidden)) := by
        simp [List.append_assoc]
      have hend : front.length + space.length + p.bytes.length =
          (front ++ (space ++ p.bytes)).length + ([] : Text).length := by
        simp [Nat.add_assoc]
      rw [tokensOf_token hgap, gaps, extract_append_append, gapsOf, if_neg hnot, Token.endPos, hend,
        htext]
      exact congrArg _ (ih _ _)

/-- Other names between the gaps leave the gaps as they are. -/
theorem gapsOf_renamed (hq : q.IsIdent) (space : Text) (ps : List Piece) :
    gapsOf space (renamed name q afterDot ps) = gapsOf space ps := by
  induction ps generalizing space afterDot with
  | nil => rfl
  | cons p ps ih =>
    cases hgap : p.isGap with
    | true => rw [renamed_gap hgap, gapsOf, gapsOf, if_pos hgap, if_pos hgap, ih]
    | false =>
      have hnot : ¬p.isGap = true := by simp [hgap]
      rw [renamed_token hgap]
      split_ifs
      · rw [gapsOf, gapsOf, if_neg (by simp [hq.isGap]), if_neg hnot, ih]
      · rw [gapsOf, gapsOf, if_neg hnot, if_neg hnot, ih]

end

theorem Covers.gaps_eq {e hidden : Text} {ps : List Piece} (h : Covers e ps hidden) :
    gaps e 0 (tokenize e) = gapsOf [] ps := by
  have := gaps_tokensOf [] [] hidden ps
  rwa [List.nil_append, List.nil_append, ← h.text, List.length_nil, ← h.tokenize_eq] at this

theorem Covers.dropWhile_eq {e hidden : Text} {ps : List Piece} (h : Covers e ps hidden) :
    e.dropWhile (· ≠ 0) = hidden := by
  have hhidden : hidden.dropWhile (· ≠ 0) = hidden := by
    have hparts := List.takeWhile_append_dropWhile (p := (· ≠ 0)) (l := hidden)
    rwa [show hidden.takeWhile (· ≠ 0) = [] from h.hidden, List.nil_append] at hparts
  rw [h.text, List.dropWhile_append_of_pos (by simpa using h.seen), hhidden]

/-- **Substitution changes a name and nothing else.**  If no identifier starts where a number ends,
an identifier in the place of a variable respells the tokens of this variable; all other tokens, the
text between tokens, and what stands from the first NUL byte on stay as they are. -/
theorem tokenize_substitute {e new : Text} (he : NamesApart e) (hnew : IsIdentifier new)
    (name : Text) :
    Renames name new (tokenize e) (tokenize (substitute e name new)) ∧
      gaps (substitute e name new) 0 (tokenize (substitute e name new)) = gaps e 0 (tokenize e) ∧
      (substitute e name new).dropWhile (· ≠ 0) = e.dropWhile (· ≠ 0) := by
  obtain ⟨q, hq, rfl⟩ := hnew.exists_piece
  obtain ⟨ps, hidden, h⟩ := exists_covers e
  have h' := h.substitute he hq name
  refine ⟨renames_substitute he hq name, ?_, ?_⟩
  · rw [h'.gaps_eq, h.gaps_eq, gapsOf_renamed hq]
  · rw [h'.dropWhile_eq, h.dropWhile_eq]

/-- A variable beside a member, a string and hidden text of the same name. -/
def sameNames : Text := "msg.count + count*count(\"count\") \x00 count"

theorem tokenize_substitute_sameNames :
    NamesApart sameNames ∧ IsIdentifier "x_1" ∧
      substitute sameNames "count" "x_1" = "msg.count + x_1*x_1(\"count\") \x00 count" ∧
      Renames "count" "x_1" (tokenize sameNames)
        (tokenize "msg.count + x_1*x_1(\"count\") \x00 count") := by
  have hapart : NamesApart sameNames := by decide +kernel
  have hident : IsIdentifier "x_1" := by decide +kernel
  have htext : substitute sameNames "count" "x_1" =
      "msg.count + x_1*x_1(\"count\") \x00 count" := by decide +kernel
  exact ⟨hapart, hident, htext, htext ▸ (tokenize_substitute hapart hident "count").1⟩

end ContractNet.Expr

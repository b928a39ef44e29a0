import ContractNet.Expr.Variables
import ContractNet.Proofs.Expr.Pieces

/-!
# Substitution on token boundaries

What `substitute` does to the pieces of an expression, and to its tokens.

* `Renames` says of two rows of tokens that they differ in the spelling of one variable only;
* `Covers.substitute_eq`: the text changes piece by piece;
* `renames_substitute`: **an identifier in the place of a variable is read as such**, and all
  other tokens stay;
* `substitute_substitute`: an identifier that the expression does not use can be replaced by the
  variable again.
-/

namespace ContractNet.Expr

/-! ### Variables among tokens -/

/-- The token at place `i` is the variable `name`: an identifier that follows no dot. -/
structure VariableAt (ts : List Token) (name : Text) (i : Nat) : Prop where
  ident : ∃ t, ts[i]? = some t ∧ t.kind = .ident ∧ t.literal = name
  noMember : ∀ (j : Nat) (t : Token), i = j + 1 → ts[j]? = some t → ¬(t.kind = .punct ∧ t.literal = ".")

/-- The tokens `ts'` are those of `ts`, with the variable `name` spelled `new`. -/
structure Renames (name new : Text) (ts ts' : List Token) : Prop where
  length : ts'.length = ts.length
  kind : ∀ (i : Nat) (t t' : Token), ts[i]? = some t → ts'[i]? = some t' → t'.kind = t.kind
  renamed : ∀ (i : Nat) (t' : Token), VariableAt ts name i → ts'[i]? = some t' → t'.literal = new
  kept : ∀ (i : Nat) (t t' : Token), ¬VariableAt ts name i → ts[i]? = some t →
    ts'[i]? = some t' → t'.literal = t.literal

/-- The token `t` is that of the occurrence, spelled `new` if this is the variable `name`. -/
structure Occurrence.SpeltAs (name new : Text) (o : Occurrence) (t : Token) : Prop where
  kind : t.kind = o.token.kind
  literal : t.literal = if o.names name then new else o.token.literal

/-- The text is one identifier. -/
def IsIdentifier (t : Text) : Prop := tokenize t = [⟨.ident, t, 0⟩, ⟨.stop, [], t.length⟩]

instance (t : Text) : Decidable (IsIdentifier t) :=
  inferInstanceAs (Decidable (tokenize t = _))

@[simp] theorem length_occurrences (afterDot : Bool) (ts : List Token) :
    (occurrences afterDot ts).length = ts.length := by
  induction ts generalizing afterDot with
  | nil => rfl
  | cons t ts ih => simp [occurrences, ih]

theorem getElem?_occurrences {afterDot : Bool} {ts : List Token} {i : Nat} {o : Occurrence}
    (h : (occurrences afterDot ts)[i]? = some o) :
    ts[i]? = some o.token ∧
      o.isMember = match i with
        | 0 => afterDot
        | j + 1 => ts[j]?.any (Token.isPunct ".") := by
  induction ts generalizing afterDot i with
  | nil => simp [occurrences] at h
  | cons t ts ih =>
    cases i with
    | zero =>
      obtain rfl := Option.some.inj h
      exact ⟨rfl, rfl⟩
    | succ i =>
      obtain ⟨htoken, hmember⟩ := ih h
      refine ⟨htoken, hmember.trans ?_⟩
      cases i <;> simp

/-- What `names` tells about a token is what the tokens tell. -/
theorem names_iff_variableAt {ts : List Token} {i : Nat} {o : Occurrence} {name : Text}
    (h : (occurrences false ts)[i]? = some o) :
    o.names name = true ↔ VariableAt ts name i := by
  obtain ⟨htoken, hmember⟩ := getElem?_occurrences h
  simp only [Occurrence.names, Bool.and_eq_true, decide_eq_true_eq, Bool.not_eq_true']
  constructor
  · rintro ⟨⟨hkind, hliteral⟩, hno⟩
    refine ⟨⟨o.token, htoken, hkind, hliteral⟩, ?_⟩
    rintro j t rfl ht hdot
    rw [hmember] at hno
    simp [ht, Token.isPunct, hdot] at hno
  · rintro ⟨⟨t, ht, hkind, hliteral⟩, hno⟩
    obtain rfl : o.token = t := Option.some.inj (htoken.symm.trans ht)
    refine ⟨⟨hkind, hliteral⟩, ?_⟩
    rw [hmember]
    cases i with
    | zero => rfl
    | succ j =>
      cases hj : ts[j]? with
      | none => simp [hj]
      | some t => simpa [hj, Token.isPunct] using hno j t rfl hj

/-! ### Variables among pieces -/

/-- The piece is a dot. -/
def Piece.isDot (p : Piece) : Bool := p.kind = .punct && p.bytes = "."

/-- The piece is the variable `name`, where `afterDot` tells whether it follows a dot. -/
def Piece.isVariable (p : Piece) (name : Text) (afterDot : Bool) : Bool :=
  p.kind = .ident && p.bytes = name && !afterDot

/-- The pieces, each with whether it is the variable `name`; `afterDot` tells whether a dot stands
before the first token. -/
def marked (name : Text) (afterDot : Bool) : List Piece → List (Piece × Bool)
  | [] => []
  | p :: ps =>
    if p.isGap then (p, false) :: marked name afterDot ps
    else (p, p.isVariable name afterDot) :: marked name p.isDot ps

/-- The pieces with `new` in the place of the variable `name`. -/
def renamed (name : Text) (new : Piece) (afterDot : Bool) (ps : List Piece) : List Piece :=
  (marked name afterDot ps).map fun m => if m.2 then new else m.1

/-- The text of the pieces with `new` in the place of the variable `name`. -/
def rewritten (name new : Text) (afterDot : Bool) (ps : List Piece) : Text :=
  (marked name afterDot ps).flatMap fun m => if m.2 then new else m.1.bytes

section

variable {e hidden name new : Text} {p q : Piece} {ps : List Piece} {afterDot : Bool} {pos : Nat}

theorem bytes_renamed : bytes (renamed name q afterDot ps) = rewritten name q.bytes afterDot ps := by
  rw [bytes, renamed, rewritten, List.flatMap_map]
  exact List.flatMap_congr fun m _ => by split <;> rfl

theorem rewritten_gap (h : p.isGap = true) :
    rewritten name new afterDot (p :: ps) = p.bytes ++ rewritten name new afterDot ps := by
  simp [rewritten, marked, h]

theorem rewritten_token (h : p.isGap = false) :
    rewritten name new afterDot (p :: ps) =
      (if p.isVariable name afterDot then new else p.bytes) ++
        rewritten name new p.isDot ps := by
  simp [rewritten, marked, h]

theorem renamed_gap (h : p.isGap = true) :
    renamed name q afterDot (p :: ps) = p :: renamed name q afterDot ps := by
  simp [renamed, marked, h]

theorem renamed_token (h : p.isGap = false) :
    renamed name q afterDot (p :: ps) =
      (if p.isVariable name afterDot then q else p) ::
        renamed name q p.isDot ps := by
  simp [renamed, marked, h]

/-- The first occurrence among the tokens is that of the first piece. -/
theorem exists_occurrence (h : p.isGap = false) (name : Text) (afterDot : Bool) (pos : Nat)
    (ps : List Piece) :
    ∃ o : Occurrence, o.names name = p.isVariable name afterDot ∧
      o.token = ⟨p.kind, p.bytes, pos⟩ ∧
      occurrences afterDot (tokensOf pos (p :: ps)) =
        o :: occurrences p.isDot (tokensOf (pos + p.bytes.length) ps) := by
  rw [tokensOf_token h]
  exact ⟨_, rfl, rfl, rfl⟩

/-- Copying from the pieces that are left, after `front` has been passed over. -/
theorem spliced_tokensOf {front : Text} {last : Nat} (hpos : pos = last + front.length)
    (h : e.drop last = front ++ (bytes ps ++ hidden)) :
    spliced e name new last (occurrences afterDot (tokensOf pos ps)) =
      front ++ (rewritten name new afterDot ps ++ hidden) := by
  induction ps generalizing front last pos afterDot with
  | nil => simpa [tokensOf, occurrences, spliced, Occurrence.names, rewritten, marked] using h
  | cons p ps ih =>
    have hskip : e.drop last = (front ++ p.bytes) ++ (bytes ps ++ hidden) := by
      rw [h, bytes_cons]
      simp only [List.append_assoc]
    have hpos' : pos + p.bytes.length = last + (front ++ p.bytes).length := by
      rw [hpos, List.length_append, Nat.add_assoc]
    cases hgap : p.isGap with
    | true =>
      rw [tokensOf_gap hgap, ih hpos' hskip, rewritten_gap hgap]
      simp only [List.append_assoc]
    | false =>
      obtain ⟨o, hnames, htoken, hoccs⟩ := exists_occurrence hgap name afterDot pos ps
      rw [hoccs, spliced, hnames, htoken, rewritten_token hgap]
      split_ifs
      · -- what was passed over is copied, and copying goes on after the piece
        have hend : e.drop (pos + p.bytes.length) = [] ++ (bytes ps ++ hidden) := by
          rw [hpos', ← List.drop_drop, hskip, List.drop_left, List.nil_append]
        have hrest : spliced e name new (pos + p.bytes.length)
            (occurrences p.isDot (tokensOf (pos + p.bytes.length) ps)) =
            rewritten name new p.isDot ps ++ hidden := ih rfl hend
        have hfront : (e.drop last).take (pos - last) = front := by
          rw [h, hpos, Nat.add_sub_cancel_left, List.take_left]
        simp only [Token.endPos, hfront, hrest, List.append_assoc]
      · rw [ih hpos' hskip]
        simp only [List.append_assoc]

theorem rewritten_nil : rewritten [] new afterDot ps = bytes ps := by
  induction ps generalizing afterDot with
  | nil => rfl
  | cons p ps ih =>
    cases hgap : p.isGap with
    | true => rw [rewritten_gap hgap, ih, bytes_cons]
    | false =>
      rw [rewritten_token hgap, ih, bytes_cons, if_neg (by simp [Piece.isVariable, Piece.bytes])]

/-- **Substitution changes a text piece by piece.** -/
theorem Covers.substitute_eq (h : Covers e ps hidden) (name new : Text) :
    substitute e name new = rewritten name new false ps ++ hidden := by
  unfold substitute
  split_ifs with hname
  · rw [hname, rewritten_nil, ← h.text]
  · rw [h.tokenize_eq]
    have htext : e.drop 0 = [] ++ (bytes ps ++ hidden) := by simpa using h.text
    exact spliced_tokensOf rfl htext

/-! ### The tokens after substitution -/

theorem Piece.isVariable_spec (h : p.isVariable name afterDot = true) :
    p.kind = .ident ∧ p.bytes = name := by
  simp only [Piece.isVariable, Bool.and_eq_true, decide_eq_true_eq] at h
  exact h.1

theorem renamed_alike (hq : q.IsIdent) (name : Text) (afterDot : Bool) (ps : List Piece) :
    List.Forall₂ Piece.Alike ps (renamed name q afterDot ps) := by
  induction ps generalizing afterDot with
  | nil => exact .nil
  | cons p ps ih =>
    cases hgap : p.isGap with
    | true =>
      rw [renamed_gap hgap]
      exact .cons (.inl rfl) (ih _)
    | false =>
      rw [renamed_token hgap]
      refine .cons ?_ (ih _)
      split_ifs with hvar
      · exact .inr ⟨(Piece.isVariable_spec hvar).1, hq⟩
      · exact .inl rfl

theorem Piece.IsIdent.ne_zero (hq : q.IsIdent) : ∀ b ∈ q.bytes, b ≠ 0 := by
  rintro b hb rfl
  rcases List.mem_cons.1 hb with he | hb
  · exact absurd hq.start (by rw [← he]; decide)
  · exact absurd (hq.rest 0 hb) (by decide)

theorem ne_zero_of_alike {qs : List Piece} (h : List.Forall₂ Piece.Alike ps qs)
    (hps : ∀ b ∈ bytes ps, b ≠ 0) : ∀ b ∈ bytes qs, b ≠ 0 := by
  induction h with
  | nil => exact hps
  | cons hpq _ ih =>
    rw [bytes_cons, List.forall_mem_append] at hps ⊢
    refine ⟨?_, ih hps.2⟩
    rcases hpq with rfl | ⟨-, hq⟩
    · exact hps.1
    · exact hq.ne_zero

/-- An identifier in the place of a variable moves no border between pieces. -/
theorem Covers.substitute (h : Covers e ps hidden) (he : NamesApart e) (hq : q.IsIdent)
    (name : Text) :
    Covers (substitute e name q.bytes) (renamed name q false ps) hidden := by
  have halike := renamed_alike hq name false ps
  refine ⟨?_, h.cut.of_alike (h.spaced he) halike, ne_zero_of_alike halike h.seen, h.hidden⟩
  rw [h.substitute_eq, bytes_renamed]

/-- The tokens of the renamed pieces, one by one. -/
theorem tokensOf_renamed (hq : q.IsIdent) (name : Text) (afterDot : Bool) (ps : List Piece)
    (pos pos' : Nat) :
    List.Forall₂ (Occurrence.SpeltAs name q.bytes) (occurrences afterDot (tokensOf pos ps))
      (tokensOf pos' (renamed name q afterDot ps)) := by
  induction ps generalizing afterDot pos pos' with
  | nil => exact .cons ⟨rfl, rfl⟩ .nil
  | cons p ps ih =>
    cases hgap : p.isGap with
    | true =>
      rw [renamed_gap hgap, tokensOf_gap hgap, tokensOf_gap hgap]
      exact ih ..
    | false =>
      obtain ⟨o, hnames, htoken, hoccs⟩ := exists_occurrence hgap name afterDot pos ps
      rw [hoccs, renamed_token hgap]
      split_ifs with hvar
      · rw [tokensOf_token hq.isGap]
        refine .cons ⟨?_, ?_⟩ (ih ..)
        · rw [htoken, hq.kind, (Piece.isVariable_spec hvar).1]
        · rw [hnames, hvar, if_pos rfl]
      · rw [tokensOf_token hgap]
        refine .cons ⟨by rw [htoken], ?_⟩ (ih ..)
        rw [hnames, htoken, if_neg hvar]

/-- Tokens that differ from occurrences as renamed ones do are renamed tokens. -/
theorem renames_of_occurrences {ts ts' : List Token}
    (h : List.Forall₂ (Occurrence.SpeltAs name new) (occurrences false ts) ts') :
    Renames name new ts ts' := by
  have hat : ∀ (i : Nat) (t' : Token), ts'[i]? = some t' →
      ∃ o : Occurrence, (occurrences false ts)[i]? = some o ∧ o.SpeltAs name new t' := by
    intro i t' ht'
    obtain ⟨hi, rfl⟩ := List.getElem?_eq_some_iff.1 ht'
    have hi' : i < (occurrences false ts).length := h.length_eq ▸ hi
    exact ⟨_, List.getElem?_eq_getElem hi', h.get hi' hi⟩
  refine ⟨by rw [← h.length_eq, length_occurrences], ?_, ?_, ?_⟩
  · intro i t t' ht ht'
    obtain ⟨o, ho, hspelt⟩ := hat i t' ht'
    obtain rfl : o.token = t := Option.some.inj ((getElem?_occurrences ho).1.symm.trans ht)
    exact hspelt.kind
  · intro i t' hvar ht'
    obtain ⟨o, ho, hspelt⟩ := hat i t' ht'
    rw [hspelt.literal, if_pos ((names_iff_variableAt ho).2 hvar)]
  · intro i t t' hvar ht ht'
    obtain ⟨o, ho, hspelt⟩ := hat i t' ht'
    obtain rfl : o.token = t := Option.some.inj ((getElem?_occurrences ho).1.symm.trans ht)
    rw [hspelt.literal, if_neg fun hnames => hvar ((names_iff_variableAt ho).1 hnames)]

/-- An identifier is one piece. -/
theorem IsIdentifier.exists_piece {t : Text} (h : IsIdentifier t) :
    ∃ q : Piece, q.IsIdent ∧ q.bytes = t := by
  obtain ⟨ps, hidden, hps⟩ := exists_covers t
  have hmem : ⟨.ident, t, 0⟩ ∈ tokensOf 0 ps := by
    rw [← hps.tokenize_eq, h]
    exact List.mem_cons_self
  obtain ⟨q, hq, hkind, hbytes⟩ := exists_mem_of_mem_tokensOf hmem (by simp)
  exact ⟨q, hps.cut.isIdent hq hkind, hbytes⟩

/-- The tokens after substitution, each with the occurrence that it comes from. -/
theorem speltAs_substitute (he : NamesApart e) (hq : q.IsIdent) (name : Text) :
    List.Forall₂ (Occurrence.SpeltAs name q.bytes) (occurrences false (tokenize e))
      (tokenize (substitute e name q.bytes)) := by
  obtain ⟨ps, hidden, h⟩ := exists_covers e
  rw [h.tokenize_eq, (h.substitute he hq name).tokenize_eq]
  exact tokensOf_renamed hq name false ps 0 0

/-- **An identifier in the place of a variable is read as such**, and all other tokens stay. -/
theorem renames_substitute (he : NamesApart e) (hq : q.IsIdent) (name : Text) :
    Renames name q.bytes (tokenize e) (tokenize (substitute e name q.bytes)) :=
  renames_of_occurrences (speltAs_substitute he hq name)

/-! ### Substituting back -/

theorem Piece.isDot_of_kind (h : p.kind = .ident) : p.isDot = false := by
  simp [Piece.isDot, h]

theorem rewritten_renamed (hq : q.IsIdent)
    (hfresh : ∀ p ∈ ps, p.kind = .ident → p.bytes ≠ q.bytes) :
    rewritten q.bytes name afterDot (renamed name q afterDot ps) = bytes ps := by
  induction ps generalizing afterDot with
  | nil => rfl
  | cons p ps ih =>
    obtain ⟨hp, hps⟩ := List.forall_mem_cons.1 hfresh
    cases hgap : p.isGap with
    | true => rw [renamed_gap hgap, rewritten_gap hgap, ih hps, bytes_cons]
    | false =>
      rw [renamed_token hgap]
      split_ifs with hvar
      · -- the new name stands where the variable stood, and is followed by the same
        obtain ⟨hkind, hbytes⟩ := Piece.isVariable_spec hvar
        have hback : q.isVariable q.bytes afterDot = true := by
          simpa [Piece.isVariable, hkind, hbytes, hq.kind] using hvar
        rw [rewritten_token hq.isGap, if_pos hback, Piece.isDot_of_kind hkind,
          Piece.isDot_of_kind hq.kind, ih hps, bytes_cons, hbytes]
      · have hother : ¬p.isVariable q.bytes afterDot = true := fun h =>
          hp (Piece.isVariable_spec h).1 (Piece.isVariable_spec h).2
        rw [rewritten_token hgap, if_neg hother, ih hps, bytes_cons]

/-- A name that the expression does not use is in no piece. -/
theorem Covers.ne_of_notMem (h : Covers e ps hidden) (hfresh : new ∉ usedNames e) :
    ∀ p ∈ ps, p.kind = .ident → p.bytes ≠ new := by
  rintro p hp hkind rfl
  obtain ⟨t, ht, htkind, hliteral⟩ :=
    exists_mem_tokensOf hp (Piece.isGap_of_kind (by simp [hkind])) 0
  rw [← h.tokenize_eq] at ht
  refine hfresh (List.mem_map.2 ⟨t, List.mem_filter.2 ⟨ht, ?_⟩, hliteral⟩)
  simp [htkind, hkind]

/-- **Substitution can be undone:** an identifier that the expression does not use can be replaced
by the variable again. -/
theorem substitute_substitute (he : NamesApart e) (hq : q.IsIdent) (hfresh : q.bytes ∉ usedNames e)
    (name : Text) : substitute (substitute e name q.bytes) q.bytes name = e := by
  obtain ⟨ps, hidden, h⟩ := exists_covers e
  rw [(h.substitute he hq name).substitute_eq, rewritten_renamed hq (h.ne_of_notMem hfresh),
    ← h.text]

end

end ContractNet.Expr

import ContractNet.Proofs.Expr.Pieces
import ContractNet.Proofs.Text.Blank

/-!
# Borders between pieces

What the pieces of a text tell about the pieces of its parts, and the other way round.

* `Cut.unique`: a text is cut in one way only;
* `Cut.exists_front`: **the front of a text** is cut as the text is, up to the piece that it ends
  in, and this piece is no bracket and no comma;
* `Cut.append_comma`: **a comma is a border**, whatever follows it, if the strings before it are
  closed;
* `cut_blanks`: white space at the front of a text is made of pieces of its own.
-/

namespace ContractNet.Expr

variable {p : Piece} {ps qs : List Piece} {u v : Text}

/-- The brackets and the comma. -/
def marks : Text := "()[]\x7b\x7d,"

/-- The piece is no bracket and no comma. -/
def Piece.IsPlain (p : Piece) : Prop := ∀ m ∈ marks, p.bytes ≠ [m]

@[simp] theorem bytes_append (ps qs : List Piece) : bytes (ps ++ qs) = bytes ps ++ bytes qs :=
  List.flatMap_append

/-- A text is cut in one way only. -/
theorem Cut.unique (hps : Cut ps) (hqs : Cut qs) (h : bytes ps = bytes qs) : ps = qs := by
  induction ps generalizing qs with
  | nil =>
    cases qs with
    | nil => rfl
    | cons q qs => cases h
  | cons p ps ih =>
    cases qs with
    | nil => cases h
    | cons q qs =>
      obtain ⟨hp, hps⟩ := hps
      obtain ⟨hq, hqs⟩ := hqs
      obtain ⟨hfirst, hrest⟩ := List.cons.inj h
      change p.rest ++ bytes ps = q.rest ++ bytes qs at hrest
      have hgap : p.isGap = q.isGap := congrArg isSpace hfirst
      have hlength : p.rest.length = q.rest.length := by
        by_cases hspace : p.isGap = true
        · rw [Piece.Ends, if_pos hspace] at hp
          rw [Piece.Ends, if_pos (hgap ▸ hspace)] at hq
          rw [hp, hq]
        · rw [Piece.Ends, if_neg hspace] at hp
          rw [Piece.Ends, if_neg (hgap ▸ hspace)] at hq
          rw [← hp, ← hq, hfirst, hrest]
      obtain ⟨hsame, htail⟩ := List.append_inj hrest hlength
      have hpq : p = q := by
        cases p
        cases q
        simp_all
      rw [hpq, ih hps hqs htail]

/-! ### Bytes that are pieces of their own -/

/-- The byte is a piece of its own, whatever stands around it. -/
def isAlone (b : UInt8) : Bool :=
  isSpace b || (kindOf b = .punct && operators.all fun op => op.head? ≠ some b)

theorem tailLength_eq_zero {b : UInt8} (h : isAlone b = true) (hspace : isSpace b = false)
    (r : Text) : tailLength b r = 0 := by
  simp only [isAlone, hspace, Bool.false_or, Bool.and_eq_true, decide_eq_true_eq,
    List.all_eq_true] at h
  have hnone : operators.find? (Text.startsWith (b :: r)) = none := by
    rw [List.find?_eq_none]
    intro op hop hstart
    have hne : op ≠ [] := by
      rintro rfl
      exact absurd hop (by decide)
    obtain ⟨a, s, rfl⟩ := List.exists_cons_of_ne_nil hne
    rw [Text.startsWith, List.isPrefixOf_cons_cons, Bool.and_eq_true, beq_iff_eq] at hstart
    exact h.2 _ hop (by rw [hstart.1]; rfl)
  simp [tailLength, h.1, hnone]

theorem Piece.Ends.of_isAlone {b : UInt8} (h : isAlone b = true) (u : Text) :
    (⟨b, []⟩ : Piece).Ends u := by
  cases hspace : isSpace b with
  | true => simp [Ends, isGap, hspace]
  | false => simp [Ends, isGap, hspace, tailLength_eq_zero h hspace]

theorem Piece.Ends.rest_eq_nil (hp : p.Ends u) (h : isAlone p.first = true) : p.rest = [] := by
  cases hspace : isSpace p.first with
  | true => simpa [Ends, isGap, hspace] using hp
  | false =>
    have hlength : tailLength p.first (p.rest ++ u) = p.rest.length := by
      simpa [Ends, isGap, hspace] using hp
    rw [tailLength_eq_zero h hspace] at hlength
    exact List.eq_nil_of_length_eq_zero hlength.symm

theorem isAlone_of_mem_marks : ∀ m ∈ marks, isAlone m = true := by
  decide +kernel

theorem Piece.isPlain_of_first (h : p.first ∉ marks) : p.IsPlain := by
  intro m hm hbytes
  obtain rfl : p.first = m := (List.cons.inj hbytes).1
  exact h hm

/-! ### The front of a text -/

/-- A text that starts with an operator starts with it also if more follows. -/
theorem startsWith_append {op : Text} (h : Text.startsWith u op = true) (v : Text) :
    Text.startsWith (u ++ v) op = true :=
  List.isPrefixOf_iff_prefix.2 ((List.isPrefixOf_iff_prefix.1 h).trans (List.prefix_append u v))

/-- A string goes on to the end of every front that it reaches over. -/
theorem stringLength_front {q : UInt8} {s t : Text} (h : s.length ≤ stringLength q (s ++ t)) :
    stringLength q s = s.length := by
  induction s using stringLength.induct q with
  | case1 => rfl
  | case2 r =>
    rw [List.cons_append, stringLength_quote, List.length_cons] at h
    have hr : r = [] := List.eq_nil_of_length_eq_zero (by omega)
    rw [hr, stringLength_quote]
    rfl
  | case3 hq => simp [stringLength, hq]
  | case4 b r hq ih =>
    rw [List.cons_append, List.cons_append, stringLength_escape hq, List.length_cons,
      List.length_cons] at h
    rw [stringLength_escape hq, ih (by omega), List.length_cons, List.length_cons]
    omega
  | case5 b r hq hescape ih =>
    rw [List.cons_append, stringLength_other hq hescape, List.length_cons] at h
    rw [stringLength_other hq hescape, ih (by omega), List.length_cons]
    omega

/-- The front of an operator is one piece. -/
theorem tailLength_front {b : UInt8} {r s : Text} (hop : b :: s ∈ operators) (hr : r <+: s) :
    tailLength b r = r.length := by
  have hall : ∀ op ∈ operators, ∀ k ≤ op.tail.length,
      tailLength (op.headD 0) (op.tail.take k) = k := by
    decide +kernel
  have := hall _ hop r.length hr.length_le
  rwa [List.tail_cons, List.headD_cons, ← List.prefix_iff_eq_take.1 hr] at this

/-- The operator at the front is the same if less follows, but not less than the operator. -/
theorem find?_operators_front {s v : Text}
    (h : ∀ op, operators.find? (Text.startsWith (s ++ v)) = some op → op <+: s) :
    operators.find? (Text.startsWith s) = operators.find? (Text.startsWith (s ++ v)) := by
  cases hfind : operators.find? (Text.startsWith (s ++ v)) with
  | none =>
    rw [List.find?_eq_none] at hfind ⊢
    exact fun op hop hstart => hfind op hop (startsWith_append hstart v)
  | some op =>
    obtain ⟨hstart, before, after, hsplit, hbefore⟩ := List.find?_eq_some_iff_append.1 hfind
    refine List.find?_eq_some_iff_append.2
      ⟨List.isPrefixOf_iff_prefix.2 (h op hfind), before, after, hsplit, fun op' hop' => ?_⟩
    rw [Bool.not_eq_true', Bool.eq_false_iff]
    intro hstart'
    have := hbefore op' hop'
    rw [startsWith_append hstart' v] at this
    cases this

namespace Piece

/-- A piece of punctuation is a byte, or an operator. -/
theorem Ends.punct (h : p.Ends u) (hgap : p.isGap = false) (hkind : p.kind = .punct) :
    operators.find? (Text.startsWith (p.bytes ++ u)) = none ∧ p.rest = [] ∨
      operators.find? (Text.startsWith (p.bytes ++ u)) = some p.bytes := by
  have hkind' : kindOf p.first = .punct := hkind
  have hbytes : p.first :: (p.rest ++ u) = p.bytes ++ u := rfl
  simp only [Ends, hgap, Bool.false_eq_true, if_false, tailLength, hkind', hbytes] at h
  cases hfind : operators.find? (Text.startsWith (p.bytes ++ u)) with
  | none =>
    rw [hfind] at h
    exact .inl ⟨rfl, List.eq_nil_of_length_eq_zero h.symm⟩
  | some op =>
    rw [hfind] at h
    have hstart : Text.startsWith (p.bytes ++ u) op = true := List.find?_some hfind
    have hfront : op <+: p.bytes ++ u := List.isPrefixOf_iff_prefix.1 hstart
    have hne : op ≠ [] := by
      rintro rfl
      exact absurd (List.mem_of_find?_eq_some hfind) (by decide)
    have hlength : op.length = p.bytes.length := by
      have hpos := List.length_pos_iff.2 hne
      change op.length - 1 = p.rest.length at h
      simp only [bytes, List.length_cons]
      omega
    have hop : op = p.bytes := by
      rw [List.prefix_iff_eq_take.1 hfront, hlength, List.take_left]
    rw [hop]
    exact .inr rfl

/-- A piece ends at the same place if less follows. -/
theorem Ends.of_append (h : p.Ends (u ++ v)) : p.Ends u := by
  by_cases hgap : p.isGap = true
  · simpa [Ends, hgap] using h
  · have hpunct := h.punct (by simpa using hgap)
    simp only [Ends, hgap, Bool.false_eq_true, if_false] at h ⊢
    have hhead : ∀ {P : UInt8 → Bool}, (∀ b ∈ (u ++ v).head?, P b = false) →
        ∀ b ∈ u.head?, P b = false := by
      intro P hP b hb
      refine hP b ?_
      rw [List.head?_append, hb]
      rfl
    cases hkind : kindOf p.first with
    | ident | number =>
      simp only [tailLength, hkind] at h ⊢
      obtain ⟨hrest, huv⟩ := length_takeWhile_append_eq_iff.1 h
      exact length_takeWhile_append_eq_iff.2 ⟨hrest, hhead huv⟩
    | string =>
      simp only [tailLength, hkind] at h ⊢
      by_cases huv : u ++ v = []
      · rwa [(List.append_eq_nil_iff.1 huv).1, ← huv]
      · exact stringLength_append huv h u
    | stop => exact absurd hkind (kindOf_ne_stop _)
    | punct =>
      have hsame : operators.find? (Text.startsWith (p.bytes ++ u)) =
          operators.find? (Text.startsWith (p.bytes ++ (u ++ v))) := by
        rw [← List.append_assoc]
        refine find?_operators_front fun op hop => ?_
        rw [List.append_assoc] at hop
        rcases hpunct hkind with ⟨hnone, -⟩ | hsome
        · cases hop.symm.trans hnone
        · rw [Option.some.inj (hop.symm.trans hsome)]
          exact List.prefix_append _ _
      have hbytes : ∀ w, p.first :: (p.rest ++ w) = p.bytes ++ w := fun w => rfl
      simp only [tailLength, hkind, hbytes, hsame] at h ⊢
      exact h

/-- The front of a piece is a piece at the end of a text. -/
theorem Ends.front (h : p.Ends u) {r : Text} (hr : r <+: p.rest) :
    (⟨p.first, r⟩ : Piece).Ends [] := by
  by_cases hgap : p.isGap = true
  · have hrest : p.rest = [] := by simpa [Ends, hgap] using h
    have hspace : isSpace p.first = true := hgap
    rw [hrest, List.prefix_nil] at hr
    simp [Ends, isGap, hspace, hr]
  · have hspace : isSpace p.first = false := by simpa [isGap] using hgap
    have hpunct := h.punct hspace
    simp only [Ends, isGap, hspace, Bool.false_eq_true, if_false] at h ⊢
    cases hkind : kindOf p.first with
    | ident | number =>
      simp only [tailLength, hkind] at h ⊢
      have hrest := (length_takeWhile_append_eq_iff.1 h).1
      exact length_takeWhile_append_eq_iff.2 ⟨fun b hb => hrest b (hr.subset hb), by simp⟩
    | string =>
      simp only [tailLength, hkind] at h ⊢
      obtain ⟨r', hr'⟩ := hr
      rw [List.append_nil]
      refine stringLength_front (t := r' ++ u) ?_
      rw [← List.append_assoc, hr', h, ← hr', List.length_append]
      exact Nat.le_add_right _ _
    | stop => exact absurd hkind (kindOf_ne_stop _)
    | punct =>
      rw [List.append_nil]
      rcases hpunct hkind with ⟨hnone, hrest⟩ | hsome
      · have hsame := find?_operators_front (s := p.bytes) (v := u) (by simp [hnone])
        rw [hrest, List.prefix_nil] at hr
        rw [hnone, bytes, hrest] at hsame
        simp [tailLength, hkind, hr, hsame]
      · exact tailLength_front (List.mem_of_find?_eq_some hsome) hr

end Piece

/-- Parts of a row of pieces are rows of pieces. -/
theorem Cut.of_append (h : Cut (ps ++ qs)) : Cut ps ∧ Cut qs := by
  induction ps with
  | nil => exact ⟨trivial, h⟩
  | cons p ps ih =>
    rw [List.cons_append] at h
    obtain ⟨hp, hrest⟩ := h
    rw [bytes_append] at hp
    exact ⟨⟨hp.of_append, (ih hrest).1⟩, (ih hrest).2⟩

/-- **The front of a text** is cut as the text is, up to the piece that it ends in.  This piece, if
not all of it is there, is no bracket and no comma; nor is any piece that is left behind, if no
bracket and no comma is cut off. -/
theorem Cut.exists_front (h : Cut ps) {s t : Text} (ht : bytes ps = s ++ t) :
    ∃ whole part back, ps = whole ++ back ∧ Cut (whole ++ part) ∧ bytes (whole ++ part) = s ∧
      (∀ q ∈ part, q.IsPlain) ∧ ((∀ b ∈ t, b ∉ marks) → ∀ q ∈ back, q.IsPlain) := by
  induction ps generalizing s with
  | nil =>
    obtain ⟨rfl, -⟩ := List.append_eq_nil_iff.1 ht.symm
    exact ⟨[], [], [], rfl, trivial, rfl, by simp, by simp⟩
  | cons p ps ih =>
    obtain ⟨hp, hps⟩ := h
    have hfirst : p.bytes <+: s ++ t := ht ▸ List.prefix_append _ _
    by_cases hfront : p.bytes <+: s
    · -- all of the first piece is there
      obtain ⟨s, rfl⟩ := hfront
      rw [bytes_cons, List.append_assoc, List.append_cancel_left_eq] at ht
      obtain ⟨whole, part, back, rfl, hcut, hbytes, hpart, hback⟩ := ih hps ht
      have hends : p.Ends (bytes (whole ++ part)) := by
        rw [hbytes]
        rw [ht] at hp
        exact hp.of_append
      refine ⟨p :: whole, part, back, rfl, ⟨hends, hcut⟩, ?_, hpart, hback⟩
      rw [List.cons_append, bytes_cons, hbytes]
    · -- the text ends in the first piece
      have hshort : s <+: p.bytes :=
        (List.prefix_or_prefix_of_prefix (List.prefix_append s t) hfirst).resolve_right hfront
      have hback : (∀ b ∈ t, b ∉ marks) → ∀ q ∈ p :: ps, q.IsPlain := by
        intro hmarks
        obtain ⟨u, hu⟩ := hshort
        have hrest : t = u ++ bytes ps := by
          rw [bytes_cons, ← hu, List.append_assoc, List.append_cancel_left_eq] at ht
          exact ht.symm
        refine List.forall_mem_cons.2 ⟨fun m hm hbytes => ?_, fun q hq => ?_⟩
        · -- a bracket or a comma is one byte, so it would be cut off as a whole
          have hs : s = [] := by
            by_contra hne
            obtain ⟨b, s, rfl⟩ := List.exists_cons_of_ne_nil hne
            rw [hbytes, List.cons_append] at hu
            refine hfront ?_
            rw [hbytes, (List.cons.inj hu).1]
            exact ⟨s, rfl⟩
          rw [hs, List.nil_append] at hu
          exact hmarks m (by rw [hrest, hu, hbytes]; simp) hm
        · refine Piece.isPlain_of_first (hmarks _ ?_)
          rw [hrest]
          refine List.mem_append_right _ (List.mem_flatMap.2 ⟨q, hq, List.mem_cons_self⟩)
      cases s with
      | nil => exact ⟨[], [], p :: ps, rfl, trivial, rfl, by simp, hback⟩
      | cons b s =>
        obtain ⟨rfl, hrest⟩ := List.cons_prefix_cons.1 hshort
        refine ⟨[], [⟨p.first, s⟩], p :: ps, rfl, ⟨hp.front hrest, trivial⟩, ?_, ?_, hback⟩
        · simp [Piece.bytes]
        · rintro q hq
          obtain rfl := List.mem_singleton.1 hq
          refine Piece.isPlain_of_first fun hmark => hfront ?_
          have hnil := hp.rest_eq_nil (isAlone_of_mem_marks _ hmark)
          simp [Piece.bytes, hnil]

/-! ### Commas -/

/-- The text after an opening quote `q` goes up to the quote that closes it: the first one that no
backslash escapes. -/
def isClosedBy (q : UInt8) : Text → Bool
  | [] => false
  | b :: r =>
    if b = q then r.isEmpty
    else if b = '\\' then
      match r with
      | [] => false
      | _ :: r' => isClosedBy q r'
    else isClosedBy q r

/-- The literal of a string ends with the quote that closes it. -/
def isClosed : Text → Bool
  | [] => false
  | q :: r => isClosedBy q r

theorem stringLength_of_isClosedBy {q : UInt8} {s : Text} (h : isClosedBy q s = true) (u : Text) :
    stringLength q (s ++ u) = s.length := by
  fun_induction isClosedBy q s with
  | case1 => cases h
  | case2 r =>
    rw [List.isEmpty_iff.1 h, List.cons_append, stringLength_quote]
    rfl
  | case3 => cases h
  | case4 b r hq ih =>
    rw [List.cons_append, List.cons_append, stringLength_escape hq, ih h, List.length_cons,
      List.length_cons]
    omega
  | case5 b r hq hescape ih =>
    rw [List.cons_append, stringLength_other hq hescape, ih h, List.length_cons]
    omega

/-- A piece ends at the same place if a comma follows what follows it, unless it is a string that is
not closed. -/
theorem Piece.Ends.append_comma (h : p.Ends u)
    (hclosed : p.kind = .string → isClosed p.bytes = true) (v : Text) :
    p.Ends (u ++ ','.toUInt8 :: v) := by
  by_cases hgap : p.isGap = true
  · simpa [Ends, hgap] using h
  · simp only [Ends, hgap, Bool.false_eq_true, if_false] at h ⊢
    have hhead : ∀ {P : UInt8 → Bool}, P ','.toUInt8 = false → (∀ b ∈ u.head?, P b = false) →
        ∀ b ∈ (u ++ ','.toUInt8 :: v).head?, P b = false := by
      intro P hcomma hu
      cases u with
      | nil => simpa using hcomma
      | cons c u => simpa using hu
    cases hkind : kindOf p.first with
    | ident | number =>
      simp only [tailLength, hkind] at h ⊢
      obtain ⟨hrest, hu⟩ := length_takeWhile_append_eq_iff.1 h
      exact length_takeWhile_append_eq_iff.2 ⟨hrest, hhead (by decide) hu⟩
    | string =>
      simp only [tailLength, hkind]
      exact stringLength_of_isClosedBy (hclosed hkind) _
    | stop => exact absurd hkind (kindOf_ne_stop _)
    | punct =>
      have hcomma : ∀ op ∈ operators, ','.toUInt8 ∉ op := by decide +kernel
      have hsame :
          operators.find? (Text.startsWith (p.first :: (p.rest ++ (u ++ ','.toUInt8 :: v)))) =
          operators.find? (Text.startsWith (p.first :: (p.rest ++ u))) := by
        rw [← List.append_assoc, ← List.cons_append]
        exact List.find?_congr fun op hop => Text.startsWith_append_cons (hcomma op hop) _ v
      simp only [tailLength, hkind, hsame] at h ⊢
      exact h

/-- A comma as a piece. -/
def Piece.comma : Piece := ⟨','.toUInt8, []⟩

/-- **A comma is a border**, whatever follows it, if the strings before it are closed. -/
theorem Cut.append_comma (hps : Cut ps)
    (hclosed : ∀ p ∈ ps, p.kind = .string → isClosed p.bytes = true) (hqs : Cut qs) :
    Cut (ps ++ .comma :: qs) := by
  induction ps with
  | nil => exact ⟨.of_isAlone (by decide +kernel) _, hqs⟩
  | cons p ps ih =>
    obtain ⟨hp, hps⟩ := hps
    obtain ⟨hfirst, hclosed⟩ := List.forall_mem_cons.1 hclosed
    have hends := hp.append_comma hfirst (bytes qs)
    refine ⟨?_, ih hps hclosed⟩
    have htext : bytes (ps ++ .comma :: qs) = bytes ps ++ ','.toUInt8 :: bytes qs := by
      rw [bytes_append, bytes_cons]
      rfl
    exact htext ▸ hends

/-! ### White space at the front -/

/-- The byte as a piece. -/
def Piece.single (b : UInt8) : Piece := ⟨b, []⟩

@[simp] theorem bytes_map_single (s : Text) : bytes (s.map Piece.single) = s := by
  induction s with
  | nil => rfl
  | cons b s ih => simp [Piece.single, Piece.bytes, ih]

theorem cut_alone {s : Text} (hs : ∀ b ∈ s, isAlone b = true) (hqs : Cut qs) :
    Cut (s.map Piece.single ++ qs) := by
  induction s with
  | nil => exact hqs
  | cons b s ih =>
    obtain ⟨hb, hs⟩ := List.forall_mem_cons.1 hs
    exact ⟨.of_isAlone hb _, ih hs⟩

/-- A white space character is made of pieces of their own: bytes that stand alone, after a byte
that is read as a letter. -/
theorem cut_blank {code : Text} (hcode : code ∈ Text.blanks) (hqs : Cut qs) :
    Cut (code.map Piece.single ++ qs) := by
  have hall : ∀ code ∈ Text.blanks, code ≠ [] ∧ (∀ b ∈ code.tail, isAlone b = true) ∧
      (isAlone (code.headD 0) = true ∨ isIdentStart (code.headD 0) = true ∧
        code.tail ≠ [] ∧ isIdentByte (code.tail.headD 0) = false) := by
    decide +kernel
  obtain ⟨hne, htail, hhead⟩ := hall code hcode
  obtain ⟨b, s, rfl⟩ := List.exists_cons_of_ne_nil hne
  refine ⟨?_, cut_alone htail hqs⟩
  rcases hhead with halone | ⟨hstart, htail, hnext⟩
  · exact .of_isAlone halone _
  · obtain ⟨c, s, rfl⟩ := List.exists_cons_of_ne_nil htail
    refine .of_isIdent ⟨hstart, by simp [Piece.single]⟩ ?_
    simpa [Piece.single, Piece.bytes] using hnext

theorem cut_blanks {codes : List Text} (hcodes : ∀ code ∈ codes, code ∈ Text.blanks)
    (hqs : Cut qs) : Cut (codes.flatten.map Piece.single ++ qs) := by
  induction codes with
  | nil => exact hqs
  | cons code codes ih =>
    obtain ⟨hcode, hcodes⟩ := List.forall_mem_cons.1 hcodes
    rw [List.flatten_cons, List.map_append, List.append_assoc]
    exact cut_blank hcode (ih hcodes)

end ContractNet.Expr

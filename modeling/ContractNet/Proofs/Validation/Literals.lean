import ContractNet.Proofs.Expr.Literal
import ContractNet.Proofs.Validation.Faults

/-!
# Which literals are reported

Validation reports the number tokens of markings, guards and inscriptions that are taken for
integers and not read as 256-bit words.  Here the reports are told by the spelling of the tokens
(`Net.literal_errors`): **reported are the integer literals of more than 256 bits**, one report for
each, and beside them the tokens with a hexadecimal mark that something else than digits and
underscores follows.  The latter are no integer literals, and are said not to fit all the same.
-/

namespace ContractNet

namespace Expr

/-- The text is an integer literal of more than 256 bits. -/
def overflows (t : Text) : Bool := (literalValue? t).any (2 ^ 256 ≤ ·)

/-- After a hexadecimal mark stands something that is neither a digit nor an underscore. -/
def isMisspelt (t : Text) : Bool :=
  (hexDigits? t).any fun u => u.any fun b => !Radix.hexadecimal.isDigit b && b ≠ '_'.toUInt8

variable {r : Radix} {t u : Text}

theorem isMisspelt_eq_false_iff (h : hexDigits? t = some u) :
    isMisspelt t = false ↔ ∀ b ∈ u, Radix.hexadecimal.isDigit b = true ∨ b = '_'.toUInt8 := by
  simp [isMisspelt, h, or_iff_not_imp_left]

/-- A row of digits and underscores counts as zero if it has no digit. -/
theorem any_numeral?_iff (h : ∀ b ∈ u, r.isDigit b = true ∨ b = '_'.toUInt8) :
    (r.numeral? u).any (2 ^ 256 ≤ ·) = true ↔ 2 ^ 256 ≤ r.value u := by
  by_cases hdigit : ∃ b ∈ u, r.isDigit b = true
  · simp [Radix.numeral?_eq_some_iff.2 ⟨h, hdigit, rfl⟩]
  · have hnone : r.numeral? u = none := by
      rw [Option.eq_none_iff_forall_ne_some]
      exact fun n hn => hdigit (Radix.numeral?_eq_some_iff.1 hn).2.1
    have hdigits : r.digits u = [] := by
      refine List.filterMap_eq_nil_iff.2 fun b hb => ?_
      have hb' : r.isDigit b ≠ true := fun hd => hdigit ⟨b, hb, hd⟩
      simpa [Radix.isDigit] using hb'
    rw [hnone, Radix.value, hdigits]
    simp

/-- What is misspelt denotes no number. -/
theorem overflows_of_isMisspelt (h : isMisspelt t = true) : overflows t = false := by
  cases hmark : hexDigits? t with
  | none => simp [isMisspelt, hmark] at h
  | some u =>
    have hnone : literalValue? t = none := by
      rw [literalValue?, hmark, Option.eq_none_iff_forall_ne_some]
      intro n hn
      have hspelt := (isMisspelt_eq_false_iff hmark).2 (Radix.numeral?_eq_some_iff.1 hn).1
      rw [hspelt] at h
      cases h
    rw [overflows, hnone]
    rfl

/-- With a hexadecimal mark, what follows the mark decides. -/
theorem isReported_iff_of_mark (hmark : hexDigits? t = some u) (htrim : t.trim = t) :
    (u ≠ [] ∧ ¬ ∃ w, parseUint t = .ok w) ↔ overflows t = true ∨ isMisspelt t = true := by
  have hread {w : BitVec 256} :=
    parseUint_of_mark (w := w) (hexDigits?_withoutUnderscores (htrim.symm ▸ hmark))
  by_cases hall : ∀ b ∈ u, Radix.hexadecimal.isDigit b = true ∨ b = '_'.toUInt8
  · have hspelt := (isMisspelt_eq_false_iff hmark).2 hall
    have hvalue : ∀ w, parseUint t = .ok w ↔ w.toNat = Radix.hexadecimal.value u := fun w => by
      rw [hread, and_iff_right (forall_withoutUnderscores.2 hall), value_withoutUnderscores]
    rw [exists_parseUint_iff hvalue, overflows, literalValue?, hmark, any_numeral?_iff hall, hspelt,
      Nat.not_lt, or_iff_left Bool.false_ne_true]
    -- with nothing after the mark the value is 0, which is not too large
    refine and_iff_right_of_imp ?_
    rintro hlarge rfl
    exact absurd hlarge (by decide)
  · have hmisspelt : isMisspelt t = true := by
      rw [← Bool.not_eq_false, isMisspelt_eq_false_iff hmark]
      exact hall
    refine iff_of_true ⟨?_, ?_⟩ (.inr hmisspelt)
    · rintro rfl
      simp at hall
    · rintro ⟨w, hw⟩
      exact hall (forall_withoutUnderscores.1 (hread.1 hw).1)

/-- Without a mark, digits and underscores are a literal. -/
theorem isReported_iff_of_noMark (ht : IsNumber t) (hmark : hexDigits? t = none)
    (htrim : t.trim = t) :
    ((∀ b ∈ t, Text.isDigit b = true ∨ b = '_'.toUInt8) ∧ ¬ ∃ w, parseUint t = .ok w) ↔
      overflows t = true ∨ isMisspelt t = true := by
  have hspelt : isMisspelt t = false := by simp [isMisspelt, hmark]
  rw [hspelt, or_iff_left Bool.false_ne_true]
  by_cases hall : ∀ b ∈ t, Text.isDigit b = true ∨ b = '_'.toUInt8
  · obtain ⟨b, hb, hdigit⟩ := (Option.any_eq_true _ _).1 ht.first
    have hvalue : literalValue? t = some (Radix.decimal.value t) := by
      rw [literalValue?, hmark]
      refine Radix.numeral?_eq_some_iff.2 ⟨by simpa using hall, ⟨b, ?_, by simpa using hdigit⟩, rfl⟩
      exact List.mem_of_mem_head? hb
    have hread : literalValue? t.trim = some (Radix.decimal.value t) := htrim.symm ▸ hvalue
    rw [and_iff_right hall, exists_parseUint_iff fun _ => parseUint_of_literalValue? hread,
      overflows, hvalue]
    simp
  · have hnone : literalValue? t = none := by
      rw [literalValue?, hmark, Option.eq_none_iff_forall_ne_some]
      intro n hn
      exact hall (by simpa using (Radix.numeral?_eq_some_iff.1 hn).1)
    rw [overflows, hnone]
    exact iff_of_false (fun h => hall h.1) Bool.false_ne_true

/-- **Which number tokens are reported:** integer literals of more than 256 bits, and what is
misspelt. -/
theorem isReported_iff (ht : IsNumber t) :
    (isIntegerLiteral t = true ∧ ¬ ∃ w, parseUint t = .ok w) ↔
      overflows t = true ∨ isMisspelt t = true := by
  have hspaces : ∀ b ∈ ([] : Text), isSpace b = true := by simp
  have hint := isIntegerLiteral_of_isNumber hspaces hspaces ht
  have htrim : t.trim = t := by
    simpa using ht.trim_append (isWhite_of_isSpace hspaces) (isWhite_of_isSpace hspaces)
  simp only [List.nil_append, List.append_nil] at hint
  rw [hint]
  cases hmark : hexDigits? t with
  | some u => simpa using isReported_iff_of_mark hmark htrim
  | none => simpa using isReported_iff_of_noMark ht hmark htrim

end Expr

/-! ### Labels -/

/-- A marking, guard or inscription with the id of the element that it belongs to. -/
structure OwnedLabel where
  kind : LabelKind
  owner : Text
  text : Text

/-- The findings at the number tokens of a label that are spelled in a certain way. -/
def OwnedLabel.reports (x : OwnedLabel) (spelt : Text → Bool) : List Finding :=
  ((Expr.tokenize x.text).filter fun t => t.kind = .number && spelt t.literal).map fun t =>
    .tooLarge t.literal x.kind x.owner

theorem OwnedLabel.mem_reports_iff {x : OwnedLabel} {spelt : Text → Bool} {f : Finding} :
    f ∈ x.reports spelt ↔ ∃ t ∈ Expr.tokenize x.text, t.kind = .number ∧ spelt t.literal = true ∧
      f = .tooLarge t.literal x.kind x.owner := by
  simp only [OwnedLabel.reports, List.mem_map, List.mem_filter, Bool.and_eq_true, decide_eq_true_eq,
    and_assoc, eq_comm (a := f)]

/-- The errors of a category. -/
def Report.errorsOf (r : Report) (c : Category) : List Finding := r.errors.filter (·.category = c)

namespace Page

variable (p : Page) {l : Labels}

/-- The labels of a page with their elements. -/
def ownedLabels : List OwnedLabel :=
  p.places.flatMap (fun q => (q.marking.map (OwnedLabel.mk .marking q.id)).toList) ++
  p.transitions.flatMap (fun t => (t.guard.map (OwnedLabel.mk .guard t.id)).toList) ++
  p.arcs.map fun a => ⟨.inscription, a.id, a.inscription⟩

/-- The findings at the number tokens of all labels that are spelled in a certain way. -/
def reports (spelt : Text → Bool) : List Finding := p.ownedLabels.flatMap (·.reports spelt)

variable {p}

theorem checkLiterals_eq_reports (x : OwnedLabel) : checkLiterals x.kind x.owner x.text =
    x.reports fun t => Expr.overflows t || Expr.isMisspelt t := by
  rw [checkLiterals, OwnedLabel.reports, ← List.filterMap_eq_map, List.filterMap_filter]
  refine List.filterMap_congr fun t ht => ?_
  have hreported : (t.kind = .number && Expr.isIntegerLiteral t.literal &&
      (Expr.parseUint t.literal).toOption.isNone) =
        (t.kind = .number && (Expr.overflows t.literal || Expr.isMisspelt t.literal)) := by
    by_cases hkind : t.kind = .number
    · have hiff := Expr.isReported_iff (Expr.isNumber_of_mem_tokenize ht hkind)
      rw [← isNone_parseUint_eq_false_iff, Bool.not_eq_false] at hiff
      rw [Bool.eq_iff_iff]
      simpa [hkind] using hiff
    · simp [hkind]
  rw [hreported]
  rfl

theorem checkAllLiterals_eq_reports :
    p.checkAllLiterals = p.reports fun t => Expr.overflows t || Expr.isMisspelt t := by
  simp only [checkAllLiterals, reports, ownedLabels, List.flatMap_append, List.flatMap_assoc,
    ← checkLiterals_eq_reports, List.flatMap_map]
  congr 2
  · refine List.flatMap_congr fun q _ => ?_
    cases q.marking <;> simp
  · refine List.flatMap_congr fun t _ => ?_
    cases t.guard <;> simp

theorem errorsOf_literal : (p.validate l).errorsOf .literal = p.checkAllLiterals := by
  have herrors : (p.findingsOf l .literal).filter (·.severity = .error) = p.checkAllLiterals := by
    refine List.filter_eq_self.2 fun f hf => ?_
    obtain ⟨kind, id, text, hf⟩ := exists_of_mem_checkAllLiterals hf
    exact decide_eq_true (of_mem_checkLiterals hf).2
  -- the findings are sorted out by severity first, but it does not matter which comes first
  rw [Report.errorsOf, Report.errors, Report.ofSeverity, List.filter_comm]
  exact (congrArg _ (filter_findings .literal)).trans herrors

/-- Nothing is reported beside the literals of more than 256 bits if nothing is misspelt. -/
theorem reports_or_isMisspelt_eq_iff :
    p.reports (fun t => Expr.overflows t || Expr.isMisspelt t) = p.reports Expr.overflows ↔
      ∀ x ∈ p.ownedLabels, ∀ t ∈ Expr.tokenize x.text, t.kind = .number →
        Expr.isMisspelt t.literal = false := by
  constructor
  · intro heq x hx t ht hkind
    by_contra hmisspelt
    rw [Bool.not_eq_false] at hmisspelt
    have hreported : Finding.tooLarge t.literal x.kind x.owner ∈ p.reports Expr.overflows := by
      rw [← heq, reports, List.mem_flatMap]
      exact ⟨x, hx, OwnedLabel.mem_reports_iff.2 ⟨t, ht, hkind, by simp [hmisspelt], rfl⟩⟩
    -- the literal is named in the report, so another token with the same report is spelled alike
    obtain ⟨y, -, hy⟩ := List.mem_flatMap.1 hreported
    obtain ⟨u, -, -, hlarge, hsame⟩ := OwnedLabel.mem_reports_iff.1 hy
    injection hsame with hliteral
    rw [← hliteral, Expr.overflows_of_isMisspelt hmisspelt] at hlarge
    cases hlarge
  · intro hspelt
    refine List.flatMap_congr fun x hx => ?_
    rw [OwnedLabel.reports, OwnedLabel.reports]
    congr 1
    refine List.filter_congr fun t ht => ?_
    by_cases hkind : t.kind = .number
    · simp [hspelt x hx t ht hkind]
    · simp [hkind]

end Page

/-- **Which literals are reported.**  For a net with a page, the errors about literals are one for
each number token that is an integer literal of more than 256 bits or is misspelt; they are those
of the integer literals alone if and only if no number token is misspelt. -/
theorem Net.literal_errors (l : Labels) {net : Net} {p : Page} (hpage : net.page = some p) :
    (Net.validate l (some net)).errorsOf .literal =
        p.reports (fun t => Expr.overflows t || Expr.isMisspelt t) ∧
      ((Net.validate l (some net)).errorsOf .literal = p.reports Expr.overflows ↔
        ∀ x ∈ p.ownedLabels, ∀ t ∈ Expr.tokenize x.text, t.kind = .number →
          Expr.isMisspelt t.literal = false) := by
  have hvalidate : Net.validate l (some net) = p.validate l.filled := by
    simp only [Net.validate, Option.bind_some, hpage]
  have herrors : (Net.validate l (some net)).errorsOf .literal =
      p.reports (fun t => Expr.overflows t || Expr.isMisspelt t) := by
    rw [hvalidate, Page.errorsOf_literal, Page.checkAllLiterals_eq_reports]
  refine ⟨herrors, ?_⟩
  rw [herrors]
  exact Page.reports_or_isMisspelt_eq_iff

/-- A net with one place, whose marking is the given text. -/
def markedNet (marking : Text) : Net where
  id := "net1"
  type := coreModelType
  page := some
    { id := "page1", places := [{ id := "p0", name := "price", marking := some marking }] }

/-- The least number of more than 256 bits. -/
def leastTooLarge : Text := "0x1" ++ List.replicate 64 '0'.toUInt8

theorem Net.literal_errors_least :
    (Net.validate .default (some (markedNet (Expr.maxDecimal ++ " + " ++ leastTooLarge)))).errorsOf
      .literal = [.tooLarge leastTooLarge .marking "p0"] := by
  refine ((Net.literal_errors .default rfl).2.2 ?_).trans ?_
  · decide +kernel
  · decide +kernel

/-- Letters after a hexadecimal mark are reported as a literal that does not fit, although they
denote no number. -/
theorem Net.literal_errors_misspelt :
    (Net.validate .default (some (markedNet "0xzz"))).errorsOf .literal =
        [.tooLarge "0xzz" .marking "p0"] ∧
      Expr.literalValue? "0xzz" = none := by
  decide +kernel

end ContractNet

import ContractNet.Proofs.Expr.Substitution
import ContractNet.Proofs.Lists

/-!
# Variables after substitution

A variable that is respelled is read in the same places, so the list of the variables that an
expression reads has the new name in the place of the old one.

* `Occurrence.Respelt` says that an occurrence is another with the name changed, among the same
  neighbours; `respelt_occurrences` follows it through all tokens;
* `isRead_of_respelt`: what is read stays read, unless a keyword is involved;
* `identifiers_substitute`: **substitution renames a variable and nothing else**: no variable is
  captured, dropped or added, and none is listed twice.
-/

namespace ContractNet.Expr

/-- The spelling `new` for `name`, and every other name as it is. -/
def respell (name new spelling : Text) : Text := if spelling = name then new else spelling

/-- The occurrence `o'` is `o`, spelled `new` if it is the variable `name`, among the same
neighbours. -/
structure Occurrence.Respelt (name new : Text) (o o' : Occurrence) : Prop where
  token : o.SpeltAs name new o'.token
  isMember : o'.isMember = o.isMember
  isCalled : o'.isCalled = o.isCalled

section

variable {name new : Text} {o o' : Occurrence} {t : Token}

/-! ### Occurrences -/

theorem Occurrence.of_names (h : o.names name = true) :
    o.token.kind = .ident ∧ o.token.literal = name ∧ o.isMember = false := by
  simpa [Occurrence.names, and_assoc] using h

/-- Respelling makes no mark of punctuation, and removes none. -/
theorem Occurrence.SpeltAs.isPunct_eq (h : o.SpeltAs name new t) (p : Text) :
    t.isPunct p = o.token.isPunct p := by
  cases hnames : o.names name with
  | true => simp [Token.isPunct, h.kind, (of_names hnames).1]
  | false => simp [Token.isPunct, h.kind, h.literal, hnames]

/-- Respelled tokens stand among the same neighbours. -/
theorem respelt_occurrences {afterDot : Bool} {ts ts' : List Token}
    (h : List.Forall₂ (Occurrence.SpeltAs name new) (occurrences afterDot ts) ts') :
    List.Forall₂ (Occurrence.Respelt name new) (occurrences afterDot ts)
      (occurrences afterDot ts') := by
  induction ts generalizing afterDot ts' with
  | nil =>
    cases h
    exact .nil
  | cons t ts ih =>
    cases h with
    | @cons _ t' _ ts' hfirst hrest =>
      have hdot : t'.isPunct "." = t.isPunct "." := hfirst.isPunct_eq "."
      have hcalled : ts'.head?.any (Token.isPunct "(") = ts.head?.any (Token.isPunct "(") := by
        cases ts with
        | nil =>
          cases hrest
          rfl
        | cons u us =>
          cases hrest with
          | cons hnext _ => exact hnext.isPunct_eq "("
      refine .cons ⟨hfirst, rfl, hcalled⟩ ?_
      rw [hdot]
      exact ih hrest

namespace Occurrence.Respelt

/-- What is read stays read, unless a keyword is involved. -/
theorem isRead_eq (h : o.Respelt name new o') (hname : name ∉ keywords) (hnew : new ∉ keywords) :
    o'.isRead = o.isRead := by
  cases hnames : o.names name with
  | true =>
    have hliteral := (of_names hnames).2.1
    simp [isRead, h.token.kind, h.isMember, h.isCalled, h.token.literal, hnames, hliteral, hname,
      hnew]
  | false => simp [isRead, h.token.kind, h.isMember, h.isCalled, h.token.literal, hnames]

/-- A variable that is read is respelled. -/
theorem literal_eq (h : o.Respelt name new o') (hread : o.isRead = true) :
    o'.token.literal = respell name new o.token.literal := by
  cases hnames : o.names name with
  | true => simp [h.token.literal, hnames, respell, (of_names hnames).2.1]
  | false =>
    have hother : o.token.literal ≠ name := by
      intro hsame
      simp only [isRead, Bool.and_eq_true, decide_eq_true_eq] at hread
      simp [names, hread, hsame] at hnames
    simp [h.token.literal, hnames, respell, hother]

end Occurrence.Respelt

/-! ### Variables that are read -/

/-- The spellings of the variables that are read, once for each occurrence. -/
def readNames (os : List Occurrence) : List Text :=
  (os.filter Occurrence.isRead).map (·.token.literal)

theorem readNames_of_respelt {os os' : List Occurrence}
    (h : List.Forall₂ (Occurrence.Respelt name new) os os') (hname : name ∉ keywords)
    (hnew : new ∉ keywords) : readNames os' = (readNames os).map (respell name new) := by
  induction h with
  | nil => rfl
  | @cons o o' os os' hfirst _ ih =>
    simp only [readNames] at ih ⊢
    rw [List.filter_cons, List.filter_cons, hfirst.isRead_eq hname hnew]
    split_ifs with hread
    · rw [List.map_cons, List.map_cons, List.map_cons, ih, hfirst.literal_eq hread]
    · exact ih

/-- Names that are read are used. -/
theorem mem_usedNames_of_mem_readNames {e v : Text}
    (h : v ∈ readNames (occurrences false (tokenize e))) : v ∈ usedNames e := by
  obtain ⟨o, ho, rfl⟩ := List.mem_map.1 h
  obtain ⟨hmem, hread⟩ := List.mem_filter.1 ho
  obtain ⟨i, hi⟩ := List.mem_iff_getElem?.1 hmem
  have htoken : o.token ∈ tokenize e := List.mem_of_getElem? (getElem?_occurrences hi).1
  simp only [Occurrence.isRead, Bool.and_eq_true] at hread
  exact List.mem_map.2 ⟨o.token, List.mem_filter.2 ⟨htoken, hread.1.1.1⟩, rfl⟩

/-- Names other than the new one stay different. -/
theorem respell_inj {v w : Text} (hv : v ≠ new) (hw : w ≠ new)
    (h : respell name new v = respell name new w) : v = w := by
  unfold respell at h
  split_ifs at h with hvname hwname hwname
  · exact hvname.trans hwname.symm
  · exact absurd h.symm hw
  · exact absurd h hv
  · exact h

end

/-- **Substitution renames a variable and nothing else.**  If no identifier starts where a number
ends, an identifier that the expression does not use can take the place of a variable, both of them
no keywords: then the expression reads the variables that it read before, in the same order and each
once, with the new name in the place of the old one, which no variable had before. -/
theorem identifiers_substitute {e new : Text} (he : NamesApart e) (hnew : IsIdentifier new)
    (hfresh : new ∉ usedNames e) (hkeyword : new ∉ keywords) {name : Text}
    (hname : name ∉ keywords) :
    identifiers (substitute e name new) = (identifiers e).map (respell name new) ∧
      (identifiers (substitute e name new)).Nodup ∧ new ∉ identifiers e := by
  obtain ⟨q, hq, rfl⟩ := hnew.exists_piece
  have hread := readNames_of_respelt (respelt_occurrences (speltAs_substitute he hq name)) hname
    hkeyword
  have hother : ∀ v ∈ readNames (occurrences false (tokenize e)), v ≠ q.bytes := by
    rintro v hv rfl
    exact hfresh (mem_usedNames_of_mem_readNames hv)
  refine ⟨?_, nodup_eraseDups _, fun hmem => hother _ (List.mem_eraseDups.1 hmem) rfl⟩
  calc identifiers (substitute e name q.bytes)
      = ((readNames (occurrences false (tokenize e))).map (respell name q.bytes)).eraseDups :=
        congrArg List.eraseDups hread
    _ = (identifiers e).map (respell name q.bytes) :=
        eraseDups_map fun v hv w hw => respell_inj (hother v hv) (hother w hw)

/-- A variable that is read twice, called and a member, beside keywords. -/
def callsAndReads : Text := "count(count, 3 days) + msg.count * this.count[other] - count"

theorem identifiers_substitute_callsAndReads :
    NamesApart callsAndReads ∧ IsIdentifier "x_1" ∧ ("x_1" : Text) ∉ usedNames callsAndReads ∧
      ("x_1" : Text) ∉ keywords ∧ ("count" : Text) ∉ keywords ∧
      identifiers callsAndReads = (["count", "msg", "other"] : List Text) ∧
      identifiers (substitute callsAndReads "count" "x_1") =
        (["x_1", "msg", "other"] : List Text) := by
  have hapart : NamesApart callsAndReads := by decide +kernel
  have hident : IsIdentifier "x_1" := by decide +kernel
  have hfresh : ("x_1" : Text) ∉ usedNames callsAndReads := by decide +kernel
  have hkeyword : ("x_1" : Text) ∉ keywords := by decide +kernel
  have hname : ("count" : Text) ∉ keywords := by decide +kernel
  have hread : identifiers callsAndReads = (["count", "msg", "other"] : List Text) := by
    decide +kernel
  refine ⟨hapart, hident, hfresh, hkeyword, hname, hread, ?_⟩
  rw [(identifiers_substitute hapart hident hfresh hkeyword hname).1, hread]
  rfl

end ContractNet.Expr

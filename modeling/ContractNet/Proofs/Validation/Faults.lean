import ContractNet.Proofs.Net.Wiring
import ContractNet.Validation.Report

/-!
# When validation finds no fault

Each check of a page has findings of one category (`Page.mem_findings_iff`), so a page is valid if
and only if no category has a fault (`Page.valid_iff`).  For each category, the faults
are characterised on their own:

* ids: none is empty or used twice (`Page.faultless_identity_iff`);
* arcs: each joins a place with a transition (`Page.faultless_arc_iff`);
* markings: at most one place holds the token of control (`Page.faultless_marking_iff`);
* guards: each is a condition in brackets (`Page.faultless_guard_iff`);
* literals: each fits in 256 bits (`Page.faultless_literal_iff`);
* what the other checks find is never an error.

Together they are the conditions of `Page.WellFormed`, so validation decides which nets are well
formed (`Net.valid_validate_iff`).
-/

namespace ContractNet

/-- Every integer literal of the text is a 256-bit word. -/
def Expr.LiteralsFit (text : Text) : Prop :=
  ∀ t ∈ tokenize text, t.kind = .number → isIntegerLiteral t.literal = true →
    ∃ w, parseUint t.literal = .ok w

instance (text : Text) : Decidable (Expr.LiteralsFit text) :=
  decidable_of_iff (∀ t ∈ Expr.tokenize text, t.kind = .number →
    Expr.isIntegerLiteral t.literal = true → (Expr.parseUint t.literal).isOk = true)
    (by simp only [isOk_iff, Expr.LiteralsFit])

/-- The guard is a condition in brackets, with white space around it or not. -/
structure Text.IsGuard (g : Text) : Prop where
  opened : g.trim.startsWith "[" = true
  closed : g.trim.endsWith "]" = true
  condition : Text.isBlank (g.trim.drop 1).dropLast = false

namespace Page

variable (p : Page) (l : Labels)

/-- The markings, guards and inscriptions of a page. -/
def labels : List Text :=
  p.places.filterMap (·.marking) ++ p.transitions.filterMap (·.guard) ++
    p.arcs.map (·.inscription)

/-! ### Categories -/

/-- The findings of each category. -/
def findingsOf : Category → List Finding
  | .contents => p.checkContents
  | .identity => p.checkIds
  | .arc => p.arcs.flatMap p.checkArc
  | .marking => p.checkUnits l
  | .connectivity => p.places.flatMap p.checkPlace ++ p.transitions.flatMap p.checkTransition
  | .guard => p.transitions.flatMap checkGuard
  | .literal => p.checkAllLiterals
  | .balance => p.checkBalance
  | .controlFlow => p.checkControlFlow l

/-- No finding of the category is an error. -/
def Faultless (c : Category) : Prop := ∀ f ∈ p.findingsOf l c, f.severity ≠ .error

variable {p l}

theorem of_mem_checkContents {f : Finding} (h : f ∈ p.checkContents) :
    f.category = .contents ∧ f.severity = .warning := by
  simp only [checkContents, List.mem_append, List.mem_ite_nil_right, List.mem_singleton] at h
  rcases h with (⟨-, rfl⟩ | ⟨-, rfl⟩) | ⟨-, rfl⟩ <;> exact ⟨rfl, rfl⟩

theorem of_mem_checkIds {f : Finding} (h : f ∈ p.checkIds) :
    f.category = .identity ∧ f.severity = .error := by
  simp only [checkIds, List.mem_append, List.mem_map, List.mem_filterMap] at h
  rcases h with ⟨_, _, rfl⟩ | ⟨_, _, h⟩
  · exact ⟨rfl, rfl⟩
  · split at h <;> cases h
    exact ⟨rfl, rfl⟩

theorem of_mem_checkArc {f : Finding} {a : Arc} (h : f ∈ p.checkArc a) : f.category = .arc := by
  simp only [checkArc, List.mem_append, List.mem_ite_nil_right, List.mem_singleton] at h
  rcases h with ((⟨-, rfl⟩ | ⟨-, rfl⟩) | h) | ⟨-, rfl⟩
  · rfl
  · rfl
  · split at h
    · obtain ⟨-, rfl⟩ := List.mem_ite_nil_right.1 h |>.imp_right List.mem_singleton.1
      rfl
    · cases h
  · rfl

theorem of_mem_checkUnits {f : Finding} (h : f ∈ p.checkUnits l) : f.category = .marking := by
  unfold checkUnits at h
  split at h
  · obtain rfl := List.mem_singleton.1 h
    rfl
  · cases h
  · obtain rfl := List.mem_singleton.1 h
    rfl

theorem of_mem_checkPlace {f : Finding} {q : Place} (h : f ∈ p.checkPlace q) :
    f.category = .connectivity ∧ f.severity = .warning := by
  simp only [checkPlace, List.mem_ite_nil_left, List.mem_singleton] at h
  obtain ⟨-, rfl⟩ := h
  exact ⟨rfl, rfl⟩

theorem of_mem_checkTransition {f : Finding} {t : Transition} (h : f ∈ p.checkTransition t) :
    f.category = .connectivity ∧ f.severity = .warning := by
  simp only [checkTransition, List.mem_append, List.mem_ite_nil_right, List.mem_singleton] at h
  rcases h with ⟨-, rfl⟩ | ⟨-, rfl⟩ <;> exact ⟨rfl, rfl⟩

theorem of_mem_checkGuard {f : Finding} {t : Transition} (h : f ∈ checkGuard t) :
    f.category = .guard ∧ f.severity = .error := by
  unfold checkGuard at h
  split at h
  · cases h
  · simp only at h
    split at h
    · obtain rfl := List.mem_singleton.1 h
      exact ⟨rfl, rfl⟩
    · obtain ⟨-, rfl⟩ := List.mem_ite_nil_right.1 h |>.imp_right List.mem_singleton.1
      exact ⟨rfl, rfl⟩

theorem of_mem_checkLiterals {f : Finding} {kind : LabelKind} {id text : Text}
    (h : f ∈ checkLiterals kind id text) : f.category = .literal ∧ f.severity = .error := by
  obtain ⟨t, -, h⟩ := List.mem_filterMap.1 h
  split at h <;> cases h
  exact ⟨rfl, rfl⟩

theorem of_mem_checkBalance {f : Finding} (h : f ∈ p.checkBalance) :
    f.category = .balance ∧ f.severity = .info := by
  unfold checkBalance at h
  split at h <;> obtain rfl := List.mem_singleton.1 h <;> exact ⟨rfl, rfl⟩

theorem of_mem_checkControlFlow {f : Finding} (h : f ∈ p.checkControlFlow l) :
    f.category = .controlFlow ∧ f.severity ≠ .error := by
  simp only [checkControlFlow, List.mem_append, List.mem_ite_nil_left, List.mem_singleton] at h
  rcases h with (⟨-, rfl⟩ | ⟨-, rfl⟩) | rfl <;> exact ⟨rfl, by simp [Finding.severity]⟩

/-- A literal that does not fit is found in one of the labels. -/
theorem exists_of_mem_checkAllLiterals {f : Finding} (h : f ∈ p.checkAllLiterals) :
    ∃ kind id text, f ∈ checkLiterals kind id text := by
  simp only [checkAllLiterals, List.mem_append, List.mem_flatMap] at h
  rcases h with (⟨q, -, h⟩ | ⟨t, -, h⟩) | ⟨a, -, h⟩
  · cases hm : q.marking with
    | none => simp [hm] at h
    | some m => exact ⟨_, _, m, by simpa [hm] using h⟩
  · cases hg : t.guard with
    | none => simp [hg] at h
    | some g => exact ⟨_, _, g, by simpa [hg] using h⟩
  · exact ⟨_, _, _, h⟩

theorem category_of_mem_findingsOf {f : Finding} {c : Category} (h : f ∈ p.findingsOf l c) :
    f.category = c := by
  cases c with
  | contents => exact (of_mem_checkContents h).1
  | identity => exact (of_mem_checkIds h).1
  | arc =>
    obtain ⟨a, -, h⟩ := List.mem_flatMap.1 h
    exact of_mem_checkArc h
  | marking => exact of_mem_checkUnits h
  | connectivity =>
    rcases List.mem_append.1 h with h | h
    · obtain ⟨q, -, h⟩ := List.mem_flatMap.1 h
      exact (of_mem_checkPlace h).1
    · obtain ⟨t, -, h⟩ := List.mem_flatMap.1 h
      exact (of_mem_checkTransition h).1
  | guard =>
    obtain ⟨t, -, h⟩ := List.mem_flatMap.1 h
    exact (of_mem_checkGuard h).1
  | literal =>
    obtain ⟨kind, id, text, h⟩ := exists_of_mem_checkAllLiterals h
    exact (of_mem_checkLiterals h).1
  | balance => exact (of_mem_checkBalance h).1
  | controlFlow => exact (of_mem_checkControlFlow h).1

/-- **Every check has findings of one category:** those of a category are what its checks find, in
their order. -/
theorem filter_findings (c : Category) :
    (p.findings l).filter (·.category = c) = p.findingsOf l c := by
  have hfindings : p.findings l = [.contents, .identity, .arc, .marking, .connectivity, .guard,
      .literal, .balance, .controlFlow].flatMap (p.findingsOf l) := by
    simp [findings, findingsOf]
  have hfilter : ∀ c', (p.findingsOf l c').filter (·.category = c) =
      if c' = c then p.findingsOf l c' else [] := by
    intro c'
    split_ifs with hc
    · exact List.filter_eq_self.2 fun f hf => by simp [category_of_mem_findingsOf hf, hc]
    · exact List.filter_eq_nil_iff.2 fun f hf => by simp [category_of_mem_findingsOf hf, hc]
  rw [hfindings, List.filter_flatMap]
  simp only [hfilter]
  cases c <;> simp

theorem mem_findings_iff {f : Finding} : f ∈ p.findings l ↔ f ∈ p.findingsOf l f.category := by
  rw [← filter_findings, List.mem_filter]
  simp

/-- A page is valid if no category has a fault. -/
theorem valid_iff_faultless : (p.validate l).valid = true ↔ ∀ c, p.Faultless l c := by
  rw [Report.valid, List.isEmpty_iff, Report.errors, Report.ofSeverity, List.filter_eq_nil_iff]
  simp only [decide_eq_true_eq]
  constructor
  · intro h c f hf
    exact h f (mem_findings_iff.2 (category_of_mem_findingsOf hf ▸ hf))
  · intro h f hf
    exact h f.category f (mem_findings_iff.1 hf)

/-! ### Faults of each category -/

theorem faultless_contents : p.Faultless l .contents := fun _ hf => by
  rw [(of_mem_checkContents hf).2]
  decide

theorem faultless_connectivity : p.Faultless l .connectivity := fun f hf => by
  have : f.severity = .warning := by
    rcases List.mem_append.1 hf with hf | hf
    · obtain ⟨q, -, hf⟩ := List.mem_flatMap.1 hf
      exact (of_mem_checkPlace hf).2
    · obtain ⟨t, -, hf⟩ := List.mem_flatMap.1 hf
      exact (of_mem_checkTransition hf).2
  rw [this]
  decide

theorem faultless_balance : p.Faultless l .balance := fun _ hf => by
  rw [(of_mem_checkBalance hf).2]
  decide

theorem faultless_controlFlow : p.Faultless l .controlFlow := fun _ hf =>
  (of_mem_checkControlFlow hf).2

/-- Ids are faultless if none is empty and none is used twice. -/
theorem faultless_identity_iff : p.Faultless l .identity ↔ [] ∉ p.ids ∧ p.ids.Nodup := by
  have hnil : p.Faultless l .identity ↔ p.checkIds = [] := by
    rw [List.eq_nil_iff_forall_not_mem]
    exact forall_congr' fun f => ⟨fun h hf => h hf (of_mem_checkIds hf).2, fun h hf => absurd hf h⟩
  rw [hnil, checkIds, List.append_eq_nil_iff, List.map_eq_nil_iff, List.filter_eq_nil_iff]
  have hempty : (∀ id ∈ p.ids, ¬ decide (id = []) = true) ↔ [] ∉ p.ids := by
    simp only [decide_eq_true_eq]
    exact ⟨fun h hmem => h [] hmem rfl, fun h id hid he => h (he ▸ hid)⟩
  rw [hempty]
  -- with no empty id, all ids are named
  refine and_congr_right fun hne => ?_
  have hnamed : p.ids.filter (· ≠ []) = p.ids :=
    List.filter_eq_self.2 fun id hid => by
      simp only [decide_eq_true_eq]
      exact fun he => hne (he ▸ hid)
  rw [hnamed, List.filterMap_eq_nil_iff, List.nodup_iff_count_le_one]
  constructor
  · intro h id
    by_cases hid : id ∈ p.ids
    · have := h id (List.mem_eraseDups.2 hid)
      simp only [ite_eq_right_iff, reduceCtorEq, imp_false] at this
      exact Nat.not_lt.1 this
    · rw [List.count_eq_zero_of_not_mem hid]
      exact Nat.zero_le 1
  · intro h id _
    rw [if_neg (Nat.not_lt.2 (h id))]

theorem kindOf?_eq_transition_iff {id : Text} :
    p.kindOf? id = some .transition ↔ ∃ t ∈ p.transitions, t.id = id := by
  unfold kindOf?
  split_ifs with ht hp <;> simp_all

theorem kindOf?_eq_place_iff {id : Text} : p.kindOf? id = some .place ↔
    (∃ q ∈ p.places, q.id = id) ∧ ∀ t ∈ p.transitions, t.id ≠ id := by
  unfold kindOf?
  split_ifs with ht hp <;> simp_all

/-- An arc is faultless if its ends are nodes of different kinds. -/
theorem checkArc_faultless_iff {a : Arc} :
    (∀ f ∈ p.checkArc a, f.severity ≠ .error) ↔
      ∃ s t, p.kindOf? a.source = some s ∧ p.kindOf? a.target = some t ∧ s ≠ t := by
  unfold checkArc
  cases hs : p.kindOf? a.source with
  | none => simp [Finding.severity]
  | some s =>
    cases ht : p.kindOf? a.target with
    | none => simp [Finding.severity]
    | some t => by_cases hst : s = t <;> simp [Finding.severity, hst]

/-- If ids are not used twice, arcs are faultless if each joins a place with a transition. -/
theorem faultless_arc_iff (hnd : p.ids.Nodup) : p.Faultless l .arc ↔
    ∀ a ∈ p.arcs, ∃ q ∈ p.places, ∃ t ∈ p.transitions, a.Joins q.id t.id := by
  have hne : ∀ q ∈ p.places, ∀ t ∈ p.transitions, t.id ≠ q.id := fun q hq t ht he =>
    (List.nodup_append.1 (List.nodup_append.1 hnd).1).2.2 _ (List.mem_map_of_mem hq) _
      (List.mem_map_of_mem ht) he.symm
  have harc : ∀ a : Arc,
      (∃ s t, p.kindOf? a.source = some s ∧ p.kindOf? a.target = some t ∧ s ≠ t) ↔
        ∃ q ∈ p.places, ∃ t ∈ p.transitions, a.Joins q.id t.id := by
    intro a
    constructor
    · rintro ⟨s, t, hs, ht, hst⟩
      cases s <;> cases t
      · exact absurd rfl hst
      · obtain ⟨⟨q, hq, he⟩, -⟩ := kindOf?_eq_place_iff.1 hs
        obtain ⟨t, ht, he'⟩ := kindOf?_eq_transition_iff.1 ht
        exact ⟨q, hq, t, ht, .inl ⟨he.symm, he'.symm⟩⟩
      · obtain ⟨t, ht', he'⟩ := kindOf?_eq_transition_iff.1 hs
        obtain ⟨⟨q, hq, he⟩, -⟩ := kindOf?_eq_place_iff.1 ht
        exact ⟨q, hq, t, ht', .inr ⟨he'.symm, he.symm⟩⟩
      · exact absurd rfl hst
    · rintro ⟨q, hq, t, ht, ⟨hs, hd⟩ | ⟨hs, hd⟩⟩
      · exact ⟨.place, .transition, kindOf?_eq_place_iff.2 ⟨⟨q, hq, hs.symm⟩, hs ▸ hne q hq⟩,
          kindOf?_eq_transition_iff.2 ⟨t, ht, hd.symm⟩, by decide⟩
      · exact ⟨.transition, .place, kindOf?_eq_transition_iff.2 ⟨t, ht, hs.symm⟩,
          kindOf?_eq_place_iff.2 ⟨⟨q, hq, hd.symm⟩, hd ▸ hne q hq⟩, by decide⟩
  have hflat : p.Faultless l .arc ↔
      ∀ a ∈ p.arcs, ∀ f ∈ p.checkArc a, f.severity ≠ .error := by
    simp only [Faultless, findingsOf, List.mem_flatMap]
    exact ⟨fun h a ha f hf => h f ⟨a, ha, hf⟩, fun h f ⟨a, ha, hf⟩ => h a ha f hf⟩
  rw [hflat]
  exact forall₂_congr fun a _ => checkArc_faultless_iff.trans (harc a)

/-- Markings are faultless if at most one place holds the token of control. -/
theorem faultless_marking_iff :
    p.Faultless l .marking ↔ p.places.countP (·.marking = some l.unit) ≤ 1 := by
  have hlen : (p.units l).length = p.places.countP (·.marking = some l.unit) := by
    rw [units, List.length_map, List.countP_eq_length_filter]
    rfl
  rw [← hlen]
  simp only [Faultless, findingsOf, checkUnits]
  match p.units l with
  | [] => simp [Finding.severity]
  | [_] => simp
  | _ :: _ :: _ => simp [Finding.severity]

/-- Guards are faultless if each is a condition in brackets. -/
theorem faultless_guard_iff : p.Faultless l .guard ↔
    ∀ t ∈ p.transitions, ∀ g, t.guard = some g → g.IsGuard := by
  have hone : ∀ t, (∀ f ∈ checkGuard t, f.severity ≠ .error) ↔
      ∀ g, t.guard = some g → g.IsGuard := by
    intro t
    cases hg : t.guard with
    | none => simp [checkGuard, hg]
    | some g =>
      have hiff : g.IsGuard ↔ g.trim.startsWith "[" = true ∧ g.trim.endsWith "]" = true ∧
          Text.isBlank (g.trim.drop 1).dropLast = false :=
        ⟨fun h => ⟨h.opened, h.closed, h.condition⟩, fun ⟨h₁, h₂, h₃⟩ => ⟨h₁, h₂, h₃⟩⟩
      simp only [checkGuard, hg, Option.some.injEq, forall_eq', hiff]
      cases g.trim.startsWith "[" <;> cases g.trim.endsWith "]" <;>
        cases Text.isBlank (g.trim.drop 1).dropLast <;> simp [Finding.severity]
  simp only [Faultless, findingsOf, List.mem_flatMap]
  constructor
  · intro h t ht
    exact (hone t).1 fun f hf => h f ⟨t, ht, hf⟩
  · rintro h f ⟨t, ht, hf⟩
    exact (hone t).2 (h t ht) f hf

theorem isNone_parseUint_eq_false_iff {literal : Text} :
    (Expr.parseUint literal).toOption.isNone = false ↔ ∃ w, Expr.parseUint literal = .ok w := by
  cases Expr.parseUint literal <;> simp [Except.toOption]

theorem checkLiterals_faultless_iff {kind : LabelKind} {id text : Text} :
    (∀ f ∈ checkLiterals kind id text, f.severity ≠ .error) ↔ Expr.LiteralsFit text := by
  constructor
  · intro h t ht hkind hint
    rw [← isNone_parseUint_eq_false_iff]
    by_contra hbad
    rw [Bool.not_eq_false] at hbad
    have hmem : Finding.tooLarge t.literal kind id ∈ checkLiterals kind id text :=
      List.mem_filterMap.2 ⟨t, ht, by rw [hint, hbad]; simp [hkind]⟩
    exact h _ hmem rfl
  · intro h f hf
    obtain ⟨t, ht, hf⟩ := List.mem_filterMap.1 hf
    split at hf
    · rename_i hbad
      simp only [Bool.and_eq_true, decide_eq_true_eq] at hbad
      rw [isNone_parseUint_eq_false_iff.2 (h t ht hbad.1.1 hbad.1.2)] at hbad
      exact absurd hbad.2 (by decide)
    · cases hf

/-- Literals are faultless if those of each label fit in 256 bits. -/
theorem faultless_literal_iff : p.Faultless l .literal ↔ ∀ t ∈ p.labels, Expr.LiteralsFit t := by
  have hopt : ∀ (kind : LabelKind) (id : Text) (label : Option Text),
      (∀ f ∈ (label.map (checkLiterals kind id)).getD [], f.severity ≠ .error) ↔
        ∀ t, label = some t → Expr.LiteralsFit t := by
    intro kind id label
    cases label with
    | none => simp
    | some t => simpa using checkLiterals_faultless_iff
  simp only [Faultless, findingsOf, checkAllLiterals, labels, List.mem_append, List.mem_flatMap,
    List.mem_filterMap, List.mem_map]
  constructor
  · rintro h t ((⟨q, hq, ht⟩ | ⟨r, hr, ht⟩) | ⟨a, ha, rfl⟩)
    · exact (hopt _ _ _).1 (fun f hf => h f (.inl (.inl ⟨q, hq, hf⟩))) t ht
    · exact (hopt _ _ _).1 (fun f hf => h f (.inl (.inr ⟨r, hr, hf⟩))) t ht
    · exact checkLiterals_faultless_iff.1 fun f hf => h f (.inr ⟨a, ha, hf⟩)
  · rintro h f ((⟨q, hq, hf⟩ | ⟨r, hr, hf⟩) | ⟨a, ha, hf⟩)
    · exact (hopt _ _ _).2 (fun t ht => h t (.inl (.inl ⟨q, hq, ht⟩))) f hf
    · exact (hopt _ _ _).2 (fun t ht => h t (.inl (.inr ⟨r, hr, ht⟩))) f hf
    · exact checkLiterals_faultless_iff.2 (h _ (.inr ⟨a, ha, rfl⟩)) f hf

/-! ### Validity -/

/-- **A page is valid** if its ids, arcs, markings, guards and literals are faultless: what else is
found is never an error. -/
theorem valid_iff : (p.validate l).valid = true ↔
    p.Faultless l .identity ∧ p.Faultless l .arc ∧ p.Faultless l .marking ∧
      p.Faultless l .guard ∧ p.Faultless l .literal := by
  rw [valid_iff_faultless]
  constructor
  · intro h
    exact ⟨h .identity, h .arc, h .marking, h .guard, h .literal⟩
  · rintro ⟨hidentity, harc, hmarking, hguard, hliteral⟩ c
    cases c with
    | contents => exact faultless_contents
    | identity => exact hidentity
    | arc => exact harc
    | marking => exact hmarking
    | connectivity => exact faultless_connectivity
    | guard => exact hguard
    | literal => exact hliteral
    | balance => exact faultless_balance
    | controlFlow => exact faultless_controlFlow

/-- Ids are named and different, arcs join places with transitions, at most one place holds the token
of control, guards are conditions, and literals fit in 256 bits. -/
structure WellFormed (unit : Text) (p : Page) : Prop where
  named : [] ∉ p.ids
  distinct : p.ids.Nodup
  joined : ∀ a ∈ p.arcs, ∃ q ∈ p.places, ∃ t ∈ p.transitions, a.Joins q.id t.id
  oneUnit : p.places.countP (·.marking = some unit) ≤ 1
  guards : ∀ t ∈ p.transitions, ∀ g, t.guard = some g → g.IsGuard
  literals : ∀ t ∈ p.labels, Expr.LiteralsFit t

theorem valid_iff_wellFormed : (p.validate l).valid = true ↔ p.WellFormed l.unit := by
  rw [valid_iff, faultless_identity_iff, faultless_marking_iff, faultless_guard_iff,
    faultless_literal_iff]
  -- a transition hides a place with its id, so what the check of arcs tells needs different ids
  constructor
  · rintro ⟨⟨hnamed, hdistinct⟩, harc, hunit, hguards, hliterals⟩
    exact ⟨hnamed, hdistinct, (faultless_arc_iff hdistinct).1 harc, hunit, hguards, hliterals⟩
  · intro h
    exact ⟨⟨h.named, h.distinct⟩, (faultless_arc_iff h.distinct).2 h.joined, h.oneUnit, h.guards,
      h.literals⟩

/-- No error is of a faultless category. -/
theorem category_ne_of_faultless {c : Category} (h : p.Faultless l c) {f : Finding}
    (hf : f ∈ (p.validate l).errors) : f.category ≠ c := by
  obtain ⟨hmem, hsev⟩ := List.mem_filter.1 hf
  rintro rfl
  exact h f (mem_findings_iff.1 hmem) (of_decide_eq_true hsev)

end Page

theorem Net.validate_of_page {n : Net} {p : Page} (h : n.page = some p) (l : Labels) :
    Net.validate l (some n) = p.validate l.filled := by
  simp only [Net.validate, Option.bind_some, h]

/-- **Validation is sound and complete.**  A net is valid if and only if there is one, it has a page,
and the page is well formed. -/
theorem Net.valid_validate_iff (l : Labels) (n : Option Net) :
    (Net.validate l n).valid = true ↔
      ∃ net p, n = some net ∧ net.page = some p ∧ p.WellFormed l.filled.unit := by
  cases hp : n.bind (·.page) with
  | none =>
    have hinvalid : (Net.validate l n).valid = false := by simp only [Net.validate, hp]; decide
    rw [hinvalid]
    refine iff_of_false Bool.false_ne_true ?_
    rintro ⟨net, p, rfl, hpage, -⟩
    rw [Option.bind_some, hpage] at hp
    cases hp
  | some p =>
    obtain ⟨net, rfl, hpage⟩ := Option.bind_eq_some_iff.1 hp
    have hvalidate : Net.validate l (some net) = p.validate l.filled := by
      simp only [Net.validate, hp]
    rw [hvalidate, Page.valid_iff_wellFormed]
    constructor
    · exact fun h => ⟨net, p, rfl, hpage, h⟩
    · rintro ⟨net', p', hnet, hpage', h⟩
      rw [← Option.some.inj hnet, hpage] at hpage'
      exact Option.some.inj hpage' ▸ h

end ContractNet

import ContractNet.Proofs.Net.DataFlow
import ContractNet.Proofs.Validation.Faults

/-!
# Validation of compiled nets

A compiled net has no fault of contents, ids or arcs.  Whether it is valid depends on the contract:
on the initial values that look like the token of control, on the conditions that are blank, and on
the literals.

* `Blueprint.Realizes.countP_unit` counts the tokens of control;
* `Blueprint.Realizes.forall_isGuard_iff` tells when all guards are conditions;
* `Net.validate_ofContract`: which compiled nets are valid.
-/

namespace ContractNet

/-- The labels by which validation tells control from data. -/
def NetOptions.labels (o : NetOptions) : Labels := ⟨o.control, o.unit⟩

/-- Every condition of the contract has something to test. -/
def Contract.Tests (c : Contract) : Prop :=
  ∀ f ∈ c.allFunctions, ∀ d, .conditional d ∈ f.body → d.guard.isBlank = false

/-- The statement is no condition, or one that has something to test. -/
def Statement.tests : Statement → Bool
  | .conditional d => !d.guard.isBlank
  | _ => true

theorem Contract.tests_iff {c : Contract} :
    c.Tests ↔ ∀ f ∈ c.allFunctions, ∀ s ∈ f.body, s.tests = true := by
  refine forall₂_congr fun f _ => ⟨fun h s hs => ?_, fun h d hd => ?_⟩
  · cases s with
    | conditional d => simp [Statement.tests, h d hs]
    | _ => rfl
  · simpa [Statement.tests] using h _ hd

instance (c : Contract) : Decidable c.Tests := decidable_of_iff' _ Contract.tests_iff

namespace NetOptions

theorem orElse_ne_nil {d : Text} (hd : d ≠ []) (t : Text) : orElse t d ≠ [] := by
  unfold orElse
  split
  · exact hd
  · rename_i h
    simpa using h

theorem filled_idStem_ne_nil (o : NetOptions) : o.filled.idStem ≠ [] :=
  orElse_ne_nil (by decide) _

theorem filled_unit_ne_nil (o : NetOptions) : o.filled.unit ≠ [] := orElse_ne_nil (by decide) _

theorem filled_labels (o : NetOptions) : o.labels.filled = o.filled.labels := rfl

end NetOptions

/-- A text in brackets is a guard if it is not blank. -/
theorem Text.isGuard_bracketed_iff (g : Text) :
    Text.IsGuard ("[" ++ g ++ "]") ↔ g.isBlank = false := by
  have hinner : (("[" ++ g ++ "]" : Text).drop 1).dropLast = g := by
    change (g ++ [0x5d]).dropLast = g
    exact List.dropLast_concat
  constructor
  · rintro ⟨-, -, h⟩
    rwa [Text.trim_bracketed, hinner] at h
  · intro h
    refine ⟨?_, ?_, ?_⟩ <;> rw [Text.trim_bracketed]
    · rfl
    · exact List.isSuffixOf_iff_suffix.2 (List.suffix_append _ _)
    · rwa [hinner]

namespace Blueprint.Realizes

variable {o : NetOptions} {c : Contract} {b : Blueprint}

/-! ### Tokens of control -/

theorem countP_vars {u : Text} (hu : u ≠ []) {vs : List StateVariable} {ps : List Place}
    (h : List.Forall₂ StateVariable.HeldBy vs ps) :
    ps.countP (·.marking = some u) = vs.countP (·.initial = u) := by
  induction h with
  | nil => rfl
  | @cons v q vs ps hv _ ih =>
    -- an empty initial value leaves no marking, and `u` is not empty
    have hiff : q.marking = some u ↔ v.initial = u := by
      rw [hv.marking]
      split
      · rename_i he
        simp [he, hu.symm]
      · simp
    simp only [List.countP_cons, ih, hiff]

/-- Only the entry of a strand can hold the token of control. -/
theorem countP_strand {vars : List Place} {marked : Bool} {f : Function} {s : Strand}
    (hs : s.Follows o vars marked f) :
    s.places.countP (·.marking = some o.unit) = if marked then 1 else 0 := by
  have hlinks : (s.links.map (·.after)).countP (·.marking = some o.unit) = 0 := by
    refine List.countP_eq_zero.2 fun q hq => ?_
    obtain ⟨k, hk, rfl⟩ := List.mem_map.1 hq
    obtain ⟨st, -, hshows⟩ := hs.shows_of_mem hk
    simp [hshows.unmarked]
  rw [Strand.places, List.countP_cons, hlinks, hs.marking]
  cases marked <;> simp

theorem countP_strands {vars : List Place} {fs : List (Bool × Function)} {ss : List Strand}
    (h : List.Forall₂ (fun f s => Strand.Follows o vars f.1 f.2 s) fs ss) :
    (ss.flatMap Strand.places).countP (·.marking = some o.unit) = fs.countP (·.1) := by
  induction h with
  | nil => rfl
  | cons hs _ ih => rw [List.flatMap_cons, List.countP_append, countP_strand hs, ih,
      List.countP_cons, Nat.add_comm]

/-- **The tokens of control** are that of the constructor and the initial values that look like
it. -/
theorem countP_unit (hb : b.Realizes o c) (hu : o.unit ≠ []) :
    (b.page o.pageId).places.countP (·.marking = some o.unit) =
      c.stateVariables.countP (·.initial = o.unit) + c.constructor.toList.length := by
  have hmarked : c.markedFunctions.countP (·.1) = c.constructor.toList.length := by
    simp [Contract.markedFunctions, List.countP_map, Function.comp_def]
  rw [page, List.countP_append, countP_vars hu hb.vars, countP_strands hb.strands, hmarked]

/-! ### Guards -/

/-- **Guards are conditions** if every condition of the contract has something to test. -/
theorem forall_isGuard_iff (hb : b.Realizes o c) :
    (∀ t ∈ (b.page o.pageId).transitions, ∀ g, t.guard = some g → g.IsGuard) ↔ c.Tests := by
  have hsteps : c.Tests ↔ ∀ st ∈ c.steps, ∀ d, st = .conditional d → d.guard.isBlank = false := by
    simp only [Contract.Tests, Contract.steps, Function.steps, List.mem_flatMap, List.mem_filter]
    constructor
    · rintro h _ ⟨f, hf, hst, -⟩ d rfl
      exact h f hf d hst
    · intro h f hf d hd
      exact h _ ⟨f, hf, hd, rfl⟩ d rfl
  have hone : ∀ st k, (∃ f, Link.Shows o b.vars f st k) →
      ((∀ g, k.transition.guard = some g → g.IsGuard) ↔
        ∀ d, st = .conditional d → d.guard.isBlank = false) := by
    rintro st k ⟨f, hshows⟩
    have hshown := hshows.transition
    cases st with
    | operation op => simp [hshown.2]
    | conditional d => simpa [hshown.2] using Text.isGuard_bracketed_iff d.guard
    | call _ => cases hshown
    | unknown => cases hshown
  rw [hsteps, page_transitions, List.forall_mem_map]
  exact forall_mem_iff_of_forall₂ hb.links_show hone

/-! ### Ids and arcs -/

theorem faultless_arc (hb : b.Realizes o c) (l : Labels) : (b.page o.pageId).Faultless l .arc :=
  (Page.faultless_arc_iff hb.nodup).2 fun _ ha => hb.joins_of_mem_arcs ha

end Blueprint.Realizes

/-- Ids are faultless: none is empty, since their stem is not, and none is used twice. -/
theorem Net.faultless_identity {o : NetOptions} {c : Contract} {n : Net} {p : Page}
    (h : Net.ofContract o (some c) = .ok n) (hp : n.page = some p) (l : Labels) :
    p.Faultless l .identity := by
  rw [Net.eq_of_ofContract h] at hp
  obtain rfl : (Draft.ofContract o.filled c).page = p := Option.some.inj hp
  refine Page.faultless_identity_iff.2 ⟨fun hmem => ?_, (Draft.numbered_ofContract _ _).nodup⟩
  exact Draft.ne_nil_of_mem_ids o.filled_idStem_ne_nil c hmem rfl

/-! ### Validity -/

/-- **Validation of a compiled net** finds no fault of contents, ids or arcs.  The net is valid if
and only if at most one token looks like that of control, every condition has something to test,
and all literals fit in 256 bits. -/
theorem Net.validate_ofContract {o : NetOptions} {c : Contract} {n : Net}
    (h : Net.ofContract o (some c) = .ok n) :
    ∃ p : Page, n.page = some p ∧
      (∀ f ∈ (Net.validate o.labels (some n)).errors,
        f.category ≠ .contents ∧ f.category ≠ .identity ∧ f.category ≠ .arc) ∧
      ((Net.validate o.labels (some n)).valid = true ↔
        c.stateVariables.countP (·.initial = o.filled.unit) + c.constructor.toList.length ≤ 1 ∧
        c.Tests ∧ ∀ t ∈ p.labels, Expr.LiteralsFit t) := by
  obtain ⟨b, hb, hpage⟩ := Net.exists_blueprint h
  let p := b.page o.filled.pageId
  have hidentity : p.Faultless o.filled.labels .identity := Net.faultless_identity h hpage _
  have harc : p.Faultless o.filled.labels .arc := hb.faultless_arc _
  have hmarking : p.Faultless o.filled.labels .marking ↔
      c.stateVariables.countP (·.initial = o.filled.unit) + c.constructor.toList.length ≤ 1 := by
    rw [← hb.countP_unit o.filled_unit_ne_nil]
    exact Page.faultless_marking_iff
  have hguard : p.Faultless o.filled.labels .guard ↔ c.Tests :=
    Page.faultless_guard_iff.trans hb.forall_isGuard_iff
  have hvalidate : Net.validate o.labels (some n) = p.validate o.filled.labels := by
    simp only [Net.validate, Option.bind_some, hpage, NetOptions.filled_labels, p]
  rw [hvalidate]
  refine ⟨p, hpage, fun f hf => ?_, ?_⟩
  · exact ⟨Page.category_ne_of_faultless Page.faultless_contents hf,
      Page.category_ne_of_faultless hidentity hf, Page.category_ne_of_faultless harc hf⟩
  · rw [Page.valid_iff, hmarking, hguard, Page.faultless_literal_iff]
    exact ⟨fun h => h.2.2, fun h => ⟨hidentity, harc, h⟩⟩

/-- A contract with a constructor, a guard and an assignment. -/
def Contract.escrow (initial condition : Text) : Contract where
  name := "Escrow"
  stateVariables := [
    { name := "held", type := "uint256", initial := initial, visibility := "private" }]
  constructor := some { name := "constructor", visibility := "public" }
  functions := [{
    name := "deposit"
    visibility := "public"
    body := [
      .conditional { kind := "require", condition := condition, startLine := 7 },
      .operation { target := "held", expression := "held + 0x10", operator := "=" }] }]

/-- Validation of the compiled contract finds no fault of contents, ids or arcs and ends as told. -/
def Contract.ValidatesTo (c : Contract) (valid : Bool) : Prop :=
  ∃ n, Net.ofContract {} (some c) = .ok n ∧
    (∀ f ∈ (Net.validate ({} : NetOptions).labels (some n)).errors,
      f.category ≠ .contents ∧ f.category ≠ .identity ∧ f.category ≠ .arc) ∧
    (Net.validate ({} : NetOptions).labels (some n)).valid = valid

/-- The least literal that does not fit in 256 bits. -/
def escrowOverflow : Text := "0x1" ++ List.replicate 64 '0'.toUInt8

/-- A valid net, and nets that are not: for the token of control, for a guard with nothing to test
and for a literal. -/
theorem Net.validate_ofContract_escrow :
    (Contract.escrow "0x0A" "held < 1_000, full").ValidatesTo true ∧
      (Contract.escrow "1`()" "held < 1_000, full").ValidatesTo false ∧
      (Contract.escrow "0x0A" " , full").ValidatesTo false ∧
      (Contract.escrow escrowOverflow "held < 1_000, full").ValidatesTo false := by
  have hvalidates : ∀ initial condition valid,
      ((Contract.escrow initial condition).stateVariables.countP
          (·.initial = ({} : NetOptions).filled.unit) + 1 ≤ 1 ∧
        (Contract.escrow initial condition).Tests ∧
        (∀ t ∈ (Draft.ofContract ({} : NetOptions).filled
          (Contract.escrow initial condition)).page.labels, Expr.LiteralsFit t) ↔ valid = true) →
      (Contract.escrow initial condition).ValidatesTo valid := by
    intro initial condition valid hcondition
    have hnet : Net.ofContract {} (some (Contract.escrow initial condition)) = .ok _ := rfl
    obtain ⟨p, hp, herrors, hvalid⟩ := Net.validate_ofContract hnet
    obtain rfl := Option.some.inj hp
    exact ⟨_, hnet, herrors, Bool.eq_iff_iff.2 (hvalid.trans hcondition)⟩
  exact ⟨hvalidates _ _ _ (by decide +kernel), hvalidates _ _ _ (by decide +kernel),
    hvalidates _ _ _ (by decide +kernel), hvalidates _ _ _ (by decide +kernel)⟩

end ContractNet

import ContractNet.Compilation.Basic
import ContractNet.Proofs.Contract.Build
import ContractNet.Proofs.Net.Wiring

/-!
# How compilations end

* `unknown_notMem_of_build`: the functions of a contract that was built from a tree hold only
  assignments, calls and conditions, so the contract has a net with a page (`exists_net_of_build`);
* `Compilation.IsOf o c r` says that `r` is what the contract `c` compiles to;
* `compile_ending` tells the ending of a compilation from what the tree builds to, the patience of
  the caller and the report.  Two of the errors never arise: a built contract has a net, and this
  net has a page to write.
-/

namespace ContractNet

open Syntax

/-! ### Built contracts have nets -/

theorem readCall?_ne_unknown (line : Int) (e : Tree) : readCall? line e ≠ some .unknown := by
  rw [readCall?]
  split
  · dsimp only
    split_ifs <;> simp
  · simp

/-- What is read at a node is an assignment, a call or a condition, if it is anything. -/
theorem readStatement_ne_unknown {t : Tree} {s : Option Statement} (h : readStatement t = .ok s) :
    s ≠ some .unknown := by
  rw [readStatement] at h
  split at h
  · simp only [readIf, map_eq_ok_iff, bind_eq_ok_iff, pure_eq_ok_iff] at h
    obtain ⟨_, ⟨cond, -, rfl⟩, rfl⟩ := h
    simp
  · simp only [readExpression, bind_eq_ok_iff] at h
    obtain ⟨e, -, h⟩ := h
    split at h
    · obtain rfl := pure_eq_ok_iff.1 h
      simp
    · obtain rfl := pure_eq_ok_iff.1 h
      exact readCall?_ne_unknown _ e

theorem Function.DefinedBy.unknown_notMem {t : Tree} {f : Function} (h : f.DefinedBy t) :
    Statement.unknown ∉ f.body := by
  obtain ⟨nodes, found, -, hread, hbody⟩ := h.body
  rw [hbody, List.mem_filterMap]
  rintro ⟨s, hs, hid⟩
  obtain ⟨x, -, hx⟩ := exists_left_of_mem hread hs
  exact readStatement_ne_unknown hx hid

theorem Contract.DefinedBy.unknown_notMem {t : Tree} {c : Contract} (h : c.DefinedBy t) :
    ∀ f ∈ c.allFunctions, Statement.unknown ∉ f.body := by
  intro f hf
  obtain ⟨-, d, -, hd⟩ := h.exists_definition hf
  exact hd.unknown_notMem

/-- **A tree builds to assignments, calls and conditions only.** -/
theorem unknown_notMem_of_build {tree : Option Tree} {c : Contract}
    (h : Contract.build tree = .ok c) : ∀ f ∈ c.allFunctions, Statement.unknown ∉ f.body := by
  cases tree with
  | none => cases h
  | some root =>
    obtain ⟨-, t, -, ht⟩ := exists_contractAt_of_build h
    exact ht.unknown_notMem

/-- A contract that was built has a net, and the net has a page to write. -/
theorem exists_net_of_build {tree : Option Tree} {c : Contract} (h : Contract.build tree = .ok c)
    (o : NetOptions) : ∃ n doc, Net.ofContract o (some c) = .ok n ∧ n.page.isSome = true ∧
      n.toPnml? = some doc := by
  refine ⟨(Draft.ofContract o.filled c).toNet o.filled.netId o.filled.netType, _, ?_, rfl, rfl⟩
  exact Net.ofContract_eq_ok_iff.2 ⟨unknown_notMem_of_build h, rfl⟩

/-! ### Endings -/

/-- The compilation is what the contract `c` compiles to: its net, the document of this net with
its content id, and the report if one is asked for. -/
structure Compilation.IsOf (o : CompilationOptions) (c : Contract) (r : Compilation) : Prop where
  contract : r.contract = c
  net : Net.ofContract o.net (some c) = .ok r.net
  document : r.net.toPnml? = some r.document
  cid : r.cid = contentId r.document
  report : r.report =
    if o.validate then some (Net.validate ⟨o.net.control, o.net.unit⟩ (some r.net)) else none

/-- The caller calls a compilation off before it is through: fewer than two checks pass. -/
def CalledOff (patience : Option Nat) : Prop := ∃ k < 2, patience = some k

theorem calledOff_iff {patience : Option Nat} :
    CalledOff patience ↔ patience.any (· < 2) = true := by
  cases patience <;> simp [CalledOff]

/-- Once the net is written, all is made; the error is that of the report, if it tells one. -/
theorem finish_ending {o : CompilationOptions} {c : Contract} {n : Net} {doc : Text}
    (hnet : Net.ofContract o.net (some c) = .ok n) (hdoc : n.toPnml? = some doc) (elapsed : Nat)
    (records : List LogRecord) : ∃ r : Compilation, r.IsOf o c ∧
      (finish o elapsed records c n).ending.result? = some r ∧
      (finish o elapsed records c n).ending.failure? =
        (r.report.filter fun v => !v.valid).map fun v => .invalid v.errors.length := by
  have hparts : ∀ report, report =
      (if o.validate then some (Net.validate ⟨o.net.control, o.net.unit⟩ (some n)) else none) →
      Compilation.IsOf o c ⟨c, n, doc, contentId doc, report⟩ := fun report hreport =>
    ⟨rfl, hnet, hdoc, rfl, hreport⟩
  by_cases hv : o.validate = true
  · by_cases hvalid : (Net.validate ⟨o.net.control, o.net.unit⟩ (some n)).valid = true
    · refine ⟨_, hparts _ rfl, ?_, ?_⟩ <;>
        simp [finish, hdoc, hv, hvalid, CompilationEnd.result?, CompilationEnd.failure?]
    · refine ⟨_, hparts _ rfl, ?_, ?_⟩ <;>
        simp [finish, hdoc, hv, hvalid, CompilationEnd.result?, CompilationEnd.failure?]
  · refine ⟨_, hparts _ rfl, ?_, ?_⟩ <;>
      simp [finish, hdoc, hv, CompilationEnd.result?, CompilationEnd.failure?]

/-- A built contract is compiled, unless the caller calls it off. -/
theorem compile_ending_of_build {tree : Option Tree} {c : Contract}
    (h : Contract.build tree = .ok c) (o : CompilationOptions) (patience : Option Nat)
    (elapsed : Nat) :
    (CalledOff patience → (compile o patience elapsed tree).ending = .failed .canceled) ∧
    (¬CalledOff patience → ∃ r : Compilation, r.IsOf o c ∧
      (compile o patience elapsed tree).ending.result? = some r ∧
      (compile o patience elapsed tree).ending.failure? =
        (r.report.filter fun v => !v.valid).map fun v => .invalid v.errors.length) := by
  obtain ⟨n, doc, hnet, -, hdoc⟩ := exists_net_of_build h o.net
  rw [calledOff_iff, compile, h]
  simp only [hnet]
  by_cases hfirst : patience.any (· < 1) = true
  · have hsecond : patience.any (· < 2) = true := by
      cases patience with
      | none => cases hfirst
      | some k => simp_all
    rw [if_pos hfirst]
    exact ⟨fun _ => rfl, fun hnot => absurd hsecond hnot⟩
  · rw [if_neg hfirst]
    by_cases hsecond : patience.any (· < 2) = true
    · rw [if_pos hsecond]
      exact ⟨fun _ => rfl, fun hnot => absurd hsecond hnot⟩
    · rw [if_neg hsecond]
      exact ⟨fun hoff => absurd hoff hsecond, fun _ => finish_ending hnet hdoc elapsed _⟩

/-- **How a compilation ends.**  What cannot be built ends with the error of the build, however
patient the caller is.  What can be built consists of assignments, calls and conditions; it ends
with a cancellation if the caller lets fewer than two checks pass.  Otherwise all of the contract's
compilation is made, and the only error is that of a report which finds the net invalid.  No tree
leads to a contract without a net or to a net without a page. -/
theorem compile_ending (o : CompilationOptions) (patience : Option Nat) (elapsed : Nat)
    (tree : Option Tree) :
    (∀ e, Contract.build tree = .error e →
      (compile o patience elapsed tree).ending = .failed (.build e)) ∧
    (∀ c, Contract.build tree = .ok c →
      (∀ f ∈ c.allFunctions, Statement.unknown ∉ f.body) ∧
      (∃ n, Net.ofContract o.net (some c) = .ok n ∧ n.page.isSome = true) ∧
      (CalledOff patience → (compile o patience elapsed tree).ending = .failed .canceled) ∧
      (¬CalledOff patience → ∃ r : Compilation, r.IsOf o c ∧
        (compile o patience elapsed tree).ending.result? = some r ∧
        (compile o patience elapsed tree).ending.failure? =
          (r.report.filter fun v => !v.valid).map fun v => .invalid v.errors.length)) ∧
    (∀ name e, (compile o patience elapsed tree).ending.failure? ≠ some (.compile name e)) ∧
    ∀ name, (compile o patience elapsed tree).ending.failure? ≠ some (.serialize name) := by
  have hunbuilt : ∀ e, Contract.build tree = .error e →
      (compile o patience elapsed tree).ending = .failed (.build e) := by
    intro e he
    rw [compile, he]
  -- the errors of all endings, from which the two that never arise are missing
  have hfailure : ∀ e, (compile o patience elapsed tree).ending.failure? = some e →
      (∃ b, e = .build b) ∨ e = .canceled ∨ ∃ k, e = .invalid k := by
    intro e he
    cases hb : Contract.build tree with
    | error b =>
      rw [hunbuilt b hb] at he
      exact .inl ⟨b, (Option.some.inj he).symm⟩
    | ok c =>
      obtain ⟨hoff, hmade⟩ := compile_ending_of_build hb o patience elapsed
      by_cases hpatience : CalledOff patience
      · rw [hoff hpatience] at he
        exact .inr (.inl (Option.some.inj he).symm)
      · obtain ⟨r, -, -, hf⟩ := hmade hpatience
        rw [hf, Option.map_eq_some_iff] at he
        obtain ⟨v, -, rfl⟩ := he
        exact .inr (.inr ⟨_, rfl⟩)
  refine ⟨hunbuilt, fun c hc => ?_, fun name e he => ?_, fun name he => ?_⟩
  · obtain ⟨n, -, hnet, hpage, -⟩ := exists_net_of_build hc o.net
    exact ⟨unknown_notMem_of_build hc, ⟨n, hnet, hpage⟩, compile_ending_of_build hc ..⟩
  · simpa using hfailure _ he
  · simpa using hfailure _ he

theorem compile_ending_wallet :
    (compile ⟨{}, true⟩ (some 0) 0 none).ending =
      .failed (.build ⟨"<nil>", "unknown location", .noTree⟩) ∧
    (compile ⟨{}, true⟩ (some 1) 0 (some walletTree)).ending = .failed .canceled ∧
    ∃ c r, Contract.build (some walletTree) = .ok c ∧ r.IsOf ⟨{}, true⟩ c ∧
      (compile ⟨{}, true⟩ (some 2) 0 (some walletTree)).ending.result? = some r := by
  obtain ⟨c, hc⟩ : ∃ c, Contract.build (some walletTree) = .ok c := ⟨_, rfl⟩
  obtain ⟨-, -, hoff, -⟩ := (compile_ending ⟨{}, true⟩ (some 1) 0 (some walletTree)).2.1 c hc
  obtain ⟨-, -, -, hmade⟩ := (compile_ending ⟨{}, true⟩ (some 2) 0 (some walletTree)).2.1 c hc
  obtain ⟨r, hr, hresult, -⟩ := hmade (by simp [CalledOff])
  exact ⟨(compile_ending ⟨{}, true⟩ (some 0) 0 none).1 _ rfl, hoff ⟨1, by decide, rfl⟩, c, r, hc,
    hr, hresult⟩

end ContractNet

import ContractNet.Net.OfContract

/-!
# What a net shows of a contract

The net of a contract shows the names and initial values of its variables, the names of its
functions, and of their bodies the assignments and conditions.  Calls, types, visibilities,
parameters, the variables that an assignment reads and the last lines of branches leave no trace.

* `Contract.essence` is the contract without what leaves no trace;
* `Draft.ofContract_essence`: a contract and its essence are drafted alike, id by id;
* `Contract.unhandled?_essence`: and they are refused for the same function;
* `Net.ofContract_of_essence_eq`: contracts with the same essence have the same net.
-/

namespace ContractNet

/-! ### Essences -/

/-- The variable without its type and visibility. -/
def StateVariable.essence (v : StateVariable) : StateVariable where
  name := v.name
  type := []
  initial := v.initial
  visibility := []

/-- The assignment without the variables that it reads. -/
def Operation.essence (op : Operation) : Operation := { op with sources := [] }

/-- The condition without its last line. -/
def Conditional.essence (c : Conditional) : Conditional := { c with endLine := 0 }

/-- What the net can show of a statement; of a call it shows nothing. -/
def Statement.essence? : Statement → Option Statement
  | operation op => some (.operation op.essence)
  | call _ => none
  | conditional c => some (.conditional c.essence)
  | unknown => some .unknown

/-- The name of the function and what the net can show of its body. -/
def Function.essence (f : Function) : Function where
  name := f.name
  visibility := []
  body := f.body.filterMap Statement.essence?

/-- What the net can show of a contract. -/
def Contract.essence (c : Contract) : Contract where
  name := []
  stateVariables := c.stateVariables.map StateVariable.essence
  constructor := c.constructor.map Function.essence
  functions := c.functions.map Function.essence

/-! ### Drafting -/

/-- The step without the variables that its assignment reads. -/
def ControlStep.essence (s : ControlStep) : ControlStep :=
  { s with operation := s.operation.map Operation.essence }

/-- The essence of a body takes the essences of its steps. -/
theorem filterMap_essence (f : Text) (body : List Statement) :
    (body.filterMap Statement.essence?).filterMap (ControlStep.of? f) =
      (body.filterMap (ControlStep.of? f)).map ControlStep.essence := by
  rw [List.filterMap_filterMap, List.map_filterMap]
  congr 1
  funext st
  cases st <;> rfl

namespace Draft

variable (d : Draft) (o : NetOptions) (vars : List Place)

/-- A step of control leaves the same elements, with the same ids, as its essence. -/
theorem addStep_essence (current : Text) (s : ControlStep) :
    d.addStep o vars current s.essence = d.addStep o vars current s := by
  obtain ⟨name, guard, after, operation⟩ := s
  cases operation <;> rfl

theorem addSteps_essence (current : Text) (ss : List ControlStep) :
    d.addSteps o vars current (ss.map ControlStep.essence) = d.addSteps o vars current ss := by
  induction ss generalizing d current with
  | nil => rfl
  | cons s ss ih =>
    rw [List.map_cons, addSteps, addSteps, addStep_essence]
    exact ih _ _

theorem addFunction_essence (marked : Bool) (f : Function) :
    d.addFunction o vars marked f.essence = d.addFunction o vars marked f := by
  unfold addFunction
  change addSteps _ o vars _ ((f.body.filterMap Statement.essence?).filterMap _) = _
  rw [filterMap_essence, addSteps_essence]
  rfl

theorem addVariables_essence (vs : List StateVariable) :
    d.addVariables (vs.map StateVariable.essence) = d.addVariables vs := by
  rw [addVariables, List.foldl_map]
  rfl

/-- **A contract and its essence are drafted alike.** -/
theorem ofContract_essence (c : Contract) : ofContract o c.essence = ofContract o c := by
  have hconstructor : c.essence.constructor.toList =
      c.constructor.toList.map Function.essence := by
    cases hc : c.constructor <;> simp [Contract.essence, hc]
  have hvars : ∀ d : Draft, d.addVariables c.essence.stateVariables =
      d.addVariables c.stateVariables := fun d => d.addVariables_essence _
  simp only [ofContract, hvars, hconstructor]
  simp only [Contract.essence, List.foldl_map, addFunction_essence]

end Draft

/-! ### Refusal -/

theorem Statement.essence?_eq_unknown {st : Statement} :
    st.essence? = some .unknown ↔ st = .unknown := by
  cases st <;> simp [Statement.essence?]

/-- A function has a statement of unknown kind if and only if its essence has one. -/
theorem Function.isSome_unknownAt?_essence (f : Function) :
    f.essence.unknownAt?.isSome = f.unknownAt?.isSome := by
  have hmem : .unknown ∈ f.essence.body ↔ .unknown ∈ f.body := by
    simp [Function.essence, List.mem_filterMap, Statement.essence?_eq_unknown]
  rw [Function.unknownAt?, Function.unknownAt?, List.findIdx?_isSome, List.findIdx?_isSome,
    Bool.eq_iff_iff]
  simpa using hmem

/-- The error for a function with a statement of unknown kind. -/
def Function.refusal? (f : Function) : Option CompileError :=
  f.unknownAt?.map (.unhandled f.name)

/-- The first function that is refused is the same; its statement may stand at another place. -/
theorem findSome?_refusal?_essence (fs : List Function) :
    (fs.findSome? Function.refusal? = none ∧
      (fs.map Function.essence).findSome? Function.refusal? = none) ∨
    ∃ f i j, fs.findSome? Function.refusal? = some (.unhandled f i) ∧
      (fs.map Function.essence).findSome? Function.refusal? = some (.unhandled f j) := by
  induction fs with
  | nil => exact .inl ⟨rfl, rfl⟩
  | cons f fs ih =>
    have hsome := f.isSome_unknownAt?_essence
    rw [List.map_cons, List.findSome?_cons, List.findSome?_cons]
    cases hf : f.unknownAt? with
    | none =>
      have hessence : f.essence.unknownAt? = none := by simpa [hf] using hsome
      rw [Function.refusal?, Function.refusal?, hf, hessence]
      exact ih
    | some i =>
      obtain ⟨j, hj⟩ : ∃ j, f.essence.unknownAt? = some j := by
        simpa [hf, Option.isSome_iff_exists] using hsome
      rw [Function.refusal?, Function.refusal?, hf, hj]
      exact .inr ⟨f.name, i, j, rfl, rfl⟩

/-- **A contract and its essence are refused** for the same function, or not at all. -/
theorem Contract.unhandled?_essence (c : Contract) :
    (c.unhandled? = none ∧ c.essence.unhandled? = none) ∨
      ∃ f i j, c.unhandled? = some (.unhandled f i) ∧
        c.essence.unhandled? = some (.unhandled f j) := by
  have hall : c.essence.allFunctions = c.allFunctions.map Function.essence := by
    cases hc : c.constructor <;> simp [Contract.allFunctions, Contract.essence, hc]
  have hrefusals := findSome?_refusal?_essence c.allFunctions
  rwa [← hall] at hrefusals

/-! ### Nets -/

/-- **Contracts with the same essence have the same net,** id by id and text by text, or are both
refused for the same function. -/
theorem Net.ofContract_of_essence_eq {c c' : Contract} (h : c.essence = c'.essence)
    (o : NetOptions) :
    (∃ n, Net.ofContract o (some c) = .ok n ∧ Net.ofContract o (some c') = .ok n) ∨
      ∃ f i j, Net.ofContract o (some c) = .error (.unhandled f i) ∧
        Net.ofContract o (some c') = .error (.unhandled f j) := by
  have hdraft : Draft.ofContract o.filled c' = Draft.ofContract o.filled c := by
    rw [← Draft.ofContract_essence, ← h, Draft.ofContract_essence]
  rcases c.unhandled?_essence with ⟨hc, he⟩ | ⟨f, i, k, hc, he⟩
  · rcases c'.unhandled?_essence with ⟨hc', -⟩ | ⟨_, _, _, -, he'⟩
    · refine .inl ⟨_, by rw [Net.ofContract, hc], ?_⟩
      rw [Net.ofContract, hc', hdraft]
    · rw [← h, he] at he'
      cases he'
  · rcases c'.unhandled?_essence with ⟨-, he'⟩ | ⟨f', j, k', hc', he'⟩
    · rw [← h, he] at he'
      cases he'
    · obtain ⟨rfl, -⟩ : f = f' ∧ k = k' := by
        rw [← h, he] at he'
        simpa using he'
      exact .inr ⟨f, i, j, by rw [Net.ofContract, hc], by rw [Net.ofContract, hc']⟩

/-- A contract with a guard and an assignment. -/
def Contract.tally : Contract where
  name := "Tally"
  stateVariables := [{ name := "votes", type := "uint8", initial := "0", visibility := "private" }]
  functions := [{
    name := "vote"
    visibility := "internal"
    body := [
      .conditional { kind := "if", condition := "open", startLine := 4 },
      .operation { target := "votes", expression := "votes + 1", operator := "=" }] }]

/-- The same contract with details that no net shows. -/
def Contract.tallyDetailed : Contract where
  name := "TallyDetailed"
  stateVariables := [
    { name := "votes", type := "uint256", initial := "0", index := "address", visibility := "public" }]
  functions := [{
    name := "vote"
    visibility := "public"
    parameters := [{ type := "address", name := "voter" }]
    returns := [{ type := "bool" }]
    body := [
      .call { name := "log", arguments := some ["voter"], line := 3 },
      .conditional { kind := "if", condition := "open", startLine := 4, endLine := 6 },
      .call { name := "check", arguments := none, line := 7 },
      .operation
        { target := "votes", expression := "votes + 1", operator := "=", sources := ["votes"] }] }]

theorem Net.ofContract_of_essence_eq_tally :
    Contract.tally.essence = Contract.tallyDetailed.essence ∧
      ∃ n, Net.ofContract {} (some Contract.tally) = .ok n ∧
        Net.ofContract {} (some Contract.tallyDetailed) = .ok n := by
  have hessence : Contract.tally.essence = Contract.tallyDetailed.essence := by decide
  refine ⟨hessence, ?_⟩
  rcases Net.ofContract_of_essence_eq hessence {} with h | ⟨f, i, j, herror, -⟩
  · exact h
  · have hok : Net.ofContract {} (some Contract.tally) = .ok _ := rfl
    rw [hok] at herror
    cases herror

end ContractNet

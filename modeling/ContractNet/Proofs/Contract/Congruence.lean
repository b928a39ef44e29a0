import ContractNet.Proofs.Contract.Build
import ContractNet.Proofs.Syntax.Replacement

/-!
# Trees that build alike

What the walks list decides what is built: two trees whose contracts are read alike build alike
(`build_congr`), two definitions whose members are read alike are read alike (`readContract_congr`),
and so are two blocks whose statements are (`readBody_congr`).  Errors show the rule and the lines of
a node only, so nodes with the same shell report the same (`atNode_congr`).
-/

namespace ContractNet

open Syntax

variable {α : Type} {R : Tree → Tree → Prop} {t t' : Tree}

/-- Lists are related item by item if their middle parts are. -/
theorem forall₂_middle (hR : ∀ t, R t t) {ts ts' : List Tree} (h : List.Forall₂ R ts ts')
    (before after : List Tree) : List.Forall₂ R (before ++ ts ++ after) (before ++ ts' ++ after) :=
  List.rel_append (List.rel_append (List.forall₂_same.2 fun t _ => hR t) h)
    (List.forall₂_same.2 fun t _ => hR t)

theorem atNode_congr (h : t.SameShell t') (ht : t.isToken = false) (f : BuildFault) :
    f.atNode t' = f.atNode t := by
  have ht' : t'.isToken = false := h.isToken.trans ht
  simp only [BuildFault.atNode, ht, ht', h.name, h.location, Bool.false_eq_true, if_false]

theorem isToken_of_name {rule : Text} (h : t.name = rule) (hrule : rule.isEmpty = false) :
    t.isToken = false := by rw [Tree.isToken, h, hrule]

theorem isMember_of_definition (ht : t.name = Rule.function ∨ t.name = Rule.constructor) :
    isMember t = true := isMember_iff.2 (.inr ht)

theorem isToken_of_isMember (ht : isMember t = true) : t.isToken = false := by
  rcases isMember_iff.1 ht with h | h | h <;> exact isToken_of_name h rfl

/-- What is read by means of a child is the same if the children are read alike. -/
theorem require_bind_congr {f : BuildFault} {o o' : Option Tree} {g g' : Tree → Except BuildError α}
    (hfault : f.atNode t' = f.atNode t) (ho : Option.Rel R o o')
    (hg : ∀ k k', R k k' → g' k' = g k) : require t' f o' >>= g' = require t f o >>= g := by
  cases ho with
  | none => exact congrArg Except.error hfault
  | some hk => exact hg _ _ hk

/-- What is read from the text of a child is the same if the texts are. -/
theorem require_text_congr {f : BuildFault} {o o' : Option Tree} {g : Text → Except BuildError α}
    (hfault : f.atNode t' = f.atNode t) (ho : o'.map Tree.text = o.map Tree.text) :
    (require t' f o' >>= fun k => g k.text) = require t f o >>= fun k => g k.text := by
  have hrel : Option.Rel (fun k k' : Tree => k'.text = k.text) o o' := by
    cases o <;> cases o' <;> simp_all
  exact require_bind_congr hfault hrel fun k k' hk => congrArg g hk

/-- A branch is read from its condition and its lines. -/
theorem readIf_congr (h : t.SameShell t') (ht : t.isToken = false)
    (hcondition : (t'.child? Rule.expression).map Tree.text =
      (t.child? Rule.expression).map Tree.text) : readIf t' = readIf t := by
  simp only [readIf, h.startLine, h.endLine]
  exact require_text_congr (g := fun condition => pure (Statement.conditional {
    kind := Conditional.ifKind
    condition := condition
    startLine := t.startLine
    endLine := t.endLine })) (atNode_congr h ht _) hcondition

/-- The text of a guard is read from the texts of its arguments. -/
theorem guardText_congr {args args' : Tree} {list list' : Option Tree}
    (hargs : args'.text = args.text) (hlist : list'.map Tree.text = list.map Tree.text) :
    guardText args' list' = guardText args list := by
  cases list <;> cases list' <;> simp_all [guardText]

theorem readBody_congr {b b' : Tree} (hb : b.name = Rule.block) (hb' : b'.name = Rule.block)
    (h : List.Forall₂ (fun x x' => readStatement x' = readStatement x) (statements b)
      (statements b')) : readBody (some b') = readBody (some b) := by
  simp only [readBody, statementsAll_eq hb, statementsAll_eq hb', mapM_eq_of_forall₂ h]

theorem readContract_congr (h : t.SameShell t') (ht : t.name = Rule.contractDefinition)
    (hident : (t'.child? Rule.identifier).map Tree.text = (t.child? Rule.identifier).map Tree.text)
    (hmembers : List.Forall₂ (fun x x' => readMember x' = readMember x) (members t) (members t')) :
    readContract t' = readContract t := by
  have ht' : t'.name = Rule.contractDefinition := h.name.trans ht
  rw [readContract, readContract, membersAll_eq ht, membersAll_eq ht', mapM_eq_of_forall₂ hmembers]
  exact require_text_congr (g := fun name => do
    let ms ← (members t).mapM readMember
    pure (Contract.ofMembers name ms)) (atNode_congr h (isToken_of_name ht rfl) _) hident

/-- **Trees whose contracts are read alike build alike.** -/
theorem build_congr (h : t.SameShell t')
    (hcontracts : List.Forall₂ (fun c c' => c'.location = c.location ∧
      readContract c' = readContract c) (contracts t) (contracts t')) :
    Contract.build (some t') = Contract.build (some t) := by
  rw [Contract.build, Contract.build]
  generalize contracts t = cs, contracts t' = cs' at hcontracts
  cases hcontracts with
  | nil => rw [h.name, h.location]
  | cons hc hcs =>
    cases hcs with
    | nil => exact hc.2
    | cons hsecond _ => simp only [hsecond.1]

end ContractNet

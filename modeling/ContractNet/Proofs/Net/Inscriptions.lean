import ContractNet.Proofs.Expr.FreshName
import ContractNet.Proofs.Expr.Substitution
import ContractNet.Proofs.Net.DataFlow

/-!
# Inscriptions of data arcs

An assignment takes the old value of its variable through one arc and gives the new value back
through another.  The inscription of the first is the name of the old value, that of the second
tells the new value in terms of it.

* `Operation.CaptureFree` says that the two inscriptions mean what the assignment means: the name
  is not used for anything else, and it stands exactly where the variable stood;
* `Net.ofContract_captureFree`: the data arcs of a compiled net are inscribed so.
-/

namespace ContractNet

/-- The operators that an assignment can apply to the old value. -/
def Expr.binaryOperators : List Text :=
  ["+", "-", "*", "/", "%", "|", "&", "^", "<<", ">>", ">>>"]

/-- The name `taken` for the old value and the text `given` for the new one express the assignment,
and the name captures nothing. -/
structure Operation.CaptureFree (op : Operation) (taken given : Text) : Prop where
  /-- No identifier is spelled like the old value, not even a member. -/
  fresh : ∀ t ∈ Expr.tokenize op.expression, t.kind = .ident → t.literal ≠ taken
  /-- The new value is the expression with the variable renamed, which can be undone. -/
  value : ∃ r : Text,
    (op.operator = ("=" : Text) → given = r) ∧
    (∀ binary ∈ Expr.binaryOperators, op.operator = binary ++ "=" →
      given = taken ++ " " ++ binary ++ " (" ++ r ++ ")") ∧
    Expr.Renames op.target taken (Expr.tokenize op.expression) (Expr.tokenize r) ∧
    Expr.substitute r taken op.target = op.expression

/-! ### Assignments -/

theorem Expr.compoundOperator_append : ∀ binary ∈ Expr.binaryOperators,
    Expr.compoundOperator (binary ++ "=") = binary ∧ binary.isEmpty = false := by
  decide

theorem Expr.ne_freshName {e base : Text} {t : Token} (ht : t ∈ tokenize e)
    (hkind : t.kind = .ident) : t.literal ≠ freshName e base := by
  intro he
  refine freshName_notMem e base (he ▸ List.mem_map_of_mem ?_)
  exact List.mem_filter.2 ⟨ht, by simpa using hkind⟩

/-- **Assignments are expressed without capture** if the name for the old value is made from an
identifier. -/
theorem Operation.captureFree (op : Operation) {bound : Text} (hbound : Expr.IsIdentifier bound)
    (hapart : Expr.NamesApart op.expression) :
    op.CaptureFree (op.boundVariable bound) (op.newValue bound) := by
  obtain ⟨p, hp, rfl⟩ := hbound.exists_piece
  obtain ⟨q, hq, hname⟩ := Expr.exists_piece_freshName hp op.expression
  have hfresh : q.bytes ∉ Expr.usedNames op.expression := hname ▸ Expr.freshName_notMem _ _
  have hbytes : op.boundVariable p.bytes = q.bytes := hname.symm
  refine ⟨fun t ht hkind => Expr.ne_freshName ht hkind,
    Expr.substitute op.expression op.target q.bytes, ?_, ?_, ?_, ?_⟩
  · intro hop
    have hplain : Expr.compoundOperator op.operator = [] := by rw [hop]; decide
    simp [newValue, hplain, hbytes]
  · intro binary hbinary hop
    obtain ⟨hcompound, hempty⟩ := Expr.compoundOperator_append binary hbinary
    simp [newValue, hop, hcompound, hempty, hbytes]
  · rw [hbytes]
    exact Expr.renames_substitute hapart hq op.target
  · rw [hbytes]
    exact Expr.substitute_substitute hapart hq hfresh op.target

/-! ### Arcs -/

namespace Blueprint.Realizes

variable {o : NetOptions} {c : Contract} {b : Blueprint}

/-- The arcs between the transition of an assignment and the place of its variable are its data
arcs. -/
theorem filter_touches_var (hb : b.Realizes o c) {f : Text} {op : Operation} {k : Link}
    (hk : k ∈ b.links) (hshows : k.Shows o b.vars f (.operation op)) {q : Place} (hq : q ∈ b.vars)
    (hlast : Draft.lastNamed? b.vars op.target = some q.id) :
    (b.page o.pageId).arcs.filter (fun a => a.touches q.id && a.touches k.transition.id) =
      k.data := by
  obtain ⟨s, hs, hks⟩ := List.mem_flatMap.1 hk
  obtain ⟨f', -, hf'⟩ := hb.follows_of_mem hs
  have hne : ∀ q' ∈ s.places, q'.id ≠ q.id := fun q' hq' => hb.place_ne_of_mem_vars hq s hs q' hq'
  have ht : k.transition.id ≠ q.id := by
    have hmem : k.transition ∈ (b.page o.pageId).transitions :=
      transition_mem hs (List.mem_map_of_mem hks)
    exact (hb.place_ne_transition (List.mem_append_left _ hq) hmem).symm
  have henter : k.enter.touches q.id = false := by
    obtain ⟨q', hq', he⟩ := hf'.before_mem hks
    rw [Bool.eq_false_iff, ne_eq, hshows.enter_joins.touches_iff, he]
    exact not_or_intro (hne q' hq') ht
  have hleave : k.leave.touches q.id = false := by
    rw [Bool.eq_false_iff, ne_eq, hshows.leave_joins.touches_iff]
    exact not_or_intro (hne k.after (List.mem_cons_of_mem _ (List.mem_map_of_mem hks))) ht
  have hdata : k.data.filter (·.touches q.id) = k.data := by
    refine List.filter_eq_self.2 fun a ha => ?_
    have hends : a.ends ∈ (Statement.operation op).dataEnds o b.vars k.transition.id :=
      hshows.data ▸ List.mem_map_of_mem ha
    simp only [Statement.dataEnds, hlast, List.mem_pair, Arc.ends, Prod.mk.injEq] at hends
    rcases hends with he | he <;> simp [Arc.touches, he]
  rw [← List.filter_filter, hb.filter_touches hk]
  simp [Link.arcs, henter, hleave, hdata]

end Blueprint.Realizes

/-- **The data arcs of a compiled net are inscribed without capture.**  If old values are named
after an identifier, then for each assignment to a variable, in whose expression no identifier
starts where a number ends, the two arcs between its transition and the place of the variable are
inscribed with a name that the expression does not use and with the expression in terms of it. -/
theorem Net.ofContract_captureFree {o : NetOptions} {c : Contract} {n : Net}
    (h : Net.ofContract o (some c) = .ok n) (hbound : Expr.IsIdentifier o.filled.bound) :
    ∃ p : Page, n.page = some p ∧
      List.Forall₂ (fun st (t : Transition) => ∀ op, st = .operation op →
        (∃ v ∈ c.stateVariables, v.name = op.target) → Expr.NamesApart op.expression →
        ∃ q ∈ p.places.take c.stateVariables.length, q.name = op.target ∧ ∃ read write : Arc,
          p.arcs.filter (fun a => a.touches q.id && a.touches t.id) = [read, write] ∧
          (read.source = q.id ∧ read.target = t.id) ∧
          (write.source = t.id ∧ write.target = q.id) ∧
          op.CaptureFree read.inscription write.inscription)
        c.steps p.transitions := by
  obtain ⟨b, hb, hpage⟩ := Net.exists_blueprint h
  refine ⟨b.page o.filled.pageId, hpage, ?_⟩
  rw [Blueprint.page_transitions, List.forall₂_map_right_iff, List.forall₂_iff_zip]
  refine ⟨hb.links_show.length_eq, ?_⟩
  rintro _ k hmem op rfl ⟨v, hv, hname⟩ hapart
  obtain ⟨f, hshows⟩ := List.forall₂_zip hb.links_show hmem
  cases hlast : Draft.lastNamed? b.vars op.target with
  | none => exact absurd hname (lastNamed?_eq_none hb.vars hlast v hv)
  | some id =>
    obtain ⟨i, q, hi, rfl, hqname, -⟩ := exists_getElem?_of_lastNamed? hlast
    have hq : q ∈ b.vars := List.mem_of_getElem? hi
    have hends := hshows.data
    simp only [Statement.dataEnds, hlast] at hends
    obtain ⟨read, write, hdata⟩ : ∃ read write, k.data = [read, write] := by
      rw [← List.length_eq_two, ← List.length_map Arc.ends, hends]
      rfl
    rw [hdata] at hends
    simp only [List.map_cons, List.map_nil, Arc.ends, List.cons.injEq, Prod.mk.injEq] at hends
    obtain ⟨⟨hsource, htarget, htaken⟩, ⟨hsource', htarget', hgiven⟩, -⟩ := hends
    refine ⟨q, hb.take_places ▸ hq, hqname, read, write, ?_, ⟨hsource, htarget⟩,
      ⟨hsource', htarget'⟩, ?_⟩
    · rw [← hdata]
      exact hb.filter_touches_var (List.of_mem_zip hmem).2 hshows hq hlast
    · rw [htaken, hgiven]
      exact op.captureFree hbound hapart

/-- A share of the total, where a record has the usual name of the old value. -/
def Operation.share : Operation where
  target := "total"
  expression := "x.total + total * x.rate"
  operator := "+="

/-- A contract with one assignment. -/
def Contract.shares : Contract where
  name := "Shares"
  stateVariables := [{ name := "total", type := "uint256", visibility := "public" }]
  functions := [{ name := "share", visibility := "public", body := [.operation Operation.share] }]

theorem Net.ofContract_captureFree_shares :
    ∃ n, Net.ofContract {} (some Contract.shares) = .ok n ∧
      Expr.IsIdentifier ({} : NetOptions).filled.bound ∧
      Expr.NamesApart Operation.share.expression ∧
      ∃ p, n.page = some p ∧ ∃ read ∈ p.arcs, ∃ write ∈ p.arcs, read.inscription ≠ ("x" : Text) ∧
        Operation.share.CaptureFree read.inscription write.inscription := by
  have hbound : Expr.IsIdentifier ({} : NetOptions).filled.bound := by decide +kernel
  have hapart : Expr.NamesApart Operation.share.expression := by decide +kernel
  refine ⟨_, rfl, hbound, hapart, ?_⟩
  obtain ⟨p, hp, hsteps⟩ :=
    Net.ofContract_captureFree (o := {}) (c := Contract.shares) rfl hbound
  have hone : Contract.shares.steps = [.operation Operation.share] := rfl
  rw [hone] at hsteps
  obtain ⟨t, -, hfirst, -, -⟩ := List.forall₂_cons_left_iff.1 hsteps
  obtain ⟨q, -, -, read, write, harcs, -, -, hfree⟩ :=
    hfirst Operation.share rfl ⟨_, List.mem_cons_self, rfl⟩ hapart
  have hmem : ∀ a ∈ [read, write], a ∈ p.arcs := fun a ha => (List.mem_filter.1 (harcs ▸ ha)).1
  refine ⟨p, hp, read, hmem read (by simp), write, hmem write (by simp), ?_, hfree⟩
  have hx : ⟨.ident, "x", 0⟩ ∈ Expr.tokenize Operation.share.expression := by decide +kernel
  exact (hfree.fresh _ hx rfl).symm

end ContractNet

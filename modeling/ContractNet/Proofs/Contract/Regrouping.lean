import ContractNet.Proofs.Contract.Congruence

/-!
# Regrouping statements

Blocks and the wrappers of statements only group what is in them.  Putting neighbours into a group of
their own changes neither texts nor lines nor what a walk comes across.

* `Regrouped`: in one node of a tree, or in none, neighbours are put into a new group;
* `Regrouped.kids`: only groups have other children then, so all that is read at a node is read from
  children that are regrouped at most;
* `IsWalk.forall₂_regrouped`: a walk that goes through groups lists the same nodes, regrouped at most;
* `Contract.build_regroup`: **groups are transparent**.
-/

namespace ContractNet

open Syntax

/-- The second tree is the first one, or in a node of it some neighbours are put into a group, which
has neither a text nor lines of its own. -/
inductive Regrouped : Tree → Tree → Prop
  | refl (t : Tree) : Regrouped t t
  | grouped {name source group : Text} {start stop : Int} {before run after : List Tree}
      (hname : isWrapper name = true) (hgroup : isWrapper group = true) (hrun : run ≠ []) :
      Regrouped (.rule name source start stop (before ++ run ++ after))
        (.rule name source start stop (before ++ .rule group [] 0 0 run :: after))
  | under {name source : Text} {start stop : Int} {before after : List Tree} {k k' : Tree}
      (h : Regrouped k k') :
      Regrouped (.rule name source start stop (before ++ k :: after))
        (.rule name source start stop (before ++ k' :: after))

instance : Std.Refl Regrouped := ⟨.refl⟩

/-! ### Texts and lines -/

theorem textAll_append (ts us : List Tree) :
    Tree.textAll (ts ++ us) = Tree.textAll ts ++ Tree.textAll us := by
  induction ts with
  | nil => rfl
  | cons t ts ih => rw [List.cons_append, Tree.textAll, Tree.textAll, ih, List.append_assoc]

section Group

variable {group : Text} {run : List Tree}

theorem text_group (hgroup : isWrapper group = true) :
    (Tree.rule group [] 0 0 run).text = Tree.textAll run := by
  have hname : group.isEmpty = false := by
    cases group with
    | nil => exact absurd hgroup (by decide)
    | cons => rfl
  rw [Tree.text, hname]
  rfl

theorem startLine_group (hrun : run ≠ []) :
    some (Tree.rule group [] 0 0 run).startLine = run.head?.map Tree.startLine := by
  obtain ⟨k, run, rfl⟩ := List.exists_cons_of_ne_nil hrun
  rfl

theorem endLine_group (hrun : run ≠ []) :
    some (Tree.rule group [] 0 0 run).endLine = run.getLast?.map Tree.endLine := by
  rw [Tree.endLine, Tree.endLineOfLast_eq, List.getLast?_eq_some_getLast hrun]
  rfl

end Group

namespace Regrouped

variable {t t' : Tree}

theorem sameShell (h : Regrouped t t') : t.SameShell t' := by
  induction h with
  | refl t => exact .refl t
  | @grouped _ _ group _ _ before run after _ _ hrun =>
    -- the new group matters where it is the first or the last child, and has the lines of its run
    refine .of_kids ?_ ?_
    · cases before with
      | nil =>
        have hhead := @startLine_group group _ hrun
        simpa [List.head?_append_of_ne_nil _ hrun] using hhead
      | cons => rfl
    · have hlast := @endLine_group group _ hrun
      rw [List.getLast?_append, List.getLast?_append, List.getLast?_append, List.getLast?_cons]
      cases after.getLast? with
      | none =>
        rw [List.getLast?_eq_some_getLast hrun] at hlast ⊢
        exact hlast
      | some => rfl
  | under _ ih => exact ih.under ..

theorem text (h : Regrouped t t') : t'.text = t.text := by
  have hrule : ∀ {name source start stop ks ks'}, Tree.textAll ks' = Tree.textAll ks →
      (Tree.rule name source start stop ks').text = (Tree.rule name source start stop ks).text :=
    fun hks => by simp only [Tree.text, hks]
  induction h with
  | refl t => rfl
  | grouped _ hgroup _ =>
    refine hrule ?_
    rw [textAll_append, textAll_append, textAll_append, Tree.textAll, text_group hgroup,
      List.append_assoc]
  | under _ ih =>
    refine hrule ?_
    rw [textAll_append, textAll_append, Tree.textAll, Tree.textAll, ih]

/-- The children of a node that is no group are regrouped at most. -/
theorem kids (h : Regrouped t t') (ht : isWrapper t.name = false) :
    List.Forall₂ Regrouped t.kids t'.kids := by
  cases h with
  | refl => exact List.forall₂_refl _
  | grouped hname => exact absurd (ht.symm.trans hname) Bool.false_ne_true
  | under h => exact List.rel_append (List.forall₂_refl _) (.cons h (List.forall₂_refl _))

end Regrouped

/-! ### Walks -/

section Walk

variable {enter keep : Tree → Bool} {walk : Tree → List Tree}

/-- **A walk that goes through groups** lists the same nodes, regrouped at most. -/
theorem Syntax.IsWalk.forall₂_regrouped (hwalk : IsWalk enter keep walk)
    (hgroup : ∀ t : Tree, isWrapper t.name = true → enter t = true ∧ keep t = false)
    (hsame : ∀ t t', Regrouped t t' → enter t' = enter t ∧ keep t' = keep t) {t t' : Tree}
    (h : Regrouped t t') : List.Forall₂ Regrouped (walk t) (walk t') := by
  have hthrough : ∀ {name source start stop ks}, isWrapper name = true →
      walk (.rule name source start stop ks) = ks.flatMap walk := by
    intro name source start stop ks hname
    obtain ⟨henter, hkeep⟩ := hgroup (.rule name source start stop ks) hname
    rw [hwalk, henter, hkeep]
    rfl
  -- the induction follows the way down to the regrouped node, below which the walk lists the same
  induction h with
  | refl t => exact List.forall₂_refl _
  | grouped hname hgroup _ =>
    rw [hthrough hname, hthrough hname, List.flatMap_append, List.flatMap_append,
      List.flatMap_append, List.flatMap_cons, hthrough hgroup, List.append_assoc]
    exact List.forall₂_refl _
  | @under name source start stop before after k k' h ih =>
    have hunder : Regrouped (.rule name source start stop (before ++ k :: after))
      (.rule name source start stop (before ++ k' :: after)) := .under h
    obtain ⟨henter, hkeep⟩ := hsame _ _ hunder
    rw [hwalk, hwalk (.rule name source start stop (before ++ k' :: after)), henter, hkeep]
    refine List.rel_append ?_ ?_
    · split
      · exact .cons hunder .nil
      · exact .nil
    · split
      · simp only [Tree.kids, List.flatMap_append, List.flatMap_cons]
        exact List.rel_append (List.forall₂_refl _)
          (List.rel_append ih (List.forall₂_refl _))
      · exact .nil

/-- What reads each node that is listed the same, when it is regrouped, reads all of them the
same. -/
theorem Syntax.IsWalk.forall₂_read {α : Type} {f : Tree → α} (hwalk : IsWalk enter keep walk)
    (hgroup : ∀ t : Tree, isWrapper t.name = true → enter t = true ∧ keep t = false)
    (hsame : ∀ t t', Regrouped t t' → enter t' = enter t ∧ keep t' = keep t)
    (hread : ∀ k k', Regrouped k k' → keep k = true → f k' = f k) {t t' : Tree}
    (h : Regrouped t t') : List.Forall₂ (fun k k' => f k' = f k) (walk t) (walk t') := by
  have hkept : ∀ k ∈ walk t, keep k = true := by
    intro k hk
    obtain ⟨_, -, hkeep⟩ := (hwalk.inOrder t).mem_iff.1 hk
    exact hkeep
  have hlisted := hwalk.forall₂_regrouped hgroup hsame h
  exact ((List.forall₂_and_left _ _).2 ⟨hkept, hlisted⟩).imp fun k k' hk => hread k k' hk.2 hk.1

end Walk

/-! ### What is read at a node -/

/-- A rule that a reader looks below: not the rule of a group. -/
theorem isWrapper_of_name {t : Tree} {rule : Text} (h : t.name = rule)
    (hrule : isWrapper rule = false) : isWrapper t.name = false := by rw [h, hrule]

theorem isWrapper_of_definition {t : Tree}
    (ht : t.name = Rule.function ∨ t.name = Rule.constructor) : isWrapper t.name = false := by
  rcases ht with ht | ht <;> rw [ht] <;> decide

theorem leadingKeyword_regrouped {ks ks' : List Tree} (h : List.Forall₂ Regrouped ks ks') :
    leadingKeyword ks' = leadingKeyword ks := by
  induction h with
  | nil => rfl
  | cons hk _ ih => simp only [leadingKeyword, hk.sameShell.isToken, hk.text, ih]

theorem isTokenOf_regrouped {t t' : Tree} (h : Regrouped t t') (s : Text) :
    isTokenOf s t' = isTokenOf s t := by
  rw [isTokenOf, isTokenOf, h.sameShell.isToken, h.text]

theorem map_text_regrouped {ks ks' : List Tree} (h : List.Forall₂ Regrouped ks ks') :
    ks'.map Tree.text = ks.map Tree.text := by
  induction h with
  | nil => rfl
  | cons hk _ ih => rw [List.map_cons, List.map_cons, hk.text, ih]

namespace Regrouped

variable {t t' : Tree}

theorem isInterfaceOrLibrary (h : Regrouped t t') (ht : isWrapper t.name = false) :
    isInterfaceOrLibrary t' = isInterfaceOrLibrary t := by
  rw [ContractNet.isInterfaceOrLibrary, ContractNet.isInterfaceOrLibrary,
    leadingKeyword_regrouped (h.kids ht)]

/-- The first child with a rule is the same one, regrouped at most. -/
theorem child? (h : Regrouped t t') (ht : isWrapper t.name = false) (rule : Text) :
    Option.Rel (fun k k' => k.name = rule ∧ Regrouped k k') (t.child? rule) (t'.child? rule) := by
  have hfind : ∀ {ks ks'}, List.Forall₂ Regrouped ks ks' →
      Option.Rel (fun k k' => k.name = rule ∧ Regrouped k k') (ks.find? (·.name = rule))
        (ks'.find? (·.name = rule)) := by
    intro ks ks' hks
    induction hks with
    | nil => exact .none
    | @cons k k' ks ks' hk _ ih =>
      have hname := hk.sameShell.name
      by_cases hrule : k.name = rule
      · rw [List.find?_cons_of_pos (by simpa using hrule),
          List.find?_cons_of_pos (by simpa [hname] using hrule)]
        exact .some ⟨hrule, hk⟩
      · rw [List.find?_cons_of_neg (by simpa using hrule),
          List.find?_cons_of_neg (by simpa [hname] using hrule)]
        exact ih
  exact hfind (h.kids ht)

theorem child?_text (h : Regrouped t t') (ht : isWrapper t.name = false) (rule : Text) :
    (t'.child? rule).map Tree.text = (t.child? rule).map Tree.text :=
  map_eq_of_rel (h.child? ht rule) fun _ _ hk => hk.2.text

theorem children (h : Regrouped t t') (ht : isWrapper t.name = false) (rule : Text) :
    List.Forall₂ (fun k k' => k.name = rule ∧ Regrouped k k') (t.children rule)
      (t'.children rule) := by
  refine (List.forall₂_and_left (p := fun k : Tree => k.name = rule) _ _).2 ⟨fun k hk => ?_, ?_⟩
  · simpa using (List.mem_filter.1 hk).2
  · exact List.rel_filter (fun _ _ hk => by simp [hk.sameShell.name]) (h.kids ht)

end Regrouped

/-! ### Variables -/

theorem takeWhile_regrouped {ks ks' : List Tree} (h : List.Forall₂ Regrouped ks ks')
    (rule : Text) :
    List.Forall₂ Regrouped (ks.takeWhile (·.name ≠ rule)) (ks'.takeWhile (·.name ≠ rule)) := by
  induction h with
  | nil => exact .nil
  | @cons k k' ks ks' hk _ ih =>
    rw [List.takeWhile_cons, List.takeWhile_cons, hk.sameShell.name]
    split
    · exact .cons hk ih
    · exact .nil

theorem isArrayType_regrouped {ks ks' : List Tree} (h : List.Forall₂ Regrouped ks ks') :
    isArrayType ks' = isArrayType ks := by
  have hany : ∀ {o o' : Option Tree} (s : Text), Option.Rel Regrouped o o' →
      o'.any (isTokenOf s) = o.any (isTokenOf s) := by
    intro o o' s ho
    cases ho with
    | none => rfl
    | some hk => exact isTokenOf_regrouped hk s
  have hsecond : Option.Rel Regrouped ks[1]? ks'[1]? := by
    match h with
    | .nil => exact .none
    | .cons _ .nil => exact .none
    | .cons _ (.cons hk _) => exact .some hk
  rw [isArrayType, isArrayType, ← h.length_eq, hany "[" hsecond, hany "]" (rel_getLast? h)]

theorem indexedType_regrouped {ks ks' : List Tree} (h : List.Forall₂ Regrouped ks ks')
    (name : Text) : indexedType name ks' = indexedType name ks := by
  have harray := isArrayType_regrouped h
  cases h with
  | nil => rfl
  | @cons first first' ks ks' hfirst _ =>
    rw [indexedType, indexedType, hfirst.sameShell.name, harray, hfirst.text]
    by_cases hmapping : first.name = Rule.mapping
    · have hgroup := isWrapper_of_name hmapping rfl
      rw [if_pos hmapping, if_pos hmapping,
        atNode_congr hfirst.sameShell (isToken_of_name hmapping rfl)]
      have hkey := hfirst.child? hgroup Rule.mappingKey
      have hvalue := hfirst.child? hgroup Rule.typeName
      generalize first.child? Rule.mappingKey = key, first'.child? Rule.mappingKey = key' at hkey
      generalize first.child? Rule.typeName = value, first'.child? Rule.typeName = value' at hvalue
      cases hkey with
      | none => rfl
      | some hkey =>
        cases hvalue with
        | none => rfl
        | some hvalue => simp only [hkey.2.text, hvalue.2.text]
    · rw [if_neg hmapping, if_neg hmapping]

namespace Regrouped

variable {t t' : Tree}

theorem readVariable (h : Regrouped t t') (ht : t.name = Rule.stateVariable) :
    readVariable t' = readVariable t := by
  have hgroup := isWrapper_of_name ht rfl
  have hfault := atNode_congr h.sameShell (isToken_of_name ht rfl)
  have hvisibility : variableVisibility t' = variableVisibility t := by
    have hbetween := takeWhile_regrouped (List.forall₂_drop 1 (h.kids hgroup)) Rule.identifier
    simp only [variableVisibility, map_text_regrouped hbetween]
  refine require_bind_congr (hfault _) (h.child? hgroup _) fun type type' htype => ?_
  refine require_bind_congr (hfault _) (h.child? hgroup _) fun ident ident' hident => ?_
  have hkids := htype.2.kids (isWrapper_of_name htype.1 rfl)
  rw [hident.2.text, htype.2.text, indexedType_regrouped hkids, h.child?_text hgroup, hvisibility]

end Regrouped

/-! ### Statements -/

theorem readAssignment?_regrouped {ks ks' : List Tree} (h : List.Forall₂ Regrouped ks ks') :
    readAssignment? ks' = readAssignment? ks := by
  match h with
  | .nil => rfl
  | .cons _ .nil => rfl
  | .cons _ (.cons _ .nil) => rfl
  | .cons htarget (.cons hop (.cons hvalue .nil)) =>
    simp only [readAssignment?, htarget.sameShell.name, hvalue.sameShell.name,
      hop.sameShell.isToken, htarget.text, hop.text, hvalue.text]
  | .cons _ (.cons _ (.cons _ (.cons _ _))) => rfl

namespace Regrouped

variable {t t' e e' : Tree}

theorem readCall? (h : Regrouped e e') (he : e.name = Rule.expression) (line : Int) :
    readCall? line e' = readCall? line e := by
  have hgroup := isWrapper_of_name he rfl
  rw [ContractNet.readCall?, ContractNet.readCall?]
  match e.child? Rule.callArguments, e'.child? Rule.callArguments,
    h.child? hgroup Rule.callArguments, e.kids, e'.kids, h.kids hgroup with
  | _, _, .none, _, _, _ => rfl
  | _, _, .some _, _, _, .nil => rfl
  | some args, some args', .some hargs, _, _, .cons hcallee _ =>
    have hlist := hargs.2.child? (isWrapper_of_name hargs.1 rfl) Rule.expressionList
    have hguard := guardText_congr hargs.2.text (map_eq_of_rel hlist fun _ _ hl => hl.2.text)
    have htexts := map_eq_of_rel hlist fun _ _ hl => map_text_regrouped
      ((hl.2.children (isWrapper_of_name hl.1 rfl) Rule.expression).imp fun _ _ hk => hk.2)
    simp only [hcallee.sameShell.name, hcallee.text, hguard, htexts]

theorem readExpression (h : Regrouped t t') (ht : t.name = Rule.expressionStatement) :
    readExpression t' = readExpression t := by
  refine require_bind_congr (atNode_congr h.sameShell (isToken_of_name ht rfl) _)
    (h.child? (isWrapper_of_name ht rfl) _) fun e e' he => ?_
  rw [readAssignment?_regrouped (he.2.kids (isWrapper_of_name he.1 rfl)), h.sameShell.startLine,
    he.2.readCall? he.1]

theorem readStatement (h : Regrouped t t') (ht : isStatement t = true) :
    readStatement t' = readStatement t := by
  simp only [isStatement, Bool.or_eq_true, decide_eq_true_eq] at ht
  rw [ContractNet.readStatement, ContractNet.readStatement, h.sameShell.name]
  by_cases hif : t.name = Rule.ifStatement
  · rw [if_pos hif, if_pos hif, readIf_congr h.sameShell (isToken_of_name hif rfl)
      (h.child?_text (isWrapper_of_name hif rfl) _)]
  · rw [if_neg hif, if_neg hif, h.readExpression (ht.resolve_right hif)]

/-! ### Definitions -/

theorem readParameter (h : Regrouped t t') (ht : t.name = Rule.parameter) :
    readParameter t' = readParameter t := by
  have hgroup := isWrapper_of_name ht rfl
  refine require_bind_congr (atNode_congr h.sameShell (isToken_of_name ht rfl) _)
    (h.child? hgroup _) fun type type' htype => ?_
  rw [htype.2.text, h.child?_text hgroup]

/-- The name of a function is read from its descriptor. -/
theorem functionName (h : Regrouped t t') (ht : t.name = Rule.function ∨ t.name = Rule.constructor) :
    functionName t' = functionName t := by
  have hmember := isMember_of_definition ht
  rw [ContractNet.functionName, ContractNet.functionName, h.sameShell.name]
  split
  · rfl
  · have hgroup := isWrapper_of_definition ht
    refine require_bind_congr (atNode_congr h.sameShell (isToken_of_isMember hmember) _)
      (h.child? hgroup _) fun desc desc' hdesc => ?_
    have hident := hdesc.2.child? (isWrapper_of_name hdesc.1 rfl) Rule.identifier
    generalize desc.child? Rule.identifier = o, desc'.child? Rule.identifier = o' at hident
    cases hident with
    | none => rw [Option.getD_none, Option.getD_none, hdesc.2.text]
    | some hk => rw [Option.getD_some, Option.getD_some, hk.2.text]

theorem functionVisibility (h : Regrouped t t') (ht : isWrapper t.name = false) :
    functionVisibility t' = functionVisibility t := by
  have hwords := map_eq_of_rel (h.child? ht Rule.modifiers)
    fun _ _ hmods => map_text_regrouped (hmods.2.kids (isWrapper_of_name hmods.1 rfl))
  rw [ContractNet.functionVisibility, ContractNet.functionVisibility, hwords]

end Regrouped

section Parts

variable {o o' : Option Tree}

theorem readParameters_regrouped
    (h : Option.Rel (fun k k' => k.name = Rule.parameterList ∧ Regrouped k k') o o') :
    readParameters o' = readParameters o := by
  cases h with
  | none => rfl
  | some hl =>
    have hchildren := hl.2.children (isWrapper_of_name hl.1 rfl) Rule.parameter
    exact mapM_eq_of_forall₂ (hchildren.imp fun _ _ hk => hk.2.readParameter hk.1)

theorem returns_regrouped
    (h : Option.Rel (fun k k' => k.name = Rule.returns ∧ Regrouped k k') o o') :
    Option.Rel (fun k k' => k.name = Rule.parameterList ∧ Regrouped k k')
      (o.bind (·.child? Rule.parameterList)) (o'.bind (·.child? Rule.parameterList)) := by
  cases h with
  | none => exact .none
  | some hl => exact hl.2.child? (isWrapper_of_name hl.1 rfl) _

theorem readBody_regrouped
    (h : Option.Rel (fun k k' => k.name = Rule.block ∧ Regrouped k k') o o') :
    readBody o' = readBody o := by
  cases h with
  | none => rfl
  | some hb =>
    refine readBody_congr hb.1 (hb.2.sameShell.name.trans hb.1) ?_
    exact isWalk_statements.forall₂_read (fun t ht => ⟨ht, isStatement_of_isWrapper ht⟩)
      (fun t t' h => by simp only [isStatement, h.sameShell.name, and_self])
      (fun _ _ hk => hk.readStatement) hb.2

end Parts

namespace Regrouped

variable {t t' : Tree}

theorem readFunction (h : Regrouped t t')
    (ht : t.name = Rule.function ∨ t.name = Rule.constructor) :
    readFunction t' = readFunction t := by
  have hgroup := isWrapper_of_definition ht
  simp only [ContractNet.readFunction, h.functionName ht, h.functionVisibility hgroup,
    readParameters_regrouped (h.child? hgroup Rule.parameterList),
    readParameters_regrouped (returns_regrouped (h.child? hgroup Rule.returns)),
    readBody_regrouped (h.child? hgroup Rule.block)]

theorem readMember (h : Regrouped t t') (ht : isMember t = true) :
    readMember t' = readMember t := by
  have hname := h.sameShell.name
  rcases isMember_iff.1 ht with hv | hf
  · rw [readMember_of_stateVariable hv, readMember_of_stateVariable (hname.trans hv),
      h.readVariable hv]
  · rw [readMember_of_ne (ne_stateVariable hf), readMember_of_ne (ne_stateVariable (by rwa [hname])),
      h.readFunction hf]

/-! ### Contracts -/

theorem readContract (h : Regrouped t t') (ht : t.name = Rule.contractDefinition) :
    readContract t' = readContract t := by
  refine readContract_congr h.sameShell ht (h.child?_text (isWrapper_of_name ht rfl) _) ?_
  refine isWalk_members.forall₂_read (fun t ht => ?_) (fun t t' h => ?_)
    (fun _ _ hk => hk.readMember) h
  · -- a group between the members would be entered like any other node
    simp only [isWrapper, Bool.or_eq_true, decide_eq_true_eq] at ht
    rw [entersForMembers, isMember, Tree.isToken]
    rcases ht with (ht | ht) | ht <;> rw [ht] <;> decide
  · simp only [entersForMembers, isMember, h.sameShell.isToken, h.sameShell.name, and_self]

theorem definesContract (h : Regrouped t t') : definesContract t' = definesContract t := by
  rw [ContractNet.definesContract, ContractNet.definesContract, h.sameShell.name]
  by_cases ht : t.name = Rule.contractDefinition
  · rw [h.isInterfaceOrLibrary (isWrapper_of_name ht rfl)]
  · simp only [ht, decide_false, Bool.false_and]

/-- **Regrouped trees build alike.** -/
theorem build (h : Regrouped t t') : Contract.build (some t') = Contract.build (some t) := by
  refine build_congr h.sameShell ?_
  have hcontracts := isWalk_contracts.forall₂_read
    (f := fun c => (c.location, ContractNet.readContract c)) (fun t ht => ?_) (fun t t' h => ?_)
    (fun k k' hk hkeep => ?_) h
  · exact hcontracts.imp fun _ _ hk => ⟨congrArg Prod.fst hk, congrArg Prod.snd hk⟩
  · -- nor is a group a contract, wherever it stands
    have hname : t.name ≠ Rule.contractDefinition := by
      intro hname
      rw [hname] at ht
      exact absurd ht (by decide)
    simp [ContractNet.definesContract, hname]
  · rw [h.definesContract, h.sameShell.name]
    exact ⟨rfl, rfl⟩
  · simp only [ContractNet.definesContract, Bool.and_eq_true, decide_eq_true_eq] at hkeep
    rw [hk.sameShell.location, hk.readContract hkeep.1]

/-- Neighbours among the children of a group are put into a group of their own. -/
theorem of_kids {before run after : List Tree} {group : Text} (hname : isWrapper t.name = true)
    (hkids : t.kids = before ++ run ++ after) (hrun : run ≠ []) (hgroup : isWrapper group = true) :
    Regrouped t (t.withKids (before ++ .rule group [] 0 0 run :: after)) := by
  cases t with
  | rule name source start stop ks =>
    obtain rfl : ks = before ++ run ++ after := hkids
    exact .grouped hname hgroup hrun
  | token => exact absurd (show isWrapper [] = true from hname) (by decide)

theorem replaceAt {enter : Tree → Bool} {b b' : Tree} {pos : List Nat}
    (ht : t.Reaches enter pos b) (h : Regrouped b b') : Regrouped t (t.replaceAt pos b') := by
  induction ht with
  | here => exact h
  | @down t k _ i pos _ hk _ ih =>
    obtain ⟨before, after, -, hkids, hreplace⟩ := Tree.exists_replaceAt_cons hk
    rw [hreplace]
    cases t with
    | rule name source start stop ks =>
      obtain rfl : ks = before ++ k :: after := hkids
      exact .under (ih h)
    | token => cases hk

end Regrouped

/-- **Groups are transparent.**  Wherever a block, a statement or a simple statement stands in a tree,
be it the body of a function or a group in it, any neighbours among its children may be put into a new
node with one of these rules, which has neither a text nor lines of its own.  The tree still gives the
same contract, or the same error at the same place. -/
theorem Contract.build_regroup {root b : Tree} {pos : List Nat} {before run after : List Tree}
    {group : Text} (hb : root.Reaches (fun _ => true) pos b) (hname : isWrapper b.name = true)
    (hkids : b.kids = before ++ run ++ after) (hrun : run ≠ []) (hgroup : isWrapper group = true) :
    Contract.build (some (root.replaceAt pos
      (b.withKids (before ++ .rule group [] 0 0 run :: after)))) = Contract.build (some root) :=
  (Regrouped.replaceAt hb (.of_kids hname hkids hrun hgroup)).build

/-- An assignment, given by its texts. -/
def assignmentTree (target value : Text) (line : Int) : Tree :=
  .rule "statement" [] 0 0 [
    .rule "expressionStatement" [] 0 0 [
      .rule "expression" [] 0 0 [
        .rule "expression" [] 0 0 [.token target line 0],
        .token "=" line 0,
        .rule "expression" [] 0 0 [.token value line 0]],
      .token ";" line 0]]

/-- A branch without a condition. -/
def bareBranch : Tree := .rule "ifStatement" [] 0 0 [.token "if" 7 0, .token ";" 8 0]

/-- The tree of a contract with one function, whose body has the given nodes.  Only tokens have
lines. -/
def bodyTree (nodes : List Tree) : Tree :=
  .rule "contractDefinition" [] 0 0 [
    .token "contract" 1 0, .rule "identifier" [] 0 0 [.token "Swap" 1 0],
    .rule "functionDefinition" [] 0 0 [
      .rule "functionDescriptor" [] 0 0 [
        .token "function" 2 0, .rule "identifier" [] 0 0 [.token "swap" 2 0]],
      .rule "block" [] 0 0 nodes]]

/-- Two statements in braces, and an error that is found behind them at the same lines. -/
theorem Contract.build_regroup_swap :
    (∃ c, Contract.build (some (bodyTree [.token "\x7b" 3 0, .rule "block" [] 0 0 [
        assignmentTree "a" "b" 4, assignmentTree "b" "a" 5], .token "\x7d" 9 0])) = .ok c ∧
      c.functions.map (·.body.length) = [2]) ∧
    Contract.build (some (bodyTree [.rule "simpleStatement" [] 0 0 [assignmentTree "a" "b" 4,
      bareBranch]])) = .error ⟨"ifStatement", "lines 7-8", .noCondition⟩ := by
  have hreach : ∀ nodes, (bodyTree nodes).Reaches (fun _ => true) [2, 1]
      (.rule "block" [] 0 0 nodes) := fun nodes => .down rfl rfl (.down rfl rfl (.here _))
  have hblock : isWrapper "block" = true := by decide +kernel
  constructor
  · have hsplit : (Tree.rule "block" [] 0 0 [.token "\x7b" 3 0, assignmentTree "a" "b" 4,
        assignmentTree "b" "a" 5, .token "\x7d" 9 0]).kids =
          [.token "\x7b" 3 0] ++ [assignmentTree "a" "b" 4, assignmentTree "b" "a" 5] ++
            [.token "\x7d" 9 0] := rfl
    have hsame := Contract.build_regroup (hreach _) hblock hsplit (by simp) hblock
    have hbuild : (Contract.build (some (bodyTree [.token "\x7b" 3 0, assignmentTree "a" "b" 4,
        assignmentTree "b" "a" 5, .token "\x7d" 9 0]))).toOption.map
          (fun c => c.functions.map (·.body.length)) = some [2] := by decide +kernel
    obtain ⟨c, hc, hlength⟩ := exists_eq_ok_of_map_toOption hbuild
    exact ⟨c, hsame.trans hc, hlength⟩
  · have hsplit : (Tree.rule "block" [] 0 0 [assignmentTree "a" "b" 4, bareBranch]).kids =
          [] ++ [assignmentTree "a" "b" 4, bareBranch] ++ [] := rfl
    have hgroup : isWrapper "simpleStatement" = true := by decide +kernel
    have hsame := Contract.build_regroup (hreach _) hblock hsplit (by simp) hgroup
    have hbuild : Contract.build (some (bodyTree [assignmentTree "a" "b" 4, bareBranch])) =
        .error ⟨"ifStatement", "lines 7-8", .noCondition⟩ := by decide +kernel
    exact hsame.trans hbuild

end ContractNet

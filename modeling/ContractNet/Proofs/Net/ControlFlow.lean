import ContractNet.Proofs.Net.Path
import ContractNet.Proofs.Validation.OfContract

/-!
# The control flow of compiled nets

The search along control arcs sees only ids and inscriptions.  On a compiled net it finds the
functions again: it follows each strand from its entry to its exit.

* `Blueprint.Realizes.controlArcs_eq`: the control arcs are those that the links put there;
* `Blueprint.Realizes.leads`: each link leads on, to its transition and to the place after it;
* `Blueprint.Realizes.reached_entry`: the search from an entry follows its strand;
* `Blueprint.Realizes.entries_eq`: control starts from the constructor, and from each function in
  which it takes a step;
* `Net.controlFlow_ofContract`: the chains of a compiled net are its functions.
-/

namespace ContractNet

/-! ### Lists -/

theorem flatMap_eq_filter_zip {α β γ : Type} {P : α → Bool} {g : β → List γ} {h : β → γ}
    {as : List α} {bs : List β}
    (hall : List.Forall₂ (fun a b => g b = if P a then [h b] else []) as bs) :
    bs.flatMap g = ((as.zip bs).filter fun x => P x.1).map fun x => h x.2 := by
  induction hall with
  | nil => rfl
  | cons hg _ ih =>
    rw [List.flatMap_cons, ih, hg, List.zip_cons_cons, List.filter_cons]
    split <;> rfl

/-- Zeros do not count for the maximum. -/
theorem foldl_max_filter {α : Type} {P : α → Bool} {g : α → Nat} (as : List α) (m : Nat)
    (h : ∀ a ∈ as, P a = false → g a = 0) :
    ((as.filter P).map g).foldl max m = (as.map g).foldl max m := by
  induction as generalizing m with
  | nil => rfl
  | cons a as ih =>
    obtain ⟨ha, has⟩ := List.forall_mem_cons.1 h
    rw [List.filter_cons, List.map_cons, List.foldl_cons]
    split
    · rw [List.map_cons, List.foldl_cons, ih _ has]
    · rename_i hP
      rw [ih _ has, ha (Bool.eq_false_iff.2 hP), Nat.max_zero]

/-! ### Control arcs of a compiled net -/

/-- Control starts from the function, or takes a step in it. -/
def Function.hasChain (marked : Bool) (f : Function) : Bool := marked || !f.steps.isEmpty

/-- No data arc of the assignments to variables looks like a control arc. -/
def Contract.DataApart (o : NetOptions) (c : Contract) : Prop :=
  ∀ op, .operation op ∈ c.steps → (∃ v ∈ c.stateVariables, v.name = op.target) →
    op.boundVariable o.bound ≠ o.control ∧ op.newValue o.bound ≠ o.control

/-- Where control goes from the node `x` by the link. -/
def Link.next (k : Link) (x : Text) : List Text :=
  (if k.before = x then [k.transition.id] else []) ++
    (if k.transition.id = x then [k.after.id] else [])

theorem Link.next_eq_nil {k : Link} {x : Text} (hbefore : k.before ≠ x)
    (htransition : k.transition.id ≠ x) : k.next x = [] := by
  simp [Link.next, hbefore, htransition]

namespace Blueprint.Realizes

variable {o : NetOptions} {c : Contract} {b : Blueprint}

theorem data_inscription_ne (hb : b.Realizes o c) (hdata : c.DataApart o) {k : Link}
    (hk : k ∈ b.links) {a : Arc} (ha : a ∈ k.data) : a.inscription ≠ o.control := by
  obtain ⟨st, hst, f, hshows⟩ := exists_left_of_mem hb.links_show hk
  have hends : a.ends ∈ st.dataEnds o b.vars k.transition.id := hshows.data ▸ List.mem_map_of_mem ha
  cases st with
  | operation op =>
    cases hlast : Draft.lastNamed? b.vars op.target with
    | none => simp [Statement.dataEnds, hlast] at hends
    | some id =>
      obtain ⟨i, q, hq, -, hname, -⟩ := exists_getElem?_of_lastNamed? hlast
      have hmem : op.target ∈ c.stateVariables.map (·.name) :=
        map_name_eq hb.vars ▸ hname ▸ List.mem_map_of_mem (List.mem_of_getElem? hq)
      obtain ⟨hread, hwrite⟩ := hdata op hst (List.mem_map.1 hmem)
      simp only [Statement.dataEnds, hlast] at hends
      rcases List.mem_pair.1 hends with he | he
      · exact fun hc => hread ((congrArg (·.2.2) he).symm.trans hc)
      · exact fun hc => hwrite ((congrArg (·.2.2) he).symm.trans hc)
  | _ => cases hends

/-- **The control arcs** are those that the links put there. -/
theorem controlArcs_eq (hb : b.Realizes o c) (hdata : c.DataApart o) :
    (b.page o.pageId).controlArcs o.labels = b.links.flatMap Link.control := by
  rw [Page.controlArcs, page_arcs, List.filter_flatMap]
  refine List.flatMap_congr fun k hk => ?_
  obtain ⟨st, -, f, hshows⟩ := exists_left_of_mem hb.links_show hk
  have henter : k.enter.inscription = o.control := congrArg (·.2.2) hshows.enter
  have hleave : k.leave.inscription = o.control := congrArg (·.2.2) hshows.leave
  have hnone : k.data.filter (·.inscription = o.control) = [] :=
    List.filter_eq_nil_iff.2 fun a ha => by simpa using hb.data_inscription_ne hdata hk ha
  change k.arcs.filter (·.inscription = o.control) = k.control
  rw [Link.arcs, List.filter_cons_of_pos (by simpa using henter), List.filter_append, hnone,
    List.nil_append, List.filter_cons_of_pos (by simpa using hleave)]
  rfl

theorem controlNext_eq (hb : b.Realizes o c) (hdata : c.DataApart o) (x : Text) :
    (b.page o.pageId).controlNext o.labels x = b.links.flatMap (·.next x) := by
  rw [Page.controlNext, hb.controlArcs_eq hdata, List.filter_flatMap, List.map_flatMap]
  refine List.flatMap_congr fun k hk => ?_
  obtain ⟨st, -, f, hshows⟩ := exists_left_of_mem hb.links_show hk
  have henter := hshows.enter
  have hleave := hshows.leave
  simp only [Arc.ends, Prod.mk.injEq] at henter hleave
  simp only [Link.control, Link.next, List.filter_cons, List.filter_nil, henter, hleave,
    decide_eq_true_eq]
  split <;> split <;> simp [henter, hleave]

/-! ### Links lead on -/

theorem before_mem (hb : b.Realizes o c) {k : Link} (hk : k ∈ b.links) :
    ∃ s ∈ b.strands, k ∈ s.links ∧ ∃ q ∈ s.places, k.before = q.id := by
  obtain ⟨s, hs, hk⟩ := List.mem_flatMap.1 hk
  obtain ⟨f, -, hf⟩ := hb.follows_of_mem hs
  exact ⟨s, hs, hk, hf.before_mem hk⟩

/-- A place belongs to one strand only. -/
theorem strand_eq (hb : b.Realizes o c) {s s' : Strand} (hs : s ∈ b.strands) (hs' : s' ∈ b.strands)
    {q q' : Place} (hq : q ∈ s.places) (hq' : q' ∈ s'.places) (he : q.id = q'.id) : s = s' := by
  by_contra hne
  exact hb.strands_apart.forall hs hs' hne q hq q' hq' he

theorem nodup_strand_places (hb : b.Realizes o c) {s : Strand} (hs : s ∈ b.strands) :
    (s.places.map (·.id)).Nodup := by
  have hnd := hb.nodup_placeIds
  simp only [page, List.map_append, List.map_flatMap] at hnd
  exact (List.nodup_flatMap.1 (List.nodup_append.1 hnd).2.1).1 s hs

theorem link_ne_place (hb : b.Realizes o c) {k : Link} (hk : k ∈ b.links) {q : Place}
    (hq : q ∈ (b.page o.pageId).places) : k.transition.id ≠ q.id :=
  (hb.place_ne_transition hq (page_transitions b o.pageId ▸ List.mem_map_of_mem hk)).symm

theorem strand_place_mem {s : Strand} (hs : s ∈ b.strands) {q : Place} (hq : q ∈ s.places) :
    q ∈ (b.page o.pageId).places := place_mem hs (List.mem_append_right _ hq)

theorem transition_ne_before (hb : b.Realizes o c) {k k' : Link} (hk : k ∈ b.links)
    (hk' : k' ∈ b.links) : k.transition.id ≠ k'.before := by
  obtain ⟨s, hs, -, q, hq, he⟩ := hb.before_mem hk'
  exact he ▸ hb.link_ne_place hk (strand_place_mem hs hq)

/-- At most one link starts from a place. -/
theorem before_inj (hb : b.Realizes o c) {k k' : Link} (hk : k ∈ b.links) (hk' : k' ∈ b.links)
    (he : k.before = k'.before) : k = k' := by
  obtain ⟨s, hs, hks, q, hq, hqe⟩ := hb.before_mem hk
  obtain ⟨s', hs', hks', q', hq', hqe'⟩ := hb.before_mem hk'
  obtain rfl := hb.strand_eq hs hs' hq hq' (by rw [← hqe, he, hqe'])
  obtain ⟨f, -, hf⟩ := hb.follows_of_mem hs
  have hnd := (List.nodup_append.1 (hf.map_before_concat ▸ hb.nodup_strand_places hs)).1
  exact List.inj_on_of_nodup_map hnd hks hks' he

/-- No link starts from the exit of a strand. -/
theorem before_ne_exit (hb : b.Realizes o c) {s : Strand} (hs : s ∈ b.strands) {k : Link}
    (hk : k ∈ b.links) : k.before ≠ s.exit.id := by
  intro he
  obtain ⟨s', hs', hks, q, hq, hqe⟩ := hb.before_mem hk
  obtain rfl := hb.strand_eq hs' hs hq s.exit_mem (hqe ▸ he)
  obtain ⟨f, -, hf⟩ := hb.follows_of_mem hs
  have hnd := hf.map_before_concat ▸ hb.nodup_strand_places hs
  exact (List.nodup_append.1 hnd).2.2 _ (List.mem_map_of_mem hks) _ (List.mem_singleton_self _) he

theorem leads (hb : b.Realizes o c) (hdata : c.DataApart o) {k : Link} (hk : k ∈ b.links) :
    k.Leads ((b.page o.pageId).controlNext o.labels) := by
  have hnd : b.links.Nodup := hb.nodup_linkIds.of_map
  have hne : k.before ≠ k.transition.id := (hb.transition_ne_before hk hk).symm
  constructor
  · rw [hb.controlNext_eq hdata, flatMap_eq_of_nodup hnd hk fun k' hk' hkk' =>
      Link.next_eq_nil (fun he => hkk' (hb.before_inj hk' hk he)) (hb.transition_ne_before hk' hk)]
    simp [Link.next, hne.symm]
  · rw [hb.controlNext_eq hdata, flatMap_eq_of_nodup hnd hk fun k' hk' hkk' =>
      Link.next_eq_nil (hb.transition_ne_before hk hk').symm
        fun he => hkk' (List.inj_on_of_nodup_map hb.nodup_linkIds hk' hk he)]
    simp [Link.next, hne]

theorem controlNext_exit (hb : b.Realizes o c) (hdata : c.DataApart o) {s : Strand}
    (hs : s ∈ b.strands) : (b.page o.pageId).controlNext o.labels s.exit.id = [] := by
  rw [hb.controlNext_eq hdata]
  exact List.flatMap_eq_nil_iff.2 fun k hk => Link.next_eq_nil (hb.before_ne_exit hs hk)
    (hb.link_ne_place hk (strand_place_mem hs s.exit_mem))

/-! ### Following a strand -/

theorem mem_links {s : Strand} (hs : s ∈ b.strands) {k : Link} (hk : k ∈ s.links) : k ∈ b.links :=
  List.mem_flatMap.2 ⟨s, hs, hk⟩

theorem isPath_nodes (hb : b.Realizes o c) (hdata : c.DataApart o) {s : Strand}
    (hs : s ∈ b.strands) : IsPath ((b.page o.pageId).controlNext o.labels) s.nodes := by
  obtain ⟨f, -, hf⟩ := hb.follows_of_mem hs
  exact hf.linked.isPath (fun k hk => hb.leads hdata (mem_links hs hk))
    (s.exit_id ▸ hb.controlNext_exit hdata hs)

theorem nodup_nodes (hb : b.Realizes o c) {s : Strand} (hs : s ∈ b.strands) : s.nodes.Nodup := by
  have htransitions : (s.links.map (·.transition.id)).Nodup := by
    have hnd := hb.nodup_linkIds
    rw [links, List.map_flatMap] at hnd
    exact (List.nodup_flatMap.1 hnd).1 s hs
  refine (controlNodes_perm _ _).nodup_iff.2 (List.nodup_append.2 ⟨?_, htransitions, ?_⟩)
  · exact s.map_id_places ▸ hb.nodup_strand_places hs
  · rw [← s.map_id_places]
    intro x hx y hy
    obtain ⟨q, hq, rfl⟩ := List.mem_map.1 hx
    obtain ⟨k, hk, rfl⟩ := List.mem_map.1 hy
    exact (hb.link_ne_place (mem_links hs hk) (strand_place_mem hs hq)).symm

/-- A strand has two arcs for each link, so the search does not run out of fuel. -/
theorem length_links_le (hb : b.Realizes o c) {s : Strand} (hs : s ∈ b.strands) :
    2 * s.links.length ≤ (b.page o.pageId).arcs.length := by
  have hlength : (s.links.flatMap Link.control).length = 2 * s.links.length := by
    simp [List.length_flatMap, Link.control, Nat.mul_comm]
  rw [← hlength, ← hb.filter_touchedBy hs]
  exact List.length_filter_le _ _

/-- **The search from an entry** follows its strand. -/
theorem reached_entry (hb : b.Realizes o c) (hdata : c.DataApart o) {s : Strand}
    (hs : s ∈ b.strands) : (b.page o.pageId).reached o.labels s.entry.id = s.nodes := by
  obtain ⟨hentry, hnd⟩ := List.nodup_cons.1 (hb.nodup_nodes hs)
  refine explore_path (hb.isPath_nodes hdata hs) hnd (fun y hy hmem => ?_) ?_
  · exact hentry (List.mem_singleton.1 hmem ▸ hy)
  · have hlength : (s.nodes.length = 2 * s.links.length + 1) := length_controlNodes _ _
    have hfuel := hb.length_links_le hs
    simp only [Strand.nodes, controlNodes, List.length_cons] at hlength
    omega

theorem isTransition_link (b : Blueprint) {k : Link} (hk : k ∈ b.links) :
    (b.page o.pageId).isTransition k.transition.id = true := by
  rw [Page.isTransition, page_transitions]
  exact List.any_eq_true.2 ⟨_, List.mem_map_of_mem hk, by simp⟩

theorem isTransition_place (hb : b.Realizes o c) {q : Place} (hq : q ∈ (b.page o.pageId).places) :
    (b.page o.pageId).isTransition q.id = false := by
  rw [Page.isTransition, List.any_eq_false]
  exact fun t ht => by simpa using (hb.place_ne_transition hq ht).symm

/-- **The chain of an entry** is that of its strand. -/
theorem chain_entry (hb : b.Realizes o c) (hdata : c.DataApart o)
    (hids : [] ∉ (b.page o.pageId).ids) {s : Strand} (hs : s ∈ b.strands) :
    (b.page o.pageId).chain o.labels s.entry = s.chain := by
  obtain ⟨f, -, hf⟩ := hb.follows_of_mem hs
  have htransition : ∀ k ∈ s.links, (b.page o.pageId).isTransition k.transition.id = true :=
    fun k hk => isTransition_link b (mem_links hs hk)
  have hplace : ∀ q ∈ s.places, (b.page o.pageId).isTransition q.id = false :=
    fun q hq => hb.isTransition_place (strand_place_mem hs hq)
  have hfilter : s.nodes.filter (b.page o.pageId).isTransition = s.transitions.map (·.id) := by
    rw [Strand.nodes, filter_controlNodes (hplace _ List.mem_cons_self) fun k hk =>
      ⟨htransition k hk, hplace _ (List.mem_cons_of_mem _ (List.mem_map_of_mem hk))⟩]
    simp [Strand.transitions, Function.comp_def]
  -- an empty id would stand for no place of rest at all
  have hexit : s.exit.id ≠ [] := fun he => hids (he ▸ List.mem_append_left _
    (List.mem_append_left _ (List.mem_map_of_mem (strand_place_mem hs s.exit_mem))))
  have hfind := hf.linked.find?_controlNodes (fun k hk => hb.leads hdata (mem_links hs hk))
    htransition (P := fun n => !(b.page o.pageId).isTransition n &&
      ((b.page o.pageId).controlNext o.labels n).isEmpty && !n.isEmpty)
    (fun x hx => by simp at hx; exact hx.1)
    (by simp [← s.exit_id, hplace _ s.exit_mem, hb.controlNext_exit hdata hs, hexit])
  simp only [Page.chain, hb.reached_entry hdata hs, hfilter]
  rw [Strand.nodes, hfind, Option.getD_some, ← s.exit_id]
  rfl

theorem branches_entry (hb : b.Realizes o c) (hdata : c.DataApart o) {s : Strand}
    (hs : s ∈ b.strands) : (b.page o.pageId).branches o.labels s.entry = [] := by
  rw [Page.branches, hb.reached_entry hdata hs]
  refine List.filter_eq_nil_iff.2 fun x hx => ?_
  have hle := (hb.isPath_nodes hdata hs).length_next_le x hx
  simp only [Bool.and_eq_true, decide_eq_true_eq, not_and, Nat.not_lt]
  exact fun _ => hle

/-! ### Entries -/

theorem any_controlArcs_iff (hb : b.Realizes o c) (hdata : c.DataApart o) (P : Arc → Bool) :
    ((b.page o.pageId).controlArcs o.labels).any P = true ↔
      ∃ k ∈ b.links, P k.enter = true ∨ P k.leave = true := by
  rw [hb.controlArcs_eq hdata, List.any_flatMap, List.any_eq_true]
  simp [Link.control]

theorem control_ends (hb : b.Realizes o c) {k : Link} (hk : k ∈ b.links) :
    (k.enter.source = k.before ∧ k.enter.target = k.transition.id) ∧
      k.leave.source = k.transition.id ∧ k.leave.target = k.after.id := by
  obtain ⟨st, -, f, hshows⟩ := exists_left_of_mem hb.links_show hk
  exact ⟨⟨congrArg (·.1) hshows.enter, congrArg (·.2.1) hshows.enter⟩,
    congrArg (·.1) hshows.leave, congrArg (·.2.1) hshows.leave⟩

/-- A control arc leads to a place if a link does: a place is no transition, so only one of the two
control arcs of a link can end there. -/
theorem any_target_iff (hb : b.Realizes o c) (hdata : c.DataApart o) {q : Place}
    (hq : q ∈ (b.page o.pageId).places) :
    ((b.page o.pageId).controlArcs o.labels).any (·.target = q.id) = true ↔
      ∃ k ∈ b.links, k.after.id = q.id := by
  rw [hb.any_controlArcs_iff hdata]
  refine exists_congr fun k => and_congr_right fun hk => ?_
  simp [hb.control_ends hk, hb.link_ne_place hk hq]

theorem any_source_iff (hb : b.Realizes o c) (hdata : c.DataApart o) {q : Place}
    (hq : q ∈ (b.page o.pageId).places) :
    ((b.page o.pageId).controlArcs o.labels).any (·.source = q.id) = true ↔
      ∃ k ∈ b.links, k.before = q.id := by
  rw [hb.any_controlArcs_iff hdata]
  refine exists_congr fun k => and_congr_right fun hk => ?_
  simp [hb.control_ends hk, hb.link_ne_place hk hq]

/-- Control starts from a place to which no link leads, if a link starts there or it is marked. -/
theorem isEntry_iff (hb : b.Realizes o c) (hdata : c.DataApart o) {q : Place}
    (hq : q ∈ (b.page o.pageId).places) :
    (b.page o.pageId).isEntry o.labels q = true ↔
      (∀ k ∈ b.links, k.after.id ≠ q.id) ∧
        ((∃ k ∈ b.links, k.before = q.id) ∨ q.marking = some o.unit) := by
  rw [Page.isEntry, Bool.and_eq_true, Bool.not_eq_true', ← Bool.not_eq_true,
    hb.any_target_iff hdata hq, Bool.or_eq_true, hb.any_source_iff hdata hq, Page.holdsUnit,
    decide_eq_true_eq]
  refine and_congr_left fun _ => ?_
  simp only [not_exists, not_and, ne_eq]

/-- Control does not start from the places of variables. -/
theorem isEntry_var (hb : b.Realizes o c) (hdata : c.DataApart o)
    (hunit : ∀ v ∈ c.stateVariables, v.initial ≠ o.unit) {q : Place} (hq : q ∈ b.vars) :
    (b.page o.pageId).isEntry o.labels q = false := by
  rw [← Bool.not_eq_true, hb.isEntry_iff hdata (List.mem_append_left _ hq)]
  rintro ⟨-, ⟨k, hk, he⟩ | hmarking⟩
  · obtain ⟨s, hs, -, q', hq', he'⟩ := hb.before_mem hk
    exact hb.var_ne_place hq hs hq' (he ▸ he')
  · obtain ⟨v, hv, hheld⟩ := exists_left_of_mem hb.vars hq
    rw [hheld.marking] at hmarking
    split at hmarking
    · cases hmarking
    · exact hunit v hv (Option.some.inj hmarking)

/-- No link leads to an entry. -/
theorem after_ne_entry (hb : b.Realizes o c) {s : Strand} (hs : s ∈ b.strands) {k : Link}
    (hk : k ∈ b.links) : k.after.id ≠ s.entry.id := by
  intro he
  obtain ⟨s', hs', hk⟩ := List.mem_flatMap.1 hk
  have hafter : k.after ∈ s'.places := List.mem_cons_of_mem _ (List.mem_map_of_mem hk)
  obtain rfl := hb.strand_eq hs' hs hafter List.mem_cons_self he
  have hnd := hb.nodup_strand_places hs
  rw [Strand.map_id_places, List.nodup_cons] at hnd
  exact hnd.1 (he ▸ List.mem_map_of_mem (f := fun k : Link => k.after.id) hk)

/-- A link starts from an entry if and only if its strand has links. -/
theorem exists_before_eq_entry_iff (hb : b.Realizes o c) {s : Strand} (hs : s ∈ b.strands) :
    (∃ k ∈ b.links, k.before = s.entry.id) ↔ s.links ≠ [] := by
  obtain ⟨f, -, hf⟩ := hb.follows_of_mem hs
  constructor
  · rintro ⟨k, hk, he⟩ hnil
    obtain ⟨s', hs', hks, q, hq, hqe⟩ := hb.before_mem hk
    obtain rfl := hb.strand_eq hs' hs hq List.mem_cons_self (hqe ▸ he)
    rw [hnil] at hks
    cases hks
  · intro hne
    obtain ⟨k, ks, hlinks⟩ := List.exists_cons_of_ne_nil hne
    have hlinked := hf.linked
    rw [hlinks] at hlinked
    exact ⟨k, mem_links hs (hlinks ▸ List.mem_cons_self), hlinked.1⟩

/-- Of a strand, control starts from its entry at most: if it is marked or leads on. -/
theorem filter_isEntry_places (hb : b.Realizes o c) (hdata : c.DataApart o) {s : Strand}
    (hs : s ∈ b.strands) {marked : Bool} {f : Function} (hf : s.Follows o b.vars marked f) :
    s.places.filter ((b.page o.pageId).isEntry o.labels) =
      if f.hasChain marked then [s.entry] else [] := by
  -- links lead to all places of the strand but its entry
  have hafter : (s.links.map (·.after)).filter ((b.page o.pageId).isEntry o.labels) = [] := by
    refine List.filter_eq_nil_iff.2 fun q hq hentry => ?_
    have hplace := strand_place_mem (o := o) hs (List.mem_cons_of_mem _ hq)
    obtain ⟨k, hk, rfl⟩ := List.mem_map.1 hq
    exact ((hb.isEntry_iff hdata hplace).1 hentry).1 k (mem_links hs hk) rfl
  have hlinks : s.links ≠ [] ↔ f.steps ≠ [] := by
    rw [ne_eq, ne_eq, ← List.length_eq_zero_iff, ← List.length_eq_zero_iff, hf.shows.length_eq]
  have hentry : (b.page o.pageId).isEntry o.labels s.entry = f.hasChain marked := by
    rw [Bool.eq_iff_iff, hb.isEntry_iff hdata (strand_place_mem hs List.mem_cons_self),
      and_iff_right fun k hk => hb.after_ne_entry hs hk, hb.exists_before_eq_entry_iff hs, hlinks,
      hf.marking]
    cases marked <;> simp [Function.hasChain]
  rw [Strand.places, List.filter_cons, hafter, hentry]

/-- The functions that have a chain, each with its strand. -/
theorem entries_eq (hb : b.Realizes o c) (hdata : c.DataApart o)
    (hunit : ∀ v ∈ c.stateVariables, v.initial ≠ o.unit) :
    (b.page o.pageId).entries o.labels =
      ((c.markedFunctions.zip b.strands).filter fun x => x.1.2.hasChain x.1.1).map (·.2.entry) := by
  have hvars : b.vars.filter ((b.page o.pageId).isEntry o.labels) = [] :=
    List.filter_eq_nil_iff.2 fun q hq => by simp [hb.isEntry_var hdata hunit hq]
  have hstrands : List.Forall₂ (fun f s =>
      s.places.filter ((b.page o.pageId).isEntry o.labels) =
        if f.2.hasChain f.1 then [s.entry] else []) c.markedFunctions b.strands := by
    refine List.forall₂_iff_zip.2 ⟨hb.strands.length_eq, fun {f s} hmem => ?_⟩
    exact hb.filter_isEntry_places hdata (List.of_mem_zip hmem).2
      (List.forall₂_zip hb.strands hmem)
  rw [Page.entries]
  change (b.vars ++ b.strands.flatMap Strand.places).filter _ = _
  rw [List.filter_append, hvars, List.nil_append, List.filter_flatMap,
    flatMap_eq_filter_zip (P := fun f : Bool × Function => f.2.hasChain f.1) hstrands]

/-- **The chains** are those of the strands that control starts from. -/
theorem chains_eq (hb : b.Realizes o c) (hdata : c.DataApart o)
    (hunit : ∀ v ∈ c.stateVariables, v.initial ≠ o.unit) (hids : [] ∉ (b.page o.pageId).ids) :
    ((b.page o.pageId).controlFlow o.labels).chains =
      ((c.markedFunctions.zip b.strands).filter fun x => x.1.2.hasChain x.1.1).map (·.2.chain) := by
  simp only [Page.controlFlow, hb.entries_eq hdata hunit, List.map_map]
  refine List.map_congr_left fun x hx => ?_
  exact hb.chain_entry hdata hids (List.of_mem_zip (List.mem_filter.1 hx).1).2

theorem branching_eq_nil (hb : b.Realizes o c) (hdata : c.DataApart o)
    (hunit : ∀ v ∈ c.stateVariables, v.initial ≠ o.unit) :
    ((b.page o.pageId).controlFlow o.labels).branching = [] := by
  simp only [Page.controlFlow, hb.entries_eq hdata hunit, List.flatMap_map]
  refine List.flatMap_eq_nil_iff.2 fun x hx => ?_
  exact hb.branches_entry hdata (List.of_mem_zip (List.mem_filter.1 hx).1).2

/-- Each transition is on the chain of its strand. -/
theorem exists_chain_of_mem_transitions (hb : b.Realizes o c) {t : Transition}
    (ht : t ∈ (b.page o.pageId).transitions) :
    ∃ x ∈ (c.markedFunctions.zip b.strands).filter fun x => x.1.2.hasChain x.1.1,
      t.id ∈ x.2.chain.transitions := by
  obtain ⟨s, hs, ht⟩ := List.mem_flatMap.1 ht
  obtain ⟨i, hi, rfl⟩ := List.mem_iff_getElem.1 hs
  have hi' : i < c.markedFunctions.length := hb.strands.length_eq ▸ hi
  have hmem : (c.markedFunctions[i], b.strands[i]) ∈ c.markedFunctions.zip b.strands :=
    List.mem_iff_getElem.2 ⟨i, by rw [List.length_zip]; omega, List.getElem_zip⟩
  refine ⟨_, List.mem_filter.2 ⟨hmem, ?_⟩, List.mem_map_of_mem ht⟩
  have hsteps : c.markedFunctions[i].2.steps ≠ [] := by
    intro hnil
    have hlength := (List.forall₂_zip hb.strands hmem).shows.length_eq
    rw [hnil] at hlength
    rw [Strand.transitions, List.eq_nil_of_length_eq_zero hlength.symm] at ht
    cases ht
  simp [Function.hasChain, hsteps]

theorem unreachable_eq_nil (hb : b.Realizes o c) (hdata : c.DataApart o)
    (hunit : ∀ v ∈ c.stateVariables, v.initial ≠ o.unit) (hids : [] ∉ (b.page o.pageId).ids) :
    ((b.page o.pageId).controlFlow o.labels).unreachable = [] := by
  refine List.filter_eq_nil_iff.2 fun id hid => ?_
  obtain ⟨t, ht, rfl⟩ := List.mem_map.1 hid
  obtain ⟨x, hx, hmem⟩ := hb.exists_chain_of_mem_transitions ht
  have hchain : x.2.chain ∈ ((b.page o.pageId).controlFlow o.labels).chains :=
    hb.chains_eq hdata hunit hids ▸ List.mem_map_of_mem hx
  simp only [Bool.not_eq_true', Bool.not_eq_false, List.any_eq_true]
  exact ⟨_, hchain, by simpa using hmem⟩

theorem longest_eq (hb : b.Realizes o c) (hdata : c.DataApart o)
    (hunit : ∀ v ∈ c.stateVariables, v.initial ≠ o.unit) (hids : [] ∉ (b.page o.pageId).ids) :
    ((b.page o.pageId).controlFlow o.labels).longest =
      (c.allFunctions.map (·.steps.length)).foldl max 0 := by
  have hlength : ∀ x ∈ c.markedFunctions.zip b.strands,
      x.2.chain.transitions.length = x.1.2.steps.length := by
    intro x hx
    rw [(List.forall₂_zip hb.strands hx).shows.length_eq]
    simp [Strand.chain, Strand.transitions]
  have hzip : (c.markedFunctions.zip b.strands).map (·.1.2.steps.length) =
      c.allFunctions.map (·.steps.length) := by
    have hfst : (c.markedFunctions.zip b.strands).map Prod.fst = c.markedFunctions :=
      List.map_fst_zip (Nat.le_of_eq hb.strands.length_eq)
    calc (c.markedFunctions.zip b.strands).map (·.1.2.steps.length)
      _ = ((c.markedFunctions.zip b.strands).map Prod.fst).map (·.2.steps.length) := by
        rw [List.map_map]
        rfl
      _ = c.allFunctions.map (·.steps.length) := by
        rw [hfst]
        simp [Contract.markedFunctions, Contract.allFunctions, Function.comp_def]
  calc ((b.page o.pageId).controlFlow o.labels).longest
    _ = (((c.markedFunctions.zip b.strands).filter fun x => x.1.2.hasChain x.1.1).map
          (·.1.2.steps.length)).foldl max 0 := by
      rw [ControlFlow.longest, hb.chains_eq hdata hunit hids, List.map_map]
      congr 1
      exact List.map_congr_left fun x hx => hlength x (List.mem_filter.1 hx).1
    _ = ((c.markedFunctions.zip b.strands).map (·.1.2.steps.length)).foldl max 0 := by
      -- functions without a chain have no steps
      refine foldl_max_filter _ _ fun x _ hx => ?_
      simp only [Function.hasChain, Bool.or_eq_false_iff, Bool.not_eq_false',
        List.isEmpty_iff] at hx
      simp [hx.2]
    _ = (c.allFunctions.map (·.steps.length)).foldl max 0 := by rw [hzip]

end Blueprint.Realizes

/-! ### Recovering the functions -/

/-- **The control flow of a compiled net.**  If no variable starts as the token of control and no
data arc looks like a control arc, the chains of a compiled net are its functions: one for the
constructor and one for each function with a step of control, from the entry of its strand along the
transitions of its statements to its last place.  No place branches, every transition is reached,
and the longest chain has as many transitions as a function has steps. -/
theorem Net.controlFlow_ofContract {o : NetOptions} {c : Contract} {n : Net}
    (h : Net.ofContract o (some c) = .ok n)
    (hunit : ∀ v ∈ c.stateVariables, v.initial ≠ o.filled.unit) (hdata : c.DataApart o.filled) :
    ∃ (p : Page) (vars : List Place) (strands : List Strand), n.page = some p ∧
      p.places = vars ++ strands.flatMap Strand.places ∧
      p.transitions = strands.flatMap Strand.transitions ∧
      List.Forall₂ StateVariable.HeldBy c.stateVariables vars ∧
      List.Forall₂ (fun f s => Strand.Follows o.filled vars f.1 f.2 s) c.markedFunctions strands ∧
      (Net.controlFlow o.labels (some n)).chains =
        ((c.markedFunctions.zip strands).filter fun x => x.1.2.hasChain x.1.1).map (·.2.chain) ∧
      (Net.controlFlow o.labels (some n)).branching = [] ∧
      (Net.controlFlow o.labels (some n)).unreachable = [] ∧
      (Net.controlFlow o.labels (some n)).longest =
        (c.allFunctions.map (·.steps.length)).foldl max 0 := by
  obtain ⟨b, hb, hpage⟩ := Net.exists_blueprint h
  have hids : [] ∉ (b.page o.filled.pageId).ids :=
    (Page.faultless_identity_iff.1 (Net.faultless_identity h hpage o.filled.labels)).1
  have hflow : Net.controlFlow o.labels (some n) =
      (b.page o.filled.pageId).controlFlow o.filled.labels := by
    simp only [Net.controlFlow, Option.bind_some, hpage, NetOptions.filled_labels]
  rw [hflow]
  exact ⟨b.page o.filled.pageId, b.vars, b.strands, hpage, rfl, rfl, hb.vars, hb.strands,
    hb.chains_eq hdata hunit hids, hb.branching_eq_nil hdata hunit,
    hb.unreachable_eq_nil hdata hunit hids, hb.longest_eq hdata hunit hids⟩

/-- A contract whose constructor does nothing, with a function that only calls. -/
def Contract.faucet : Contract where
  name := "Faucet"
  stateVariables := [{ name := "left", type := "uint256", initial := "100", visibility := "public" }]
  constructor := some { name := "constructor", visibility := "public" }
  functions := [
    { name := "ping"
      visibility := "public"
      body := [.call { name := "log", arguments := none, line := 4 }] },
    { name := "draw"
      visibility := "public"
      body := [
        .conditional { kind := "require", condition := "left > 0", startLine := 7 },
        .operation { target := "left", expression := "left - 1", operator := "=" }] }]

theorem Net.controlFlow_ofContract_faucet :
    ∃ n, Net.ofContract {} (some Contract.faucet) = .ok n ∧
      (Net.controlFlow ({} : NetOptions).labels (some n)).chains.map (·.transitions.length) =
        [0, 2] ∧
      (Net.controlFlow ({} : NetOptions).labels (some n)).unreachable = [] ∧
      (Net.controlFlow ({} : NetOptions).labels (some n)).longest = 2 := by
  have hdata : Contract.faucet.DataApart ({} : NetOptions).filled := by
    intro op hop _
    have : op = { target := "left", expression := "left - 1", operator := "=" } := by
      simpa [Contract.steps, Contract.faucet, Contract.allFunctions, Function.steps,
        Statement.isStep] using hop
    subst this
    decide +kernel
  refine ⟨_, rfl, ?_⟩
  obtain ⟨p, vars, strands, -, -, -, -, hstrands, hchains, -, hunreachable, hlongest⟩ :=
    Net.controlFlow_ofContract (o := {}) (c := Contract.faucet) rfl (by decide) hdata
  refine ⟨?_, hunreachable, hlongest⟩
  rw [hchains]
  obtain ⟨s₁, ss₁, h₁, hss₁, rfl⟩ := List.forall₂_cons_left_iff.1 hstrands
  obtain ⟨s₂, ss₂, h₂, hss₂, rfl⟩ := List.forall₂_cons_left_iff.1 hss₁
  obtain ⟨s₃, ss₃, h₃, hss₃, rfl⟩ := List.forall₂_cons_left_iff.1 hss₂
  have hlength₁ : s₁.links.length = 0 := h₁.shows.length_eq.symm
  have hlength₃ : s₃.links.length = 2 := h₃.shows.length_eq.symm
  change [s₁.chain.transitions.length, s₃.chain.transitions.length] = [0, 2]
  simp [Strand.chain, Strand.transitions, hlength₁, hlength₃]

end ContractNet

import ContractNet.Proofs.Net.Blueprint
import ContractNet.Proofs.Results
import Mathlib.Data.List.Nodup
import Mathlib.Data.List.Pairwise

/-!
# The wiring of compiled nets

Which arcs touch which nodes.  All of it follows from the blueprint of a net and from its ids
being different: a control arc joins a transition with a place of its own strand, a data arc joins
it with the place of a variable.

* `Blueprint.Realizes.filter_touchedBy`: the arcs at the places of a strand are its control arcs;
* `Blueprint.Realizes.filter_touches`: the arcs at a transition are those of its link;
* `Net.ofContract_skeleton`: the control skeleton of a compiled net.
-/

namespace ContractNet

/-- The arc joins the place `q` with the transition `t`, in one direction or the other. -/
def Arc.Joins (a : Arc) (q t : Text) : Prop :=
  (a.source = q ∧ a.target = t) ∨ (a.source = t ∧ a.target = q)

/-- The node is an end of the arc. -/
def Arc.touches (a : Arc) (id : Text) : Bool := a.source = id || a.target = id

/-- A place of the strand is an end of the arc. -/
def Strand.touchedBy (s : Strand) (a : Arc) : Bool := s.places.any fun q => a.touches q.id

/-- No place belongs to both strands. -/
def Strand.Apart (s s' : Strand) : Prop := ∀ q ∈ s.places, ∀ q' ∈ s'.places, q.id ≠ q'.id

instance : Std.Symm Strand.Apart := ⟨fun _ _ h q hq q' hq' => (h q' hq' q hq).symm⟩

theorem Arc.Joins.touches_iff {a : Arc} {q t : Text} (h : a.Joins q t) (id : Text) :
    a.touches id = true ↔ q = id ∨ t = id := by
  rcases h with ⟨rfl, rfl⟩ | ⟨rfl, rfl⟩
  · simp [Arc.touches]
  · simp [Arc.touches, or_comm]

/-! ### Lists -/

theorem forall_mem_iff_of_forall₂ {α β : Type} {R : α → β → Prop} {P : β → Prop} {Q : α → Prop}
    {as : List α} {bs : List β} (h : List.Forall₂ R as bs) (hR : ∀ a b, R a b → (P b ↔ Q a)) :
    (∀ b ∈ bs, P b) ↔ ∀ a ∈ as, Q a := by
  induction h with
  | nil => simp
  | cons hr _ ih =>
    rw [List.forall_mem_cons, List.forall_mem_cons]
    exact and_congr (hR _ _ hr) ih

/-- If only `a` yields anything, the list yields what `a` yields. -/
theorem flatMap_eq_of_nodup {α β : Type} {f : α → List β} {l : List α} (hl : l.Nodup) {a : α}
    (ha : a ∈ l) (h : ∀ x ∈ l, x ≠ a → f x = []) : l.flatMap f = f a := by
  induction l with
  | nil => cases ha
  | cons x l ih =>
    obtain ⟨hx, hl⟩ := List.nodup_cons.1 hl
    rw [List.flatMap_cons]
    by_cases he : x = a
    · subst he
      have hnil : l.flatMap f = [] := List.flatMap_eq_nil_iff.2 fun y hy =>
        h y (List.mem_cons_of_mem _ hy) fun e => hx (e ▸ hy)
      rw [hnil, List.append_nil]
    · have ha : a ∈ l := (List.mem_cons.1 ha).resolve_left (Ne.symm he)
      rw [h x List.mem_cons_self he, List.nil_append]
      exact ih hl ha fun y hy => h y (List.mem_cons_of_mem _ hy)

/-! ### The arcs of links and strands -/

section Link

variable {o : NetOptions} {vars : List Place} {f : Text} {st : Statement} {k : Link}

theorem mem_of_lastNamed? {name id : Text} (h : Draft.lastNamed? vars name = some id) :
    ∃ q ∈ vars, q.id = id := by
  obtain ⟨q, hq, rfl⟩ := Option.map_eq_some_iff.1 h
  exact ⟨q, List.mem_reverse.1 (List.mem_of_find?_eq_some hq), rfl⟩

theorem Link.Shows.enter_joins (h : k.Shows o vars f st) :
    k.enter.Joins k.before k.transition.id :=
  .inl ⟨congrArg Prod.fst h.enter, congrArg (·.2.1) h.enter⟩

theorem Link.Shows.leave_joins (h : k.Shows o vars f st) :
    k.leave.Joins k.after.id k.transition.id :=
  .inr ⟨congrArg Prod.fst h.leave, congrArg (·.2.1) h.leave⟩

theorem Link.Shows.data_joins (h : k.Shows o vars f st) {a : Arc} (ha : a ∈ k.data) :
    ∃ q ∈ vars, a.Joins q.id k.transition.id := by
  have hends : a.ends ∈ st.dataEnds o vars k.transition.id :=
    h.data ▸ List.mem_map_of_mem ha
  cases st with
  | operation op =>
    simp only [Statement.dataEnds] at hends
    split at hends
    · rename_i p hp
      obtain ⟨q, hq, rfl⟩ := mem_of_lastNamed? hp
      refine ⟨q, hq, ?_⟩
      rcases List.mem_pair.1 hends with he | he
      · exact .inl ⟨congrArg Prod.fst he, congrArg (·.2.1) he⟩
      · exact .inr ⟨congrArg Prod.fst he, congrArg (·.2.1) he⟩
    · cases hends
  | _ => cases hends

theorem Linked.before_mem {q : Text} {ks : List Link} (h : Linked q ks) (hk : k ∈ ks) :
    k.before ∈ q :: ks.map (·.after.id) := by
  induction ks generalizing q with
  | nil => cases hk
  | cons k' ks ih =>
    rcases List.mem_cons.1 hk with rfl | hk
    · exact h.1 ▸ List.mem_cons_self
    · exact List.mem_cons_of_mem _ (ih h.2 hk)

end Link

namespace Strand.Follows

variable {o : NetOptions} {vars : List Place} {marked : Bool} {f : Function} {s : Strand}

theorem shows_of_mem (h : s.Follows o vars marked f) {k : Link} (hk : k ∈ s.links) :
    ∃ st ∈ f.steps, k.Shows o vars f.name st := exists_left_of_mem h.shows hk

theorem before_mem (h : s.Follows o vars marked f) {k : Link} (hk : k ∈ s.links) :
    ∃ q ∈ s.places, k.before = q.id := by
  have := h.linked.before_mem hk
  simp only [List.mem_cons, List.mem_map] at this
  rcases this with hq | ⟨k', hk', hq⟩
  · exact ⟨s.entry, List.mem_cons_self, hq⟩
  · exact ⟨k'.after, List.mem_cons_of_mem _ (List.mem_map_of_mem hk'), hq.symm⟩

/-- An arc of a link joins its transition with a place of the strand or with the place of a
variable. -/
theorem joins_of_mem_link (h : s.Follows o vars marked f) {k : Link} (hk : k ∈ s.links) {a : Arc}
    (ha : a ∈ k.arcs) : ∃ q ∈ vars ++ s.places, a.Joins q.id k.transition.id := by
  obtain ⟨st, -, hshows⟩ := h.shows_of_mem hk
  simp only [Link.arcs, List.mem_cons, List.mem_append, List.not_mem_nil, or_false] at ha
  rcases ha with rfl | ha | rfl
  · obtain ⟨q, hq, he⟩ := h.before_mem hk
    exact ⟨q, List.mem_append_right _ hq, he ▸ hshows.enter_joins⟩
  · obtain ⟨q, hq, hj⟩ := hshows.data_joins ha
    exact ⟨q, List.mem_append_left _ hq, hj⟩
  · exact ⟨k.after, List.mem_append_right _ (List.mem_cons_of_mem _ (List.mem_map_of_mem hk)),
      hshows.leave_joins⟩

theorem joins_of_mem_arcs (h : s.Follows o vars marked f) {a : Arc} (ha : a ∈ s.arcs) :
    ∃ q ∈ vars ++ s.places, ∃ t ∈ s.transitions, a.Joins q.id t.id := by
  obtain ⟨k, hk, ha⟩ := List.mem_flatMap.1 ha
  obtain ⟨q, hq, hj⟩ := h.joins_of_mem_link hk ha
  exact ⟨q, hq, k.transition, List.mem_map_of_mem hk, hj⟩

end Strand.Follows

/-! ### The arcs of a page -/

namespace Blueprint.Realizes

variable {o : NetOptions} {c : Contract} {b : Blueprint}

theorem follows_of_mem (hb : b.Realizes o c) {s : Strand} (hs : s ∈ b.strands) :
    ∃ f ∈ c.markedFunctions, s.Follows o b.vars f.1 f.2 := exists_left_of_mem hb.strands hs

theorem nodup_placeIds (hb : b.Realizes o c) : ((b.page o.pageId).places.map (·.id)).Nodup :=
  (List.nodup_append.1 (List.nodup_append.1 hb.nodup).1).1

theorem nodup_transitionIds (hb : b.Realizes o c) :
    ((b.page o.pageId).transitions.map (·.id)).Nodup :=
  (List.nodup_append.1 (List.nodup_append.1 hb.nodup).1).2.1

theorem place_ne_transition (hb : b.Realizes o c) {q : Place} {t : Transition}
    (hq : q ∈ (b.page o.pageId).places) (ht : t ∈ (b.page o.pageId).transitions) : q.id ≠ t.id :=
  (List.nodup_append.1 (List.nodup_append.1 hb.nodup).1).2.2 _ (List.mem_map_of_mem hq) _
    (List.mem_map_of_mem ht)

theorem var_ne_place (hb : b.Realizes o c) {q q' : Place} {s : Strand} (hq : q ∈ b.vars)
    (hs : s ∈ b.strands) (hq' : q' ∈ s.places) : q.id ≠ q'.id := by
  have hnd := hb.nodup_placeIds
  simp only [page, List.map_append] at hnd
  exact (List.nodup_append.1 hnd).2.2 _ (List.mem_map_of_mem hq) _
    (List.mem_map_of_mem (List.mem_flatMap.2 ⟨s, hs, hq'⟩))

theorem strands_apart (hb : b.Realizes o c) :
    b.strands.Pairwise Strand.Apart := by
  have hnd := hb.nodup_placeIds
  simp only [page, List.map_append, List.map_flatMap] at hnd
  have hpair := (List.nodup_flatMap.1 (List.nodup_append.1 hnd).2.1).2
  refine hpair.imp fun hdisj q hq q' hq' he => ?_
  exact hdisj (List.mem_map_of_mem hq) (he ▸ List.mem_map_of_mem hq')

theorem nodup_strands (hb : b.Realizes o c) : b.strands.Nodup := by
  -- a strand has an entry, so it is not apart from itself
  refine hb.strands_apart.imp fun {s s'} h he => ?_
  subst he
  exact h s.entry List.mem_cons_self s.entry List.mem_cons_self rfl

theorem place_mem {s : Strand} (hs : s ∈ b.strands) {q : Place} (hq : q ∈ b.vars ++ s.places) :
    q ∈ (b.page o.pageId).places := by
  rcases List.mem_append.1 hq with hq | hq
  · exact List.mem_append_left _ hq
  · exact List.mem_append_right _ (List.mem_flatMap.2 ⟨s, hs, hq⟩)

theorem transition_mem {s : Strand} (hs : s ∈ b.strands) {t : Transition}
    (ht : t ∈ s.transitions) : t ∈ (b.page o.pageId).transitions :=
  List.mem_flatMap.2 ⟨s, hs, ht⟩

/-- An arc to or from a place touches a strand if the place belongs to it. -/
theorem touchedBy_iff (hb : b.Realizes o c) {s : Strand} (hs : s ∈ b.strands) {a : Arc} {q : Text}
    {t : Transition} (ht : t ∈ (b.page o.pageId).transitions) (ha : a.Joins q t.id) :
    s.touchedBy a = true ↔ ∃ q' ∈ s.places, q'.id = q := by
  simp only [Strand.touchedBy, List.any_eq_true]
  refine exists_congr fun q' => and_congr_right fun hq' => ?_
  have hne : q'.id ≠ t.id := hb.place_ne_transition (place_mem hs (List.mem_append_right _ hq')) ht
  rw [ha.touches_iff]
  exact ⟨fun h => (h.resolve_right hne.symm).symm, fun h => .inl h.symm⟩

/-- The arcs of a link that touch its strand are those that control takes. -/
theorem filter_link_touchedBy (hb : b.Realizes o c) {s : Strand} (hs : s ∈ b.strands) {k : Link}
    (hk : k ∈ s.links) : k.arcs.filter s.touchedBy = k.control := by
  obtain ⟨f, -, hf⟩ := hb.follows_of_mem hs
  obtain ⟨st, -, hshows⟩ := hf.shows_of_mem hk
  have ht := transition_mem (o := o) hs (List.mem_map_of_mem hk)
  have henter : s.touchedBy k.enter = true := by
    obtain ⟨q, hq, he⟩ := hf.before_mem hk
    exact (hb.touchedBy_iff hs ht hshows.enter_joins).2 ⟨q, hq, he.symm⟩
  have hleave : s.touchedBy k.leave = true :=
    (hb.touchedBy_iff hs ht hshows.leave_joins).2
      ⟨k.after, List.mem_cons_of_mem _ (List.mem_map_of_mem hk), rfl⟩
  have hdata : k.data.filter s.touchedBy = [] := by
    refine List.filter_eq_nil_iff.2 fun a ha htouch => ?_
    obtain ⟨q, hq, hj⟩ := hshows.data_joins ha
    obtain ⟨q', hq', he⟩ := (hb.touchedBy_iff hs ht hj).1 htouch
    exact hb.var_ne_place hq hs hq' he.symm
  simp [Link.arcs, Link.control, henter, hleave, hdata]

/-- **The arcs at the places of a strand are its control arcs.** -/
theorem filter_touchedBy (hb : b.Realizes o c) {s : Strand} (hs : s ∈ b.strands) :
    (b.page o.pageId).arcs.filter s.touchedBy = s.links.flatMap Link.control := by
  have hown : s.arcs.filter s.touchedBy = s.links.flatMap Link.control := by
    rw [Strand.arcs, List.filter_flatMap]
    exact List.flatMap_congr fun k hk => hb.filter_link_touchedBy hs hk
  have hothers : ∀ s' ∈ b.strands, s' ≠ s → s'.arcs.filter s.touchedBy = [] := by
    intro s' hs' hne
    obtain ⟨f, -, hf⟩ := hb.follows_of_mem hs'
    refine List.filter_eq_nil_iff.2 fun a ha htouch => ?_
    obtain ⟨q, hq, t, ht, hj⟩ := hf.joins_of_mem_arcs ha
    obtain ⟨q', hq', he⟩ := (hb.touchedBy_iff hs (transition_mem hs' ht) hj).1 htouch
    -- a data arc ends at the place of a variable, a control arc at a place of its own strand
    rcases List.mem_append.1 hq with hq | hq
    · exact hb.var_ne_place hq hs hq' he.symm
    · exact hb.strands_apart.forall hs' hs hne q hq q' hq' he.symm
  change (b.strands.flatMap Strand.arcs).filter s.touchedBy = _
  rw [List.filter_flatMap, flatMap_eq_of_nodup hb.nodup_strands hs hothers, hown]

/-! ### The arcs of a transition -/

/-- An arc of a link joins its transition with a place of the page. -/
theorem joins_of_mem_link (hb : b.Realizes o c) {k : Link} (hk : k ∈ b.links) {a : Arc}
    (ha : a ∈ k.arcs) : ∃ q ∈ (b.page o.pageId).places, a.Joins q.id k.transition.id := by
  obtain ⟨s, hs, hk⟩ := List.mem_flatMap.1 hk
  obtain ⟨f, -, hf⟩ := hb.follows_of_mem hs
  obtain ⟨q, hq, hj⟩ := hf.joins_of_mem_link hk ha
  exact ⟨q, place_mem hs hq, hj⟩

theorem nodup_linkIds (hb : b.Realizes o c) : (b.links.map (·.transition.id)).Nodup := by
  have := hb.nodup_transitionIds
  rwa [page_transitions, List.map_map] at this

/-- **The arcs at a transition are those of its link.** -/
theorem filter_touches (hb : b.Realizes o c) {k : Link} (hk : k ∈ b.links) :
    (b.page o.pageId).arcs.filter (·.touches k.transition.id) = k.arcs := by
  have hmem : ∀ k' ∈ b.links, k'.transition ∈ (b.page o.pageId).transitions := fun k' hk' =>
    page_transitions b o.pageId ▸ List.mem_map_of_mem hk'
  have htouch : ∀ k' ∈ b.links, ∀ a ∈ k'.arcs,
      (a.touches k.transition.id = true ↔ k'.transition.id = k.transition.id) := by
    intro k' hk' a ha
    obtain ⟨q, hq, hj⟩ := hb.joins_of_mem_link hk' ha
    rw [hj.touches_iff]
    exact or_iff_right (hb.place_ne_transition hq (hmem k hk))
  have hothers : ∀ k' ∈ b.links, k' ≠ k →
      k'.arcs.filter (·.touches k.transition.id) = [] := by
    intro k' hk' hne
    refine List.filter_eq_nil_iff.2 fun a ha h => hne ?_
    exact List.inj_on_of_nodup_map hb.nodup_linkIds hk' hk ((htouch k' hk' a ha).1 h)
  rw [page_arcs, List.filter_flatMap,
    flatMap_eq_of_nodup hb.nodup_linkIds.of_map hk hothers]
  exact List.filter_eq_self.2 fun a ha => (htouch k hk a ha).2 rfl

end Blueprint.Realizes

/-! ### The control skeleton -/

/-- **The control skeleton of a compiled net.**  First stand the places of the variables, then for
each function, the constructor first, a strand: its entry, marked for the constructor only, and for
each statement that takes a step of control its transition and the place after it.  The arcs at the
places of a strand are, for each of its statements, one from the place before to the transition and
one from there to the place after. -/
theorem Net.ofContract_skeleton {o : NetOptions} {c : Contract} {n : Net}
    (h : Net.ofContract o (some c) = .ok n) :
    ∃ (p : Page) (vars : List Place) (strands : List Strand), n.page = some p ∧
      p.places = vars ++ strands.flatMap Strand.places ∧
      p.transitions = strands.flatMap Strand.transitions ∧
      p.ids.Nodup ∧
      List.Forall₂ StateVariable.HeldBy c.stateVariables vars ∧
      List.Forall₂ (fun f s => Strand.Follows o.filled vars f.1 f.2 s) c.markedFunctions strands ∧
      ∀ s ∈ strands, p.arcs.filter s.touchedBy = s.links.flatMap Link.control := by
  obtain ⟨b, hb, hpage⟩ := Net.exists_blueprint h
  exact ⟨b.page o.filled.pageId, b.vars, b.strands, hpage, rfl, rfl, hb.nodup, hb.vars, hb.strands,
    fun s hs => hb.filter_touchedBy hs⟩

/-- A contract with a constructor, a guard, a call and assignments. -/
def Contract.counter : Contract where
  name := "Counter"
  stateVariables := [{ name := "count", type := "uint256", initial := "0", visibility := "public" }]
  constructor := some {
    name := "constructor"
    visibility := "public"
    body := [.operation { target := "count", expression := "1", operator := "=" }] }
  functions := [{
    name := "increment"
    visibility := "public"
    body := [
      .conditional { kind := "require", condition := "count < 10, full", startLine := 7 },
      .call { name := "log", arguments := none, line := 8 },
      .operation { target := "count", expression := "count + step", operator := "=" }] }]

theorem Net.ofContract_skeleton_counter :
    ∃ n, Net.ofContract {} (some Contract.counter) = .ok n ∧
      ∃ (p : Page) (vars : List Place) (strands : List Strand), n.page = some p ∧
        p.places = vars ++ strands.flatMap Strand.places ∧
        vars.length = 1 ∧ strands.map (·.links.length) = [1, 2] ∧
        ∀ s ∈ strands, p.arcs.filter s.touchedBy = s.links.flatMap Link.control := by
  refine ⟨_, rfl, ?_⟩
  obtain ⟨p, vars, strands, hp, hplaces, -, -, hvars, hstrands, harcs⟩ :=
    Net.ofContract_skeleton (o := {}) (c := Contract.counter) rfl
  refine ⟨p, vars, strands, hp, hplaces, hvars.length_eq.symm, ?_, harcs⟩
  cases hstrands with
  | cons h₁ hs =>
    cases hs with
    | cons h₂ hs =>
      cases hs
      rw [List.map_cons, List.map_cons, ← h₁.shows.length_eq, ← h₂.shows.length_eq]
      decide

end ContractNet

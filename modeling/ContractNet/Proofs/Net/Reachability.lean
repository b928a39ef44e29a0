import ContractNet.Proofs.Net.Search
import Mathlib.Data.List.Forall2

/-!
# Control flow and reachability

On any page, whatever its arcs join, the analysis of the control flow tells which transitions
control can reach from where.

* `Page.Leads`, `Page.Reaches` and `Page.Starts` say by arcs and markings how control moves on and
  where it starts;
* `Page.mem_reached`: the search from a node finds what can be reached from it;
* `Page.chain_explores`: the chain of an entry is an exact search from it;
* `Net.controlFlow_exact`: the chains and the unreachable transitions of any net.
-/

namespace ContractNet

open Relation

namespace Page

variable (p : Page) (l : Labels)

/-- A control arc leads from `x` to `y`. -/
def Leads (x y : Text) : Prop :=
  ∃ a ∈ p.arcs, a.inscription = l.control ∧ a.source = x ∧ a.target = y

/-- Control arcs lead from `x` to `y`, one after the other. -/
def Reaches : Text → Text → Prop := ReflTransGen (p.Leads l)

/-- Control starts from the place: a control arc leaves it or it holds the token of control, and no
control arc leads to it. -/
def Starts (q : Place) : Prop :=
  ((∃ a ∈ p.arcs, a.inscription = l.control ∧ a.source = q.id) ∨ q.marking = some l.unit) ∧
    ∀ a ∈ p.arcs, a.inscription = l.control → a.target ≠ q.id

instance : DecidablePred (p.Starts l) := fun q =>
  inferInstanceAs (Decidable (((∃ a ∈ p.arcs, a.inscription = l.control ∧ a.source = q.id) ∨
    q.marking = some l.unit) ∧ ∀ a ∈ p.arcs, a.inscription = l.control → a.target ≠ q.id))

variable {p l}

/-! ### The search along control arcs -/

theorem mem_controlNext {x y : Text} : y ∈ p.controlNext l x ↔ p.Leads l x y := by
  simp only [controlNext, controlArcs, Leads, List.mem_map, List.mem_filter, decide_eq_true_iff,
    and_assoc]

theorem edge_controlNext (p : Page) (l : Labels) : Edge (p.controlNext l) = p.Leads l := by
  funext x y
  exact propext mem_controlNext

/-- What is reached from a node is the node itself or the target of an arc. -/
theorem Reaches.mem_targets {x y : Text} (h : p.Reaches l x y) :
    y ∈ x :: p.arcs.map (·.target) := by
  cases h with
  | refl => exact List.mem_cons_self
  | tail _ hstep =>
    obtain ⟨a, ha, -, -, rfl⟩ := hstep
    exact List.mem_cons_of_mem _ (List.mem_map_of_mem ha)

/-- **The search from a node** ends with nothing left to expand. -/
theorem iterate_reached (p : Page) (l : Labels) (x : Text) :
    (Search.step (p.controlNext l))^[p.arcs.length + 1] (Search.start x) =
      ⟨p.reached l x, []⟩ := by
  have hwaiting := (Search.sound_start (p.controlNext l) x).waiting_iterate
    (x :: p.arcs.map (·.target)) (fun y hy => Reaches.mem_targets (edge_controlNext p l ▸ hy))
    (k := p.arcs.length + 1) (by simp [Search.start])
  have hdone := Search.done_iterate (p.controlNext l) (p.arcs.length + 1) (Search.start x)
  generalize (Search.step (p.controlNext l))^[p.arcs.length + 1] (Search.start x) = s
    at hwaiting hdone
  obtain ⟨done, waiting⟩ := s
  obtain rfl : waiting = [] := hwaiting
  obtain rfl : done = p.reached l x := hdone
  rfl

theorem sound_reached (p : Page) (l : Labels) (x : Text) :
    (⟨p.reached l x, []⟩ : Search).Sound (p.controlNext l) x :=
  iterate_reached p l x ▸ (Search.sound_start (p.controlNext l) x).iterate _

theorem mem_reached {x y : Text} : y ∈ p.reached l x ↔ p.Reaches l x y := by
  rw [Reaches, ← edge_controlNext]
  exact (sound_reached p l x).mem_done_iff rfl

instance (p : Page) (l : Labels) (x y : Text) : Decidable (p.Reaches l x y) :=
  decidable_of_iff ((p.reached l x).contains y = true) (List.contains_iff_mem.trans mem_reached)

theorem nodup_reached (p : Page) (l : Labels) (x : Text) : (p.reached l x).Nodup := by
  have h := (sound_reached p l x).nodup
  rwa [Search.seen, List.append_nil] at h

theorem sorted_reached (p : Page) (l : Labels) (x : Text) :
    (p.reached l x).Pairwise fun y z => distance (p.Leads l) x y ≤ distance (p.Leads l) x z := by
  have h := (sound_reached p l x).sorted
  rwa [Search.seen, List.append_nil, edge_controlNext] at h

/-! ### Entries and chains -/

theorem isTransition_iff {x : Text} : p.isTransition x = true ↔ x ∈ p.transitions.map (·.id) := by
  simp [isTransition]

theorem isEntry_iff_starts {q : Place} : p.isEntry l q = true ↔ p.Starts l q := by
  simp only [isEntry, Starts, controlArcs, holdsUnit, List.any_filter, Bool.and_eq_true,
    Bool.or_eq_true, Bool.not_eq_true', List.any_eq_true, List.any_eq_false, decide_eq_true_iff,
    not_and]
  exact and_comm

theorem entries_eq_filter (p : Page) (l : Labels) :
    p.entries l = p.places.filter (p.Starts l) :=
  List.filter_congr fun q _ => by
    rw [Bool.eq_iff_iff, isEntry_iff_starts, decide_eq_true_iff]

end Page

/-- The chain is an exact search from the place `q`: the search ends, and the transitions that it
comes by are those that control reaches, each once and the near ones first. -/
structure Chain.Explores (p : Page) (l : Labels) (q : Place) (c : Chain) : Prop where
  entry : c.entry = q.id
  ends : ∃ (k : Nat) (order : List Text),
    (Search.step (p.controlNext l))^[k] (Search.start q.id) = ⟨order, []⟩ ∧
      c.transitions = order.filter p.isTransition
  nodup : c.transitions.Nodup
  mem_iff : ∀ t, t ∈ c.transitions ↔ t ∈ p.transitions.map (·.id) ∧ p.Reaches l q.id t
  sorted : c.transitions.Pairwise fun t u =>
    distance (p.Leads l) q.id t ≤ distance (p.Leads l) q.id u

namespace Page

variable {p : Page} {l : Labels}

theorem mem_chain_transitions {q : Place} {t : Text} :
    t ∈ (p.chain l q).transitions ↔ t ∈ p.transitions.map (·.id) ∧ p.Reaches l q.id t := by
  change t ∈ (p.reached l q.id).filter p.isTransition ↔ _
  rw [List.mem_filter, mem_reached, isTransition_iff, and_comm]

/-- **The chain of a place** is an exact search from it. -/
theorem chain_explores (p : Page) (l : Labels) (q : Place) : (p.chain l q).Explores p l q where
  entry := rfl
  ends := ⟨p.arcs.length + 1, p.reached l q.id, iterate_reached p l q.id, rfl⟩
  nodup := (nodup_reached p l q.id).filter _
  mem_iff _ := mem_chain_transitions
  sorted := (sorted_reached p l q.id).filter _

/-- A transition is unreachable if control reaches it from no place that it starts from. -/
theorem unreachable_eq_filter (p : Page) (l : Labels) :
    (p.controlFlow l).unreachable = (p.transitions.map (·.id)).filter fun t =>
      ∀ q ∈ p.places, p.Starts l q → ¬p.Reaches l q.id t := by
  refine List.filter_congr fun t ht => ?_
  rw [Bool.eq_iff_iff, decide_eq_true_iff, Bool.not_eq_true', List.any_eq_false]
  simp only [entries_eq_filter, List.mem_map, List.mem_filter, decide_eq_true_iff,
    List.contains_iff_mem, forall_exists_index, and_imp]
  constructor
  · intro h q hq hstarts hreaches
    exact h _ q hq hstarts rfl (mem_chain_transitions.2 ⟨ht, hreaches⟩)
  · rintro h _ q hq hstarts rfl hmem
    exact h q hq hstarts (mem_chain_transitions.1 hmem).2

end Page

/-! ### The control flow of any net -/

theorem Net.controlFlow_of_page {n : Net} {p : Page} (h : n.page = some p) (l : Labels) :
    Net.controlFlow l (some n) = p.controlFlow l.filled := by
  simp only [Net.controlFlow, Option.bind_some, h]

/-- **The control flow of any net with a page.**  In the order of the page, it has one chain for
each place that control starts from, and each chain is an exact search.  The unreachable transitions
are, in the order of the page, those that control reaches from no such place. -/
theorem Net.controlFlow_exact {n : Net} {p : Page} (h : n.page = some p) (l : Labels) :
    List.Forall₂ (Chain.Explores p l.filled) (p.places.filter (p.Starts l.filled))
        (Net.controlFlow l (some n)).chains ∧
      (Net.controlFlow l (some n)).unreachable = (p.transitions.map (·.id)).filter fun t =>
        ∀ q ∈ p.places, p.Starts l.filled q → ¬p.Reaches l.filled q.id t := by
  rw [Net.controlFlow_of_page h]
  refine ⟨?_, Page.unreachable_eq_filter p l.filled⟩
  change List.Forall₂ _ _ ((p.entries l.filled).map (p.chain l.filled))
  rw [Page.entries_eq_filter, List.forall₂_map_right_iff, List.forall₂_same]
  exact fun q _ => Page.chain_explores p l.filled q

/-- Two entries that meet before a loop, with an arc drawn twice, an arc to nowhere, and a
transition apart. -/
def Page.tangle : Page where
  id := "page1"
  places := [⟨"a", "left", none⟩, ⟨"b", "right", none⟩, ⟨"c", "both", none⟩]
  transitions := [⟨"t", "fromLeft", none⟩, ⟨"u", "fromRight", none⟩, ⟨"v", "again", none⟩,
    ⟨"w", "apart", none⟩]
  arcs := [⟨"1", "a", "t", "()"⟩, ⟨"2", "t", "c", "()"⟩, ⟨"3", "b", "u", "()"⟩,
    ⟨"4", "u", "c", "()"⟩, ⟨"5", "c", "v", "()"⟩, ⟨"6", "c", "v", "()"⟩, ⟨"7", "v", "c", "()"⟩,
    ⟨"8", "v", "nowhere", "()"⟩]

/-- The net with that page. -/
def Net.tangle : Net := { id := "net1", type := coreModelType, page := some Page.tangle }

theorem Net.controlFlow_exact_tangle :
    Net.tangle.page = some Page.tangle ∧
      List.Forall₂ (Chain.Explores Page.tangle Labels.default)
        [⟨"a", "left", none⟩, ⟨"b", "right", none⟩]
        [⟨"a", ["t", "v"], "nowhere"⟩, ⟨"b", ["u", "v"], "nowhere"⟩] ∧
      (Net.controlFlow Labels.default (some Net.tangle)).unreachable = ["w"] := by
  obtain ⟨hchains, hunreachable⟩ :=
    Net.controlFlow_exact (n := Net.tangle) (p := Page.tangle) rfl Labels.default
  have hstarts : Page.tangle.places.filter (Page.tangle.Starts Labels.default.filled) =
      [⟨"a", "left", none⟩, ⟨"b", "right", none⟩] := by decide +kernel
  have hflow : (Net.controlFlow Labels.default (some Net.tangle)).chains =
      [⟨"a", ["t", "v"], "nowhere"⟩, ⟨"b", ["u", "v"], "nowhere"⟩] := by decide +kernel
  rw [hstarts, hflow] at hchains
  exact ⟨rfl, hchains, by rw [hunreachable]; decide +kernel⟩

end ContractNet

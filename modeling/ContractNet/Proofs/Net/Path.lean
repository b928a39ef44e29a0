import ContractNet.Net.ControlFlow
import ContractNet.Proofs.Net.Blueprint

/-!
# Paths of control

Where each node leads to one other node at most, breadth-first search is a walk.  The nodes of a
strand, places and transitions by turns, are such a path.

* `explore_path`: a search along a path visits its nodes in their order;
* `Strand.nodes` are the nodes of a strand, `Strand.chain` is the chain that follows it;
* `Linked.isPath`: links that follow each other are a path if each leads on to the next.
-/

namespace ContractNet

/-! ### Following a path -/

/-- Each node leads to the next one only, and the last one nowhere. -/
def IsPath (next : Text → List Text) : List Text → Prop
  | [] => True
  | [x] => next x = []
  | x :: y :: nodes => next x = [y] ∧ IsPath next (y :: nodes)

theorem explore_nil (next : Text → List Text) (fuel : Nat) (seen : List Text) :
    explore next fuel seen [] = [] := by
  cases fuel <;> rfl

/-- A search along a path visits its nodes in their order. -/
theorem explore_path {next : Text → List Text} {x : Text} {nodes seen : List Text} {fuel : Nat}
    (h : IsPath next (x :: nodes)) (hnd : nodes.Nodup) (hseen : ∀ y ∈ nodes, y ∉ seen)
    (hfuel : nodes.length < fuel) : explore next fuel seen [x] = x :: nodes := by
  induction nodes generalizing x seen fuel with
  | nil =>
    obtain ⟨fuel, rfl⟩ := Nat.exists_eq_add_of_lt hfuel
    have hnext : next x = [] := h
    simp [explore, hnext, explore_nil]
  | cons y nodes ih =>
    obtain ⟨hnext, hpath⟩ := h
    obtain ⟨hy, hnd⟩ := List.nodup_cons.1 hnd
    obtain ⟨hyseen, hseen⟩ := List.forall_mem_cons.1 hseen
    obtain ⟨fuel, rfl⟩ : ∃ f, fuel = f + 1 := ⟨fuel - 1, by simp at hfuel; omega⟩
    have hseen' : ∀ z ∈ nodes, z ∉ seen ++ [y] := by
      intro z hz hmem
      rcases List.mem_append.1 hmem with hmem | hmem
      · exact hseen z hz hmem
      · exact hy (List.mem_singleton.1 hmem ▸ hz)
    have hrest : explore next fuel (seen ++ [y]) [y] = y :: nodes :=
      ih hpath hnd hseen' (by simpa using hfuel)
    -- the next node of the path is the only one that starts to wait
    have hnew : ([y].eraseDups.filter fun n => !seen.contains n) = [y] := by
      simp [List.eraseDups_cons, hyseen]
    rw [explore, hnext, hnew, List.nil_append, hrest]

theorem IsPath.length_next_le {next : Text → List Text} {nodes : List Text}
    (h : IsPath next nodes) : ∀ x ∈ nodes, (next x).length ≤ 1 := by
  induction nodes with
  | nil => simp
  | cons x nodes ih =>
    cases nodes with
    | nil =>
      have hnext : next x = [] := h
      simp [hnext]
    | cons y nodes => exact List.forall_mem_cons.2 ⟨by simp [h.1], ih h.2⟩

/-! ### The nodes of a strand -/

/-- The ids of the nodes in the order of control, from the place `q` on. -/
def controlNodes (q : Text) (ks : List Link) : List Text :=
  q :: ks.flatMap fun k => [k.transition.id, k.after.id]

namespace Strand

variable (s : Strand)

/-- The ids of the nodes in the order of control. -/
def nodes : List Text := controlNodes s.entry.id s.links

/-- The place where control comes to rest. -/
def exit : Place := s.places.getLast (List.cons_ne_nil _ _)

/-- The chain that follows the strand. -/
def chain : Chain where
  entry := s.entry.id
  transitions := s.transitions.map (·.id)
  rest := s.exit.id

end Strand

theorem controlNodes_cons (q : Text) (k : Link) (ks : List Link) :
    controlNodes q (k :: ks) = q :: k.transition.id :: controlNodes k.after.id ks := rfl

theorem length_controlNodes (q : Text) (ks : List Link) :
    (controlNodes q ks).length = 2 * ks.length + 1 := by
  induction ks generalizing q with
  | nil => rfl
  | cons k ks ih =>
    rw [controlNodes_cons, List.length_cons, List.length_cons, ih, List.length_cons]
    omega

/-- The nodes are the places and the transitions. -/
theorem controlNodes_perm (q : Text) (ks : List Link) :
    (controlNodes q ks).Perm ((q :: ks.map (·.after.id)) ++ ks.map (·.transition.id)) := by
  induction ks generalizing q with
  | nil => exact List.Perm.refl _
  | cons k ks ih =>
    rw [controlNodes_cons]
    refine List.Perm.cons q (((ih k.after.id).cons k.transition.id).trans ?_)
    exact List.perm_middle.symm

theorem filter_controlNodes {isTransition : Text → Bool} {q : Text} {ks : List Link}
    (hq : isTransition q = false)
    (hks : ∀ k ∈ ks, isTransition k.transition.id = true ∧ isTransition k.after.id = false) :
    (controlNodes q ks).filter isTransition = ks.map (·.transition.id) := by
  induction ks generalizing q with
  | nil => simp [controlNodes, hq]
  | cons k ks ih =>
    obtain ⟨hk, hks⟩ := List.forall_mem_cons.1 hks
    rw [controlNodes_cons, List.filter_cons_of_neg (by simp [hq]),
      List.filter_cons_of_pos (by simp [hk.1]), ih hk.2 hks, List.map_cons]

/-- The id of the last place after linked links. -/
def lastPlace (q : Text) (ks : List Link) : Text :=
  (q :: ks.map (·.after.id)).getLast (List.cons_ne_nil _ _)

theorem lastPlace_cons (q : Text) (k : Link) (ks : List Link) :
    lastPlace q (k :: ks) = lastPlace k.after.id ks := rfl

theorem Strand.map_id_places (s : Strand) :
    s.places.map (·.id) = s.entry.id :: s.links.map (·.after.id) := by
  simp [Strand.places, Function.comp_def]

theorem Strand.exit_id (s : Strand) : s.exit.id = lastPlace s.entry.id s.links := by
  simp only [lastPlace, ← s.map_id_places, List.getLast_map]
  rfl

theorem Strand.exit_mem (s : Strand) : s.exit ∈ s.places := List.getLast_mem _

/-- The link leads from the place before it to its transition only, and from there to the place
after it only. -/
structure Link.Leads (next : Text → List Text) (k : Link) : Prop where
  enter : next k.before = [k.transition.id]
  leave : next k.transition.id = [k.after.id]

namespace Linked

variable {next : Text → List Text} {isTransition : Text → Bool} {q : Text} {ks : List Link}

theorem isPath (h : Linked q ks) (hleads : ∀ k ∈ ks, k.Leads next)
    (hlast : next (lastPlace q ks) = []) : IsPath next (controlNodes q ks) := by
  induction ks generalizing q with
  | nil => exact hlast
  | cons k ks ih =>
    obtain ⟨rfl, hlinked⟩ := h
    obtain ⟨hk, hks⟩ := List.forall_mem_cons.1 hleads
    exact ⟨hk.enter, hk.leave, ih hlinked hks hlast⟩

/-- The places from which links start are all but the last one. -/
theorem map_before (h : Linked q ks) :
    ks.map (·.before) = (q :: ks.map (·.after.id)).dropLast := by
  induction ks generalizing q with
  | nil => rfl
  | cons k ks ih =>
    obtain ⟨rfl, hlinked⟩ := h
    rw [List.map_cons, ih hlinked]
    rfl

/-- Control rests at the last place first. -/
theorem find?_controlNodes (h : Linked q ks) (hleads : ∀ k ∈ ks, k.Leads next)
    (hks : ∀ k ∈ ks, isTransition k.transition.id = true) {P : Text → Bool}
    (hP : ∀ x, P x = true → isTransition x = false ∧ next x = [])
    (hlast : P (lastPlace q ks) = true) :
    (controlNodes q ks).find? P = some (lastPlace q ks) := by
  induction ks generalizing q with
  | nil => exact List.find?_cons_of_pos hlast
  | cons k ks ih =>
    obtain ⟨rfl, hlinked⟩ := h
    obtain ⟨hlead, hleads⟩ := List.forall_mem_cons.1 hleads
    obtain ⟨hk, hks⟩ := List.forall_mem_cons.1 hks
    -- neither node of the first link is a place that nothing leaves
    have hbefore : ¬P k.before = true := fun hp => by
      have := (hP _ hp).2
      rw [hlead.enter] at this
      cases this
    have htransition : ¬P k.transition.id = true := fun hp => by
      have := (hP _ hp).1
      rw [hk] at this
      cases this
    rw [controlNodes_cons, List.find?_cons_of_neg hbefore, List.find?_cons_of_neg htransition,
      ih hlinked hleads hks hlast, lastPlace_cons]

end Linked

/-- The places of a strand are those from which its links start and its exit. -/
theorem Strand.Follows.map_before_concat {o : NetOptions} {vars : List Place} {marked : Bool}
    {f : Function} {s : Strand} (h : s.Follows o vars marked f) :
    s.links.map (·.before) ++ [s.exit.id] = s.places.map (·.id) := by
  rw [h.linked.map_before, s.exit_id, lastPlace, List.dropLast_append_getLast, s.map_id_places]

end ContractNet

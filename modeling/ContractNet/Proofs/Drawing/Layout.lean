import ContractNet.Drawing.Svg
import ContractNet.Proofs.Net.Reachability

/-!
# Which nodes are laid out

A layout is a finite map from ids to spots that only grows.  Each row is filled by a search along
control arcs, which goes on from the nodes that have a spot already; it follows the ids that arcs
name and does not ask whether they are those of nodes.

* `Layout.mem_nodes_put`, `Layout.nodup_nodes_put`: the map after one entry;
* `Filling.Sound.step`: filling a row is a search, step by step (`Filling.search_step`);
* `Filling.iterate_start`: whatever the page, a row is finished after one step for each arc and one
  more;
* `mem_nodes_layout`: the nodes of a layout are those of the page and what its rows reach;
* `Net.layout_nodes`: when these are the nodes of the page only, and which arcs are drawn.
-/

namespace ContractNet

open Relation

namespace Drawing

/-! ### Layouts as maps -/

namespace Layout

variable {l : Layout} {id x : Text} {s : Spot}

/-- The nodes that have a spot. -/
def nodes (l : Layout) : List Text := l.map Prod.fst

theorem has_iff : l.has x = true ↔ x ∈ l.nodes := by
  rw [has, spot?, List.lookup_isSome_iff, nodes, List.mem_map]
  exact exists_congr fun e => and_congr_right fun _ => by rw [beq_iff_eq, eq_comm]

theorem has_eq_false_iff : l.has x = false ↔ x ∉ l.nodes := by
  rw [← has_iff, Bool.not_eq_true]

/-- A new entry goes to the end. -/
theorem put_of_notMem (h : id ∉ l.nodes) : l.put id s = l ++ [(id, s)] := by
  rw [put, has_eq_false_iff.2 h]
  rfl

theorem nodes_append (l l' : Layout) : nodes (l ++ l') = l.nodes ++ nodes l' := List.map_append

theorem nodes_put_of_notMem (h : id ∉ l.nodes) : (l.put id s).nodes = l.nodes ++ [id] := by
  rw [put_of_notMem h, nodes_append]
  rfl

/-- An entry in place of an old one is for the same node. -/
theorem nodes_put_of_mem (h : id ∈ l.nodes) : (l.put id s).nodes = l.nodes := by
  rw [put, if_pos (has_iff.2 h), nodes, List.map_map]
  refine List.map_congr_left fun e _ => ?_
  by_cases he : e.1 = id
  · simp [he]
  · simp [he]

theorem mem_nodes_put : x ∈ (l.put id s).nodes ↔ x ∈ l.nodes ∨ x = id := by
  by_cases h : id ∈ l.nodes
  · rw [nodes_put_of_mem h]
    exact ⟨.inl, fun hx => hx.elim (fun hx => hx) fun he => he ▸ h⟩
  · simp [nodes_put_of_notMem h]

theorem nodup_nodes_put (h : l.nodes.Nodup) (id : Text) (s : Spot) :
    (l.put id s).nodes.Nodup := by
  by_cases hid : id ∈ l.nodes
  · rwa [nodes_put_of_mem hid]
  · rw [nodes_put_of_notMem hid]
    exact List.concat_eq_append ▸ h.concat hid

/-- The nodes after several entries. -/
theorem nodes_foldl_put {α : Type} (key : α → Text) (spot : α → Spot) (as : List α)
    (hl : l.nodes.Nodup) :
    (as.foldl (fun l a => Layout.put l (key a) (spot a)) l).nodes.Nodup ∧
      ∀ x, x ∈ (as.foldl (fun l a => Layout.put l (key a) (spot a)) l).nodes ↔
        x ∈ l.nodes ∨ x ∈ as.map key := by
  induction as generalizing l with
  | nil => simpa using hl
  | cons a as ih =>
    obtain ⟨hnodup, hmem⟩ := ih (nodup_nodes_put hl (key a) (spot a))
    refine ⟨hnodup, fun x => ?_⟩
    rw [List.foldl_cons, hmem, mem_nodes_put, or_assoc, List.map_cons, List.mem_cons]

end Layout

/-! ### Filling a row -/

/-- The state while a row is filled: the nodes that were found, those of them that wait, each with
its column, and the layout so far. -/
structure Filling where
  seen : List Text
  waiting : List (Text × Nat)
  layout : Layout

namespace Filling

/-- A row begins with a node. -/
def start (x : Text) (l : Layout) : Filling := ⟨[x], [(x, 0)], l⟩

section Step

variable (next : Text → List Text) (isPlace : Text → Bool) (row : Nat)

/-- The first of the nodes that wait gets its spot, and its successors wait in the next column. -/
def step (f : Filling) : Filling :=
  match f.waiting with
  | [] => f
  | (node, column) :: waiting =>
    let l := f.layout.put node ⟨column, row, isPlace node⟩
    let new := (next node).eraseDups.filter fun n => !f.seen.contains n && !l.has n
    ⟨f.seen ++ new, waiting ++ new.map (·, column + 1), l⟩

variable {next isPlace row} {f : Filling}

theorem step_of_nil (h : f.waiting = []) : f.step next isPlace row = f := by
  simp only [step, h]

theorem iterate_of_nil (h : f.waiting = []) (k : Nat) : (step next isPlace row)^[k] f = f :=
  Function.iterate_fixed (step_of_nil h) k

variable (next isPlace row) in
/-- **The bounded filling of a row does what the steps do.** -/
theorem layout_iterate (k : Nat) (f : Filling) :
    ((step next isPlace row)^[k] f).layout =
      fillRow next isPlace row k f.seen f.waiting f.layout := by
  induction k generalizing f with
  | zero => simp [fillRow]
  | succ k ih =>
    obtain ⟨seen, waiting, l⟩ := f
    cases waiting with
    | nil =>
      rw [iterate_of_nil rfl]
      rfl
    | cons e waiting =>
      rw [Function.iterate_succ_apply, ih]
      rfl

variable (isPlace row) in
/-- **A row is finished** once its steps are as many as the nodes that can be found. -/
theorem waiting_iterate {nodes : List Text} (hnodup : f.seen.Nodup) (hseen : f.seen ⊆ nodes)
    (hnext : ∀ y, next y ⊆ nodes) {k : Nat}
    (hk : nodes.length + f.waiting.length ≤ f.seen.length + k) :
    ((step next isPlace row)^[k] f).waiting = [] := by
  -- each step finds as many nodes as start to wait, and takes one from those that wait
  induction k generalizing f with
  | zero =>
    have hlength := (hnodup.subperm hseen).length_le
    have hnone : f.waiting.length = 0 := by omega
    exact List.eq_nil_of_length_eq_zero hnone
  | succ k ih =>
    obtain ⟨seen, waiting, l⟩ := f
    cases waiting with
    | nil => rw [iterate_of_nil rfl]
    | cons e waiting =>
      have hnew : ∀ y ∈ (next e.1).eraseDups.filter fun n => !seen.contains n &&
          !(l.put e.1 ⟨e.2, row, isPlace e.1⟩).has n, y ∈ next e.1 ∧ y ∉ seen := by
        intro y hy
        have := List.mem_filter.1 hy
        simp only [List.mem_eraseDups, Bool.and_eq_true, Bool.not_eq_true', List.contains_eq_mem,
          decide_eq_false_iff_not] at this
        exact ⟨this.1, this.2.1⟩
      refine ih ?_ ?_ ?_
      · refine List.nodup_append.2 ⟨hnodup, (nodup_eraseDups _).filter _, fun y hy z hz he => ?_⟩
        exact (hnew z hz).2 (he ▸ hy)
      · exact List.append_subset.2 ⟨hseen, fun y hy => hnext e.1 (hnew y hy).1⟩
      · simp only [step, List.length_append, List.length_map, List.length_cons] at hk ⊢
        omega

/-- The search that the filling of a row is: what has a spot is done. -/
def search (f : Filling) : Search := ⟨f.layout.nodes, f.waiting.map Prod.fst⟩

/-- What is known in every state of a row that begins with `x`, if the nodes `base` had spots
before. -/
structure Sound (next : Text → List Text) (base : List Text) (x : Text) (f : Filling) : Prop where
  continues : f.search.Continues next base x
  seen_iff : ∀ y, y ∈ f.seen ∨ y ∈ f.layout.nodes ↔ y ∈ f.search.seen

theorem sound_start {x : Text} {l : Layout} (hl : l.nodes.Nodup) (hx : x ∉ l.nodes)
    (hclosed : ∀ y ∈ l.nodes, ∀ z ∈ next y, z ∈ l.nodes) :
    (start x l).Sound next l.nodes x where
  continues := {
    nodup := (List.concat_eq_append ▸ hl.concat hx : (l.nodes ++ [x]).Nodup)
    base_done := List.Subset.refl _
    start_mem := List.mem_append_right _ (List.mem_singleton_self x)
    reached := by
      intro y hy
      rcases List.mem_append.1 hy with hy | hy
      · exact .inl hy
      · obtain rfl := List.mem_singleton.1 hy
        exact .inr .refl
    closed := fun y hy z hz => List.mem_append_left _ (hclosed y hy z hz) }
  seen_iff y := by
    change y ∈ [x] ∨ y ∈ l.nodes ↔ y ∈ l.nodes ++ [x]
    rw [List.mem_append, or_comm]

variable {base : List Text} {x : Text}

/-- **Filling a row is a search,** step by step. -/
theorem search_step (h : f.Sound next base x) :
    (f.step next isPlace row).search = f.search.step next := by
  obtain ⟨seen, waiting, l⟩ := f
  cases waiting with
  | nil => rfl
  | cons e waiting =>
    obtain ⟨node, column⟩ := e
    have hnode : node ∉ l.nodes := fun hmem =>
      (List.nodup_append.1 h.continues.nodup).2.2 node hmem node List.mem_cons_self rfl
    have hseen : node ∈ seen := ((h.seen_iff node).2
      (List.mem_append_right _ List.mem_cons_self)).resolve_right hnode
    have hfresh : ((next node).eraseDups.filter fun n => !seen.contains n &&
        !(l.put node ⟨column, row, isPlace node⟩).has n) =
        fresh next (search ⟨seen, (node, column) :: waiting, l⟩).seen node := by
      refine List.filter_congr fun y _ => ?_
      rw [← Bool.not_or, Bool.not_inj_iff, Bool.eq_iff_iff, Bool.or_eq_true, Layout.has_iff,
        Layout.mem_nodes_put, List.contains_iff_mem, List.contains_iff_mem, ← h.seen_iff]
      exact ⟨fun hy => hy.elim .inl fun hy => hy.elim .inr fun he => .inl (he ▸ hseen),
        fun hy => hy.elim .inl fun hy => .inr (.inl hy)⟩
    have hwaiting : (search ⟨seen, (node, column) :: waiting, l⟩).waiting =
        node :: waiting.map Prod.fst := rfl
    rw [Search.step_of_cons hwaiting]
    simp only [step, search, hfresh, Layout.nodes_put_of_notMem hnode, List.map_append,
      List.map_map, Function.comp_def, List.map_id']

theorem Sound.step (h : f.Sound next base x) : (f.step next isPlace row).Sound next base x := by
  refine ⟨search_step h ▸ h.continues.step, ?_⟩
  obtain ⟨seen, waiting, l⟩ := f
  cases waiting with
  | nil => exact h.seen_iff
  | cons e waiting =>
    intro y
    have hy := h.seen_iff y
    simp only [Filling.step, search, Search.seen, List.mem_append, Layout.mem_nodes_put,
      List.map_append, List.map_map, Function.comp_def, List.map_id', List.map_cons,
      List.mem_cons] at hy ⊢
    grind

variable (isPlace row) in
theorem Sound.iterate (h : f.Sound next base x) (k : Nat) :
    ((Filling.step next isPlace row)^[k] f).Sound next base x := by
  induction k generalizing f with
  | zero => exact h
  | succ k ih => exact ih h.step

end Step

/-- **Every row is finished,** from whatever node and over whatever layout it begins. -/
theorem iterate_start (p : Page) (l : Labels) (isPlace : Text → Bool) (row : Nat) (x : Text)
    (lay : Layout) :
    ∃ seen, (step (p.controlNext l) isPlace row)^[p.arcs.length + 1] (start x lay) =
      ⟨seen, [], fillRow (p.controlNext l) isPlace row (p.arcs.length + 1) [x] [(x, 0)] lay⟩ := by
  have hnext : ∀ y, p.controlNext l y ⊆ x :: p.arcs.map (·.target) := by
    intro y z hz
    obtain ⟨a, ha, -, -, rfl⟩ := Page.mem_controlNext.1 hz
    exact List.mem_cons_of_mem _ (List.mem_map_of_mem ha)
  have hwaiting := waiting_iterate isPlace row (f := start x lay)
    (List.nodup_singleton x) (List.cons_subset.2 ⟨List.mem_cons_self, List.nil_subset _⟩) hnext
    (k := p.arcs.length + 1) (by simp [start, Nat.add_comm])
  have hlayout := layout_iterate (p.controlNext l) isPlace row (p.arcs.length + 1) (start x lay)
  generalize (step (p.controlNext l) isPlace row)^[p.arcs.length + 1] (start x lay) = f
    at hwaiting hlayout
  obtain ⟨seen, waiting, lay'⟩ := f
  obtain rfl : waiting = [] := hwaiting
  obtain rfl : lay' = _ := hlayout
  exact ⟨seen, rfl⟩

end Filling

/-! ### The rows of a page -/

/-- The id is that of a place. -/
def isPlaceId (p : Page) (id : Text) : Bool := p.places.any (·.id = id)

/-- A control arc leads to the node. -/
def isLed (p : Page) (l : Labels) (id : Text) : Bool := (p.controlArcs l).any (·.target = id)

/-- The place goes in the top row: a data arc touches it and no control arc does. -/
def isTop (p : Page) (l : Labels) (q : Place) : Bool :=
  (p.arcs.filter fun a => !decide (a.inscription = l.control)).any
      (fun a => a.source = q.id || a.target = q.id) &&
    !isLed p l q.id && (p.controlNext l q.id).isEmpty

/-- The row that a place adds, if it starts one. -/
def addRow (p : Page) (next : Text → List Text) (starts : Place → Bool) (r : Nat × Layout)
    (q : Place) : Nat × Layout :=
  if r.2.has q.id || !starts q then r
  else (r.1 + 1,
    fillRow next (isPlaceId p) r.1 (p.arcs.length + 1) [q.id] [(q.id, 0)] r.2)

/-- The nodes of a page, each with whether it is a place. -/
def pageNodes (p : Page) : List (Text × Bool) :=
  p.places.map (fun q => (q.id, true)) ++ p.transitions.map (fun t => (t.id, false))

theorem layout_eq (p : Page) (l : Labels) :
    layout l.control p =
      lastRow
        (p.places.foldl (addRow p (p.controlNext l) fun q => !isLed p l q.id)
          (1, topRow p (isTop p l))).1
        (pageNodes p)
        (p.places.foldl (addRow p (p.controlNext l) fun q => !isLed p l q.id)
          (1, topRow p (isTop p l))).2 := rfl

/-- No node has two spots, and control arcs from nodes that have one lead to nodes that have one. -/
structure Layout.Finished (p : Page) (l : Labels) (lay : Layout) : Prop where
  nodup : lay.nodes.Nodup
  closed : ∀ y ∈ lay.nodes, ∀ z, p.Leads l y z → z ∈ lay.nodes

namespace Layout.Finished

variable {p : Page} {l : Labels} {lay : Layout} {x : Text}

theorem mem_of_reaches (h : lay.Finished p l) (hx : x ∈ lay.nodes) {y : Text}
    (hy : p.Reaches l x y) : y ∈ lay.nodes := by
  induction hy with
  | refl => exact hx
  | tail _ hstep ih => exact h.closed _ ih _ hstep

/-- **A row adds** what is reached from the node that it begins with. -/
theorem fillRow (h : lay.Finished p l) (hx : x ∉ lay.nodes) (isPlace : Text → Bool) (row : Nat) :
    Layout.Finished p l (Drawing.fillRow (p.controlNext l) isPlace row (p.arcs.length + 1) [x]
        [(x, 0)] lay) ∧
      ∀ y, y ∈ (Drawing.fillRow (p.controlNext l) isPlace row (p.arcs.length + 1) [x]
        [(x, 0)] lay).nodes ↔ y ∈ lay.nodes ∨ p.Reaches l x y := by
  have hclosed : ∀ y ∈ lay.nodes, ∀ z ∈ p.controlNext l y, z ∈ lay.nodes :=
    fun y hy z hz => h.closed y hy z (Page.mem_controlNext.1 hz)
  have hsound := (Filling.sound_start h.nodup hx hclosed).iterate isPlace row (p.arcs.length + 1)
  obtain ⟨seen, hend⟩ := Filling.iterate_start p l isPlace row x lay
  rw [hend] at hsound
  have hmem := fun y => hsound.continues.mem_done_iff rfl (y := y)
  rw [Page.edge_controlNext] at hmem
  refine ⟨⟨?_, fun y hy z hz => ?_⟩, hmem⟩
  · exact (List.nodup_append.1 hsound.continues.nodup).1
  · rcases (hmem y).1 hy with hy | hy
    · exact (hmem z).2 (.inl (h.closed y hy z hz))
    · exact (hmem z).2 (.inr (hy.tail hz))

/-- **The rows of places** add what is reached from those places that start one. -/
theorem foldl_addRow (starts : Place → Bool) (qs : List Place) {r : Nat × Layout}
    (h : r.2.Finished p l) :
    (qs.foldl (addRow p (p.controlNext l) starts) r).2.Finished p l ∧
      ∀ y, y ∈ (qs.foldl (addRow p (p.controlNext l) starts) r).2.nodes ↔
        y ∈ r.2.nodes ∨ ∃ q ∈ qs, starts q = true ∧ p.Reaches l q.id y := by
  induction qs generalizing r with
  | nil => simpa using h
  | cons q qs ih =>
    have hrow : (addRow p (p.controlNext l) starts r q).2.Finished p l ∧
        ∀ y, y ∈ (addRow p (p.controlNext l) starts r q).2.nodes ↔
          y ∈ r.2.nodes ∨ (starts q = true ∧ p.Reaches l q.id y) := by
      rw [addRow]
      split
      · rename_i hskip
        refine ⟨h, fun y => (or_iff_left_of_imp fun hy => ?_).symm⟩
        -- a place that has a spot adds nothing, since its row is finished
        rw [hy.1, Bool.not_true, Bool.or_false, Layout.has_iff] at hskip
        exact h.mem_of_reaches hskip hy.2
      · rename_i hstart
        simp only [Bool.or_eq_true, Bool.not_eq_true', not_or, Bool.not_eq_false,
          Layout.has_iff] at hstart
        obtain ⟨hfinished, hmem⟩ := h.fillRow hstart.1 (isPlaceId p) r.1
        exact ⟨hfinished, fun y => by rw [hmem, hstart.2, and_iff_right rfl]⟩
    obtain ⟨hfinished, hmem⟩ := ih hrow.1
    refine ⟨hfinished, fun y => ?_⟩
    rw [List.foldl_cons, hmem, hrow.2, or_assoc, List.exists_mem_cons_iff]

end Layout.Finished

/-! ### The nodes of a layout -/

theorem map_id_zipIdx (qs : List Place) :
    qs.zipIdx.map (fun e : Place × Nat => e.1.id) = qs.map (·.id) := by
  rw [← Function.comp_def (fun q : Place => q.id) Prod.fst, ← List.map_map, List.zipIdx_map_fst]

theorem nodes_topRow (p : Page) (isTop : Place → Bool) :
    (topRow p isTop).nodes.Nodup ∧
      ∀ x, x ∈ (topRow p isTop).nodes ↔ ∃ q ∈ p.places, isTop q = true ∧ q.id = x := by
  obtain ⟨hnodup, hmem⟩ := Layout.nodes_foldl_put (l := []) (fun e : Place × Nat => e.1.id)
    (fun e => ⟨e.2, 0, true⟩) (p.places.filter isTop).zipIdx List.nodup_nil
  refine ⟨hnodup, fun x => (hmem x).trans ?_⟩
  rw [map_id_zipIdx]
  simp [List.mem_filter, and_assoc, Layout.nodes]

theorem nodes_lastRow (row : Nat) (nodes : List (Text × Bool)) {l : Layout} (hl : l.nodes.Nodup) :
    (lastRow row nodes l).nodes.Nodup ∧
      ∀ x, x ∈ (lastRow row nodes l).nodes ↔ x ∈ l.nodes ∨ x ∈ nodes.map Prod.fst := by
  rw [lastRow]
  generalize (0 : Nat) = column
  induction nodes generalizing l column with
  | nil => simpa using hl
  | cons e nodes ih =>
    rw [List.foldl_cons]
    dsimp only
    split
    · rename_i hhas
      obtain ⟨hnodup, hmem⟩ := ih hl column
      refine ⟨hnodup, fun x => ?_⟩
      rw [hmem, List.map_cons, List.mem_cons]
      exact ⟨fun hx => hx.imp_right .inr, fun hx => hx.elim .inl fun hx =>
        hx.elim (fun he => .inl (he ▸ Layout.has_iff.1 hhas)) .inr⟩
    · obtain ⟨hnodup, hmem⟩ := ih (Layout.nodup_nodes_put hl _ _) (column + 1)
      refine ⟨hnodup, fun x => ?_⟩
      rw [hmem, Layout.mem_nodes_put, List.map_cons, List.mem_cons, or_assoc]

end Drawing

/-! ### Rows that leave the page -/

namespace Page

variable (p : Page) (l : Labels)

/-- The id is that of a node of the page. -/
def IsNode (x : Text) : Prop := x ∈ p.places.map (·.id) ∨ x ∈ p.transitions.map (·.id)

instance : DecidablePred p.IsNode := fun x =>
  inferInstanceAs (Decidable (x ∈ p.places.map (·.id) ∨ x ∈ p.transitions.map (·.id)))

/-- A row can begin with the place: no control arc leads to it. -/
def BeginsRow (q : Place) : Prop := ∀ a ∈ p.arcs, a.inscription = l.control → a.target ≠ q.id

instance : DecidablePred (p.BeginsRow l) := fun q =>
  inferInstanceAs (Decidable (∀ a ∈ p.arcs, a.inscription = l.control → a.target ≠ q.id))

/-- The node is reached along control arcs from a place that a row can begin with. -/
def InRow (x : Text) : Prop := ∃ q ∈ p.places, p.BeginsRow l q ∧ p.Reaches l q.id x

instance : DecidablePred (p.InRow l) := fun x =>
  inferInstanceAs (Decidable (∃ q ∈ p.places, p.BeginsRow l q ∧ p.Reaches l q.id x))

/-- Control arcs that rows follow lead to nodes of the page. -/
def RowsStay : Prop :=
  ∀ a ∈ p.arcs, a.inscription = l.control → p.InRow l a.source → p.IsNode a.target

variable {p l}

theorem InRow.tail {x y : Text} (h : p.InRow l x) (hstep : p.Leads l x y) : p.InRow l y := by
  obtain ⟨q, hq, hbegins, hreaches⟩ := h
  exact ⟨q, hq, hbegins, hreaches.tail hstep⟩

/-- What the nodes of the page have and control arcs in rows hand on, all nodes of rows have. -/
theorem InRow.induction {P : Text → Prop} (hnode : ∀ x, p.IsNode x → P x)
    (hstep : ∀ x y, p.InRow l x → P x → p.Leads l x y → P y) {x : Text} (h : p.InRow l x) :
    P x := by
  obtain ⟨q, hq, hbegins, hreaches⟩ := h
  induction hreaches with
  | refl => exact hnode _ (.inl (List.mem_map_of_mem hq))
  | tail hwalk hlead ih => exact hstep _ _ ⟨q, hq, hbegins, hwalk⟩ ih hlead

theorem rowsStay_iff : p.RowsStay l ↔ ∀ x, p.InRow l x → p.IsNode x := by
  constructor
  · intro h x hx
    refine hx.induction (fun _ hnode => hnode) fun y z hy _ hlead => ?_
    obtain ⟨a, ha, hcontrol, rfl, rfl⟩ := hlead
    exact h a ha hcontrol hy
  · intro h a ha hcontrol hsource
    exact h _ (hsource.tail ⟨a, ha, hcontrol, rfl, rfl⟩)

end Page

namespace Drawing

variable {p : Page} {l : Labels}

theorem isLed_eq_false_iff {q : Place} : isLed p l q.id = false ↔ p.BeginsRow l q := by
  simp [isLed, Page.controlArcs, Page.BeginsRow]

theorem finished_topRow (p : Page) (l : Labels) : (topRow p (isTop p l)).Finished p l := by
  obtain ⟨hnodup, hmem⟩ := nodes_topRow p (isTop p l)
  refine ⟨hnodup, fun y hy z hz => ?_⟩
  -- no control arc leaves a place of the top row
  obtain ⟨q, -, htop, rfl⟩ := (hmem y).1 hy
  rw [isTop, Bool.and_eq_true, List.isEmpty_iff] at htop
  have hnext := Page.mem_controlNext.2 hz
  rw [htop.2] at hnext
  cases hnext

/-- **The nodes of a layout** are those of the page and those that its rows reach. -/
theorem mem_nodes_layout (p : Page) (l : Labels) :
    (layout l.control p).nodes.Nodup ∧
      ∀ x, x ∈ (layout l.control p).nodes ↔ p.IsNode x ∨ p.InRow l x := by
  obtain ⟨hrows, hmem⟩ := Layout.Finished.foldl_addRow (fun q => !isLed p l q.id) p.places
    (r := (1, topRow p (isTop p l))) (finished_topRow p l)
  obtain ⟨hnodup, hlast⟩ := nodes_lastRow (p.places.foldl
    (addRow p (p.controlNext l) fun q => !isLed p l q.id) (1, topRow p (isTop p l))).1
    (pageNodes p) hrows.nodup
  rw [layout_eq]
  refine ⟨hnodup, fun x => ?_⟩
  have htop : x ∈ (topRow p (isTop p l)).nodes → p.IsNode x := by
    intro hx
    obtain ⟨q, hq, -, rfl⟩ := ((nodes_topRow p (isTop p l)).2 x).1 hx
    exact .inl (List.mem_map_of_mem hq)
  have hnodes : x ∈ (pageNodes p).map Prod.fst ↔ p.IsNode x := by
    simp [pageNodes, Page.IsNode]
  have hrow : (∃ q ∈ p.places, (!isLed p l q.id) = true ∧ p.Reaches l q.id x) ↔ p.InRow l x := by
    simp only [Bool.not_eq_true', isLed_eq_false_iff, Page.InRow]
  rw [hlast, hmem, hnodes, hrow]
  exact ⟨fun h => h.elim (fun h => h.imp_left htop) .inl,
    fun h => h.elim .inr fun h => .inl (.inr h)⟩

/-! ### Arcs that are drawn -/

theorem drawArc_ne_nil (source target : Spot) (a : Arc) (control : Bool) (bend : Int) :
    drawArc source target a control bend ≠ [] := by
  have hline : ("<line" : Text) ≠ [] := by decide
  have hpath : ("<path" : Text) ≠ [] := by decide
  rw [drawArc]
  split <;> simp [hline, hpath]

/-- **An arc is drawn** if and only if both of its ends have a spot. -/
theorem arcAt_ne_nil_iff {control : Text} {lay : Layout} {e : Arc × Nat} :
    arcAt control p lay e ≠ [] ↔ e.1.source ∈ lay.nodes ∧ e.1.target ∈ lay.nodes := by
  rw [← Layout.has_iff, ← Layout.has_iff, Layout.has, Layout.has, arcAt]
  split
  · rename_i s t hs ht
    simp [hs, ht, drawArc_ne_nil]
  · rename_i hnone
    refine iff_of_false (fun h => h rfl) fun h => ?_
    obtain ⟨s, hs⟩ := Option.isSome_iff_exists.1 h.1
    obtain ⟨t, ht⟩ := Option.isSome_iff_exists.1 h.2
    exact hnone s t hs ht

end Drawing

open Drawing

theorem netLayout_of_page {n : Net} {p : Page} (h : n.page = some p) (control : Text) :
    netLayout control (some n) = layout control p := by
  simp only [netLayout, Option.bind_some, h]

/-- The image of a net with a page holds what is drawn for each arc, in their order. -/
theorem Net.toSvg?_of_page {n : Net} {p : Page} (h : n.page = some p) (l : Labels) :
    n.toSvg? l = some (frame n.id (layout l.filled.control p) ++
      p.arcs.zipIdx.flatMap (arcAt l.filled.control p (layout l.filled.control p)) ++
      (p.places.flatMap (fun q => drawPlace l.filled.unit
          (centre (layout l.filled.control p) q.id).1
          (centre (layout l.filled.control p) q.id).2 q) ++
        p.transitions.flatMap (fun t => drawTransition (isActive p t.id)
          (centre (layout l.filled.control p) t.id).1
          (centre (layout l.filled.control p) t.id).2 t) ++
        "</svg>\n")) := by
  rw [Net.toSvg?, h, Option.map_some, drawPage]
  simp only [List.append_assoc]

/-- **What is laid out of a net with a page.**  Filling a row always comes to its end.  A layout has
one spot for each node of the page and for each id that a row reaches along control arcs, and of the
arcs, each in its place in the image, those are drawn of which both ends have a spot.  So the nodes
of the page, and no others, have spots exactly if control arcs that rows follow lead to nodes of the
page, and exactly then the arcs drawn are those between nodes of the page. -/
theorem Net.layout_nodes {n : Net} {p : Page} (h : n.page = some p) (l : Labels) :
    (∀ row x lay, ∃ seen,
      (Filling.step (p.controlNext l) (isPlaceId p) row)^[p.arcs.length + 1] (.start x lay) =
        ⟨seen, [], fillRow (p.controlNext l) (isPlaceId p) row (p.arcs.length + 1) [x] [(x, 0)]
          lay⟩) ∧
    (netLayout l.control (some n)).nodes.Nodup ∧
    (∀ x, x ∈ (netLayout l.control (some n)).nodes ↔ p.IsNode x ∨ p.InRow l x) ∧
    (∀ e ∈ p.arcs.zipIdx, arcAt l.control p (netLayout l.control (some n)) e ≠ [] ↔
      e.1.source ∈ (netLayout l.control (some n)).nodes ∧
        e.1.target ∈ (netLayout l.control (some n)).nodes) ∧
    (∃ front back, n.toSvg? l = some (front ++
      p.arcs.zipIdx.flatMap (arcAt l.filled.control p (netLayout l.filled.control (some n))) ++
      back)) ∧
    ((∀ x, x ∈ (netLayout l.control (some n)).nodes ↔ p.IsNode x) ↔ p.RowsStay l) ∧
    ((∀ e ∈ p.arcs.zipIdx, arcAt l.control p (netLayout l.control (some n)) e ≠ [] ↔
      p.IsNode e.1.source ∧ p.IsNode e.1.target) ↔ p.RowsStay l) := by
  rw [netLayout_of_page h, netLayout_of_page h]
  obtain ⟨hnodup, hmem⟩ := mem_nodes_layout p l
  refine ⟨fun row x lay => Filling.iterate_start p l (isPlaceId p) row x lay, hnodup, hmem,
    fun e _ => arcAt_ne_nil_iff, ⟨_, _, Net.toSvg?_of_page h l⟩, ?_, ?_⟩
  · rw [Page.rowsStay_iff]
    exact forall_congr' fun x => by rw [hmem, or_iff_left_iff_imp]
  · simp only [arcAt_ne_nil_iff, hmem]
    rw [Page.rowsStay_iff]
    constructor
    · intro hdrawn x hx
      refine hx.induction (fun _ hnode => hnode) fun y z hy hnode hlead => ?_
      have hz := hy.tail hlead
      obtain ⟨a, ha, -, rfl, rfl⟩ := hlead
      obtain ⟨i, hi⟩ := List.mem_iff_getElem?.1 ha
      exact ((hdrawn (a, i) (List.mem_zipIdx_iff_getElem?.2 hi)).1
        ⟨.inl hnode, .inr hz⟩).2
    · intro hstay e _
      rw [or_iff_left_of_imp (hstay _), or_iff_left_of_imp (hstay _)]

/-- A row that leaves the page, and a data arc from outside. -/
def Page.astray : Page where
  id := "page1"
  places := [⟨"a", "start", none⟩]
  transitions := [⟨"t", "away", none⟩]
  arcs := [⟨"1", "a", "t", "()"⟩, ⟨"2", "t", "nowhere", "()"⟩, ⟨"3", "outside", "t", "x"⟩]

/-- The net with that page. -/
def Net.astray : Net := { id := "net1", type := coreModelType, page := some Page.astray }

theorem Net.layout_nodes_astray :
    Net.astray.page = some Page.astray ∧
      (netLayout Labels.default.control (some Net.astray)).nodes.Nodup ∧
      (∀ x, x ∈ (netLayout Labels.default.control (some Net.astray)).nodes ↔
        Page.astray.IsNode x ∨ Page.astray.InRow Labels.default x) ∧
      ∀ e ∈ Page.astray.arcs.zipIdx,
        arcAt Labels.default.control Page.astray
            (netLayout Labels.default.control (some Net.astray)) e ≠ [] ↔
          e.1.source ∈ (netLayout Labels.default.control (some Net.astray)).nodes ∧
            e.1.target ∈ (netLayout Labels.default.control (some Net.astray)).nodes := by
  obtain ⟨-, hnodup, hmem, hdrawn, -, -, -⟩ :=
    Net.layout_nodes (n := Net.astray) (p := Page.astray) rfl Labels.default
  exact ⟨rfl, hnodup, hmem, hdrawn⟩

/-- An id of no node has a spot, and an arc to it is drawn. -/
theorem Net.layout_astray_nowhere :
    Net.astray.page = some Page.astray ∧
      (netLayout Labels.default.control (some Net.astray)).nodes = ["a", "t", "nowhere"] ∧
      ¬Page.astray.IsNode "nowhere" ∧
      ¬(∀ x, x ∈ (netLayout Labels.default.control (some Net.astray)).nodes ↔
        Page.astray.IsNode x) ∧
      arcAt Labels.default.control Page.astray
        (netLayout Labels.default.control (some Net.astray))
        (⟨"2", "t", "nowhere", "()"⟩, 1) ≠ [] := by
  have hnodes : (netLayout Labels.default.control (some Net.astray)).nodes =
      ["a", "t", "nowhere"] := by decide +kernel
  have hnowhere : ¬Page.astray.IsNode "nowhere" := by decide
  refine ⟨rfl, hnodes, hnowhere, fun h => hnowhere ((h _).1 ?_), arcAt_ne_nil_iff.2 ?_⟩
  · rw [hnodes]
    decide
  · rw [hnodes]
    decide

end ContractNet

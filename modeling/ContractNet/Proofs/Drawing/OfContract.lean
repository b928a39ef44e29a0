import ContractNet.Proofs.Drawing.Layout
import ContractNet.Proofs.Net.ControlFlow

/-!
# The layout of compiled nets

On a compiled net the rows of a layout are paths: the places of variables that data arcs touch,
each other place of a variable, and the strands of the functions.  Filling a row along a path puts
its nodes side by side, so the layout is a grid of paths that have no node in common.

* `mem_grid_iff`, `spot?_grid_iff`: the cells of a grid;
* `fillRow_path`, `foldl_addRow_paths`: rows that follow paths are those of a grid;
* `Blueprint.Realizes.layout_eq`: the layout of a compiled net is the grid of its rows;
* `Net.layout_ofContract`: each node has one cell of its own, and each function a row of its own.
-/

namespace ContractNet

namespace Drawing

/-! ### Grids -/

variable {isPlace : Text → Bool} {row column : Nat} {x : Text} {s : Spot}

/-- Nodes side by side. -/
def gridRow (isPlace : Text → Bool) (row column : Nat) (nodes : List Text) : Layout :=
  (nodes.zipIdx column).map fun e => (e.1, ⟨e.2, row, isPlace e.1⟩)

/-- Rows of nodes, one below the other. -/
def grid (isPlace : Text → Bool) (row : Nat) (rows : List (List Text)) : Layout :=
  (rows.zipIdx row).flatMap fun e => gridRow isPlace e.2 0 e.1

theorem grid_cons (isPlace : Text → Bool) (row : Nat) (nodes : List Text)
    (rows : List (List Text)) :
    grid isPlace row (nodes :: rows) =
      gridRow isPlace row 0 nodes ++ grid isPlace (row + 1) rows := rfl

theorem nodes_gridRow (isPlace : Text → Bool) (row column : Nat) (nodes : List Text) :
    (gridRow isPlace row column nodes).nodes = nodes := by
  rw [gridRow, Layout.nodes, List.map_map]
  exact List.zipIdx_map_fst column nodes

theorem nodes_grid (isPlace : Text → Bool) (row : Nat) (rows : List (List Text)) :
    (grid isPlace row rows).nodes = rows.flatten := by
  induction rows generalizing row with
  | nil => rfl
  | cons nodes rows ih =>
    rw [grid_cons, Layout.nodes_append, nodes_gridRow, ih, List.flatten_cons]

/-- **The cells of a grid.** -/
theorem mem_grid_iff {rows : List (List Text)} :
    (x, s) ∈ grid isPlace row rows ↔ ∃ i nodes, rows[i]? = some nodes ∧
      nodes[s.column]? = some x ∧ s.row = row + i ∧ s.isPlace = isPlace x := by
  obtain ⟨column, row', flag⟩ := s
  simp only [grid, gridRow, List.mem_flatMap, List.mem_map, Prod.exists,
    List.mem_zipIdx_iff_le_and_getElem?_sub, Prod.mk.injEq, Spot.mk.injEq]
  constructor
  · rintro ⟨nodes, j, ⟨hle, hrow⟩, y, k, ⟨-, hnode⟩, rfl, rfl, rfl, rfl⟩
    exact ⟨j - row, nodes, hrow, hnode, by omega, rfl⟩
  · rintro ⟨i, nodes, hrow, hnode, rfl, rfl⟩
    refine ⟨nodes, row + i, ⟨by omega, ?_⟩, x, column, ⟨Nat.zero_le _, hnode⟩, rfl, rfl, rfl, rfl⟩
    rwa [Nat.add_sub_cancel_left]

theorem Layout.spot?_eq_some_iff {l : Layout} (h : l.nodes.Nodup) :
    l.spot? x = some s ↔ (x, s) ∈ l := by
  rw [spot?, List.lookup_eq_some_iff]
  constructor
  · rintro ⟨before, after, rfl, -⟩
    exact List.mem_append_right _ List.mem_cons_self
  · intro hmem
    obtain ⟨before, after, rfl⟩ := List.append_of_mem hmem
    refine ⟨before, after, rfl, fun e he => ?_⟩
    rw [nodes, List.map_append] at h
    have hne := (List.nodup_append.1 h).2.2 e.1 (List.mem_map_of_mem he) x List.mem_cons_self
    simpa using hne.symm

/-- The spots of a grid without repeated nodes are its cells. -/
theorem spot?_grid_iff {rows : List (List Text)} (h : rows.flatten.Nodup) :
    (grid isPlace row rows).spot? x = some s ↔ ∃ i nodes, rows[i]? = some nodes ∧
      nodes[s.column]? = some x ∧ s.row = row + i ∧ s.isPlace = isPlace x := by
  rw [Layout.spot?_eq_some_iff (by rwa [nodes_grid]), mem_grid_iff]

/-! ### Rows along paths -/

variable {next : Text → List Text} {nodes : List Text} {lay : Layout}

theorem fillRow_nil (next : Text → List Text) (isPlace : Text → Bool) (row fuel : Nat)
    (seen : List Text) (lay : Layout) : fillRow next isPlace row fuel seen [] lay = lay := by
  cases fuel <;> rfl

/-- **Filling a row along a path** puts its nodes side by side. -/
theorem fillRow_path {seen : List Text} {fuel : Nat} (h : IsPath next (x :: nodes))
    (hnd : (lay.nodes ++ x :: nodes).Nodup) (hseen : ∀ y ∈ nodes, y ∉ seen)
    (hfuel : nodes.length < fuel) :
    fillRow next isPlace row fuel seen [(x, column)] lay =
      lay ++ gridRow isPlace row column (x :: nodes) := by
  induction nodes generalizing x column seen fuel lay with
  | nil =>
    obtain ⟨fuel, rfl⟩ := Nat.exists_eq_add_of_lt hfuel
    have hnext : next x = [] := h
    have hx : x ∉ lay.nodes := fun hmem =>
      (List.nodup_append.1 hnd).2.2 x hmem x (List.mem_singleton_self x) rfl
    simp [fillRow, hnext, Layout.put_of_notMem hx, gridRow, fillRow_nil]
  | cons y nodes ih =>
    obtain ⟨hnext, hpath⟩ := h
    obtain ⟨fuel, rfl⟩ : ∃ f, fuel = f + 1 := ⟨fuel - 1, by simp at hfuel; omega⟩
    obtain ⟨hyseen, hseen⟩ := List.forall_mem_cons.1 hseen
    have hx : x ∉ lay.nodes := fun hmem =>
      (List.nodup_append.1 hnd).2.2 x hmem x List.mem_cons_self rfl
    have hput := Layout.put_of_notMem (s := ⟨column, row, isPlace x⟩) hx
    have hnd' : (Layout.nodes (lay ++ [(x, ⟨column, row, isPlace x⟩)]) ++ y :: nodes).Nodup := by
      rw [Layout.nodes_append, List.append_assoc]
      exact hnd
    have hy : y ∉ Layout.nodes (lay ++ [(x, ⟨column, row, isPlace x⟩)]) := fun hmem =>
      (List.nodup_append.1 hnd').2.2 y hmem y List.mem_cons_self rfl
    have hseen' : ∀ z ∈ nodes, z ∉ seen ++ [y] := by
      intro z hz hmem
      rcases List.mem_append.1 hmem with hmem | hmem
      · exact hseen z hz hmem
      · obtain rfl := List.mem_singleton.1 hmem
        exact (List.nodup_cons.1 (List.nodup_append.1 hnd').2.1).1 hz
    -- the next node of the path is the only one that starts to wait
    have hnew : ([y].eraseDups.filter fun n => !seen.contains n &&
        !Layout.has (lay ++ [(x, ⟨column, row, isPlace x⟩)]) n) = [y] := by
      simp [List.eraseDups_cons, hyseen, Layout.has_eq_false_iff.2 hy]
    rw [fillRow, hput, hnext, hnew, List.nil_append, List.map_singleton,
      ih hpath hnd' hseen' (by simpa using hfuel), List.append_assoc]
    rfl

/-! ### Rows of a page -/

section Rows

variable {p : Page} {starts : Place → Bool}

/-- The place starts a row: it has no spot yet. -/
def startsRow (starts : Place → Bool) (lay : Layout) (q : Place) : Bool :=
  starts q && !lay.has q.id

theorem startsRow_iff {q : Place} :
    startsRow starts lay q = true ↔ starts q = true ∧ q.id ∉ lay.nodes := by
  rw [startsRow, Bool.and_eq_true, Bool.not_eq_true', Layout.has_eq_false_iff]

theorem addRow_of_not {r : Nat × Layout} {q : Place} (h : startsRow starts r.2 q = false) :
    addRow p next starts r q = r := by
  rw [startsRow, Bool.and_eq_false_iff, Bool.not_eq_false'] at h
  rw [addRow, if_pos (by simpa [or_comm] using h)]

theorem addRow_path {r : Nat × Layout} {q : Place} (h : startsRow starts r.2 q = true)
    (hpath : IsPath next (q.id :: nodes)) (hlength : nodes.length ≤ p.arcs.length)
    (hnd : (r.2.nodes ++ q.id :: nodes).Nodup) :
    addRow p next starts r q =
      (r.1 + 1, r.2 ++ gridRow (isPlaceId p) r.1 0 (q.id :: nodes)) := by
  have hskip : ¬(r.2.has q.id || !starts q) = true := by
    rw [startsRow, Bool.and_eq_true, Bool.not_eq_true'] at h
    simp [h]
  have hseen : ∀ y ∈ nodes, y ∉ [q.id] := by
    intro y hy hmem
    obtain rfl := List.mem_singleton.1 hmem
    exact (List.nodup_cons.1 (List.nodup_append.1 hnd).2.1).1 hy
  rw [addRow, if_neg hskip, fillRow_path hpath hnd hseen (Nat.lt_succ_of_le hlength)]

/-- The nodes are a path that begins with the place, and no longer than the page allows. -/
structure IsRow (p : Page) (next : Text → List Text) (q : Place) (nodes : List Text) : Prop where
  path : IsPath next nodes
  head : nodes.head? = some q.id
  length_le : nodes.length ≤ p.arcs.length + 1

/-- **The rows of places** from which paths begin. -/
theorem foldl_addRow_paths {rows : List (List Text)} (qs : List Place) {r : Nat × Layout}
    (hpaths : List.Forall₂ (IsRow p next) (qs.filter (startsRow starts r.2)) rows)
    (hnd : (r.2.nodes ++ rows.flatten).Nodup) :
    qs.foldl (addRow p next starts) r =
      (r.1 + rows.length, r.2 ++ grid (isPlaceId p) r.1 rows) := by
  induction qs generalizing r rows with
  | nil =>
    obtain rfl := List.forall₂_nil_left_iff.1 hpaths
    exact Prod.ext rfl (List.append_nil _).symm
  | cons q qs ih =>
    rw [List.foldl_cons]
    cases hstart : startsRow starts r.2 q with
    | false =>
      rw [List.filter_cons_of_neg (by simp [hstart])] at hpaths
      rw [addRow_of_not hstart]
      exact ih hpaths hnd
    | true =>
      rw [List.filter_cons_of_pos hstart] at hpaths
      obtain ⟨nodes, rows, ⟨hpath, hhead, hlength⟩, hrows, rfl⟩ :=
        List.forall₂_cons_left_iff.1 hpaths
      obtain ⟨rest, rfl⟩ := List.head?_eq_some_iff.1 hhead
      rw [List.flatten_cons, ← List.append_assoc] at hnd
      obtain ⟨hrow, -, hapart⟩ := List.nodup_append.1 hnd
      -- the row has none of the places that start later ones
      have hfilter : qs.filter (startsRow starts (r.2 ++
          gridRow (isPlaceId p) r.1 0 (q.id :: rest))) = qs.filter (startsRow starts r.2) := by
        refine List.filter_congr fun q' hq' => Bool.eq_iff_iff.2 ?_
        rw [startsRow_iff, startsRow_iff, Layout.nodes_append, nodes_gridRow]
        refine ⟨fun h => ⟨h.1, fun hmem => h.2 (List.mem_append_left _ hmem)⟩, fun h => ⟨h.1, ?_⟩⟩
        obtain ⟨nodes, hnodes, hnodesrow⟩ := exists_left_of_mem hrows.flip
          (List.mem_filter.2 ⟨hq', startsRow_iff.2 h⟩)
        exact fun hmem => hapart _ hmem _
          (List.mem_flatten.2 ⟨_, hnodes, List.mem_of_head? hnodesrow.head⟩) rfl
      rw [addRow_path hstart hpath (Nat.le_of_succ_le_succ hlength) hrow, ih (hfilter ▸ hrows) (by
        rwa [Layout.nodes_append, nodes_gridRow]), List.append_assoc, List.length_cons, grid_cons]
      exact Prod.ext (by simp only; omega) rfl

end Rows

/-- A row of its own for what is left is empty if nothing is left. -/
theorem lastRow_of_forall {nodes : List (Text × Bool)} (h : ∀ e ∈ nodes, e.1 ∈ lay.nodes) :
    lastRow row nodes lay = lay := by
  rw [lastRow]
  generalize (0 : Nat) = column
  induction nodes with
  | nil => rfl
  | cons e nodes ih =>
    obtain ⟨he, hnodes⟩ := List.forall_mem_cons.1 h
    rw [List.foldl_cons]
    dsimp only
    rw [if_pos (Layout.has_iff.2 he)]
    exact ih hnodes

/-- New entries go to the end, in their order. -/
theorem foldl_put_of_nodup {α : Type} (key : α → Text) (spot : α → Spot) (as : List α)
    (lay : Layout) (h : (lay.nodes ++ as.map key).Nodup) :
    as.foldl (fun l a => Layout.put l (key a) (spot a)) lay =
      lay ++ as.map fun a => (key a, spot a) := by
  induction as generalizing lay with
  | nil => simp
  | cons a as ih =>
    have ha : key a ∉ lay.nodes := fun hmem =>
      (List.nodup_append.1 h).2.2 _ hmem _ List.mem_cons_self rfl
    rw [List.foldl_cons, Layout.put_of_notMem ha, ih _ ?_, List.append_assoc]
    · rfl
    · rw [Layout.nodes_append, List.append_assoc]
      exact h

theorem topRow_eq {p : Page} (isTop : Place → Bool) (h : (p.places.map (·.id)).Nodup) :
    topRow p isTop = gridRow (isPlaceId p) 0 0 ((p.places.filter isTop).map (·.id)) := by
  have hnd : ((p.places.filter isTop).map (·.id)).Nodup := h.sublist (List.filter_sublist.map _)
  have hput := foldl_put_of_nodup (fun e : Place × Nat => e.1.id) (fun e => ⟨e.2, 0, true⟩)
    (p.places.filter isTop).zipIdx [] (by rwa [map_id_zipIdx])
  refine hput.trans ?_
  rw [gridRow, List.zipIdx_map, List.map_map, List.nil_append]
  refine List.map_congr_left fun e he => ?_
  have hmem : e.1 ∈ p.places :=
    (List.mem_filter.1 (List.mem_of_getElem? (List.mem_zipIdx_iff_getElem?.1 he))).1
  have hplace : isPlaceId p e.1.id = true :=
    List.any_eq_true.2 ⟨e.1, hmem, decide_eq_true rfl⟩
  simp [Prod.map, hplace]

end Drawing

/-! ### Rows of a compiled net -/

/-- A data arc ends at the place. -/
def Page.HasData (p : Page) (l : Labels) (q : Place) : Prop :=
  ∃ a ∈ p.arcs, a.inscription ≠ l.control ∧ a.touches q.id = true

instance (p : Page) (l : Labels) : DecidablePred (p.HasData l) := fun q =>
  inferInstanceAs (Decidable (∃ a ∈ p.arcs, a.inscription ≠ l.control ∧ a.touches q.id = true))

namespace Blueprint

variable (b : Blueprint) (p : Page) (l : Labels)

/-- The places of variables that data arcs touch. -/
def topVars : List Place := b.vars.filter (p.HasData l)

/-- The other places of variables. -/
def sideVars : List Place := b.vars.filter fun q => ¬p.HasData l q

/-- The rows of the layout, from the top. -/
def rows : List (List Text) :=
  (b.topVars p l).map (·.id) ::
    ((b.sideVars p l).map (fun q => [q.id]) ++ b.strands.map Strand.nodes)

end Blueprint

open Drawing

theorem isPlaceId_iff {p : Page} {x : Text} : isPlaceId p x = true ↔ x ∈ p.places.map (·.id) := by
  simp [isPlaceId]

theorem isTop_iff {p : Page} {l : Labels} {q : Place} :
    isTop p l q = true ↔ p.HasData l q ∧ p.BeginsRow l q ∧ p.controlNext l q.id = [] := by
  rw [isTop, Bool.and_eq_true, Bool.and_eq_true, Bool.not_eq_true', isLed_eq_false_iff,
    List.isEmpty_iff, and_assoc]
  refine and_congr_left fun _ => ?_
  simp only [List.any_filter, List.any_eq_true, Page.HasData, Bool.and_eq_true, Bool.not_eq_true',
    decide_eq_false_iff_not]
  rfl

namespace Blueprint.Realizes

variable {o : NetOptions} {c : Contract} {b : Blueprint} {q : Place} {s : Strand}

/-- No row begins with a place that links lead to. -/
theorem beginsRow_iff (hb : b.Realizes o c) (hdata : c.DataApart o)
    (hq : q ∈ (b.page o.pageId).places) :
    (b.page o.pageId).BeginsRow o.labels q ↔ ∀ k ∈ b.links, k.after.id ≠ q.id := by
  rw [← isLed_eq_false_iff, ← Bool.not_eq_true, isLed, hb.any_target_iff hdata hq]
  simp only [not_exists, not_and, ne_eq]

theorem after_mem {k : Link} (hk : k ∈ b.links) : ∃ s ∈ b.strands, k.after ∈ s.places := by
  obtain ⟨s, hs, hk⟩ := List.mem_flatMap.1 hk
  exact ⟨s, hs, List.mem_cons_of_mem _ (List.mem_map_of_mem hk)⟩

theorem beginsRow_var (hb : b.Realizes o c) (hdata : c.DataApart o) (hq : q ∈ b.vars) :
    (b.page o.pageId).BeginsRow o.labels q := by
  refine (hb.beginsRow_iff hdata (List.mem_append_left _ hq)).2 fun k hk => ?_
  obtain ⟨s, hs, hafter⟩ := after_mem hk
  exact (hb.var_ne_place hq hs hafter).symm

theorem controlNext_var (hb : b.Realizes o c) (hdata : c.DataApart o) (hq : q ∈ b.vars) :
    (b.page o.pageId).controlNext o.labels q.id = [] := by
  rw [hb.controlNext_eq hdata]
  refine List.flatMap_eq_nil_iff.2 fun k hk => Link.next_eq_nil (fun he => ?_)
    (hb.link_ne_place hk (List.mem_append_left _ hq))
  obtain ⟨s, hs, -, q', hq', he'⟩ := hb.before_mem hk
  exact hb.var_ne_place hq hs hq' (he ▸ he')

/-- No data arc ends at a place of control. -/
theorem not_hasData (hb : b.Realizes o c) (hs : s ∈ b.strands) (hq : q ∈ s.places) :
    ¬(b.page o.pageId).HasData o.labels q := by
  rintro ⟨a, ha, hne, htouch⟩
  have hmem : a ∈ (b.page o.pageId).arcs.filter s.touchedBy :=
    List.mem_filter.2 ⟨ha, List.any_eq_true.2 ⟨q, hq, htouch⟩⟩
  rw [hb.filter_touchedBy hs] at hmem
  obtain ⟨k, hk, ha⟩ := List.mem_flatMap.1 hmem
  obtain ⟨st, -, f, hshows⟩ := exists_left_of_mem hb.links_show (mem_links hs hk)
  rcases List.mem_pair.1 ha with rfl | rfl
  · exact hne (congrArg (·.2.2) hshows.enter)
  · exact hne (congrArg (·.2.2) hshows.leave)

theorem filter_isTop (hb : b.Realizes o c) (hdata : c.DataApart o) :
    (b.page o.pageId).places.filter (isTop (b.page o.pageId) o.labels) =
      b.topVars (b.page o.pageId) o.labels := by
  have hstrands : (b.strands.flatMap Strand.places).filter (isTop (b.page o.pageId) o.labels) =
      [] := by
    refine List.filter_eq_nil_iff.2 fun q hq htop => ?_
    obtain ⟨s, hs, hq⟩ := List.mem_flatMap.1 hq
    exact hb.not_hasData hs hq (isTop_iff.1 htop).1
  change (b.vars ++ b.strands.flatMap Strand.places).filter _ = _
  rw [List.filter_append, hstrands, List.append_nil]
  refine List.filter_congr fun q hq => Bool.eq_iff_iff.2 ?_
  rw [isTop_iff, decide_eq_true_eq, and_iff_left ⟨hb.beginsRow_var hdata hq,
    hb.controlNext_var hdata hq⟩]

/-- **Rows begin** with the other places of variables and with the entries. -/
theorem filter_startsRow (hb : b.Realizes o c) (hdata : c.DataApart o) {lay : Layout}
    (hlay : lay.nodes = (b.topVars (b.page o.pageId) o.labels).map (·.id)) :
    (b.page o.pageId).places.filter
        (startsRow (fun q => !isLed (b.page o.pageId) o.labels q.id) lay) =
      b.sideVars (b.page o.pageId) o.labels ++ b.strands.map (·.entry) := by
  have hiff : ∀ q, startsRow (fun q => !isLed (b.page o.pageId) o.labels q.id) lay q = true ↔
      (b.page o.pageId).BeginsRow o.labels q ∧ q.id ∉ lay.nodes := fun q => by
    rw [startsRow_iff, Bool.not_eq_true', isLed_eq_false_iff]
  have hstrand : ∀ s ∈ b.strands, s.places.filter
      (startsRow (fun q => !isLed (b.page o.pageId) o.labels q.id) lay) = [s.entry] := by
    intro s hs
    have hentry : s.entry ∈ s.places := List.mem_cons_self
    have hnew : s.entry.id ∉ lay.nodes := by
      rw [hlay]
      rintro hmem
      obtain ⟨q, hq, he⟩ := List.mem_map.1 hmem
      exact hb.var_ne_place (List.mem_filter.1 hq).1 hs hentry he
    have hafter : (s.links.map (·.after)).filter
        (startsRow (fun q => !isLed (b.page o.pageId) o.labels q.id) lay) = [] := by
      refine List.filter_eq_nil_iff.2 fun q hq hstart => ?_
      have hplace := strand_place_mem (o := o) hs (List.mem_cons_of_mem _ hq)
      obtain ⟨k, hk, rfl⟩ := List.mem_map.1 hq
      exact (hb.beginsRow_iff hdata hplace).1 ((hiff _).1 hstart).1 k (mem_links hs hk) rfl
    rw [Strand.places, List.filter_cons_of_pos ((hiff _).2 ⟨?_, hnew⟩), hafter]
    exact (hb.beginsRow_iff hdata (strand_place_mem hs hentry)).2 fun k hk =>
      hb.after_ne_entry hs hk
  change (b.vars ++ b.strands.flatMap Strand.places).filter _ = _
  rw [List.filter_append, List.filter_flatMap, List.flatMap_congr hstrand, ← List.map_eq_flatMap]
  congr 1
  refine List.filter_congr fun q hq => Bool.eq_iff_iff.2 ?_
  rw [hiff, and_iff_right (hb.beginsRow_var hdata hq), hlay, decide_eq_true_eq]
  refine not_congr ⟨fun hmem => ?_, fun h =>
    List.mem_map_of_mem (List.mem_filter.2 ⟨hq, decide_eq_true h⟩)⟩
  obtain ⟨q', hq', he⟩ := List.mem_map.1 hmem
  obtain ⟨hq', hdata'⟩ := List.mem_filter.1 hq'
  rw [← List.inj_on_of_nodup_map hb.nodup_placeIds (List.mem_append_left _ hq')
    (List.mem_append_left _ hq) he]
  exact of_decide_eq_true hdata'

/-- **The rows hold** the nodes of the page, each of them once. -/
theorem flatten_rows_perm (b : Blueprint) (id : Text) (p : Page) (l : Labels) :
    (b.rows p l).flatten.Perm
      ((b.page id).places.map (·.id) ++ (b.page id).transitions.map (·.id)) := by
  have hvars : ((b.topVars p l).map (·.id) ++ (b.sideVars p l).map (·.id)).Perm
      (b.vars.map (·.id)) := by
    rw [← List.map_append]
    have hsplit := List.filter_append_perm (fun q => decide (p.HasData l q)) b.vars
    simpa [Blueprint.topVars, Blueprint.sideVars] using hsplit.map (·.id)
  have hstrand : ∀ s ∈ b.strands, s.nodes.Perm
      (s.places.map (·.id) ++ s.transitions.map (·.id)) := fun s _ => by
    rw [s.map_id_places]
    simpa [Strand.transitions, Strand.nodes, Function.comp_def] using
      controlNodes_perm s.entry.id s.links
  have hstrands : (b.strands.flatMap Strand.nodes).Perm
      ((b.strands.flatMap Strand.places).map (·.id) ++
        (b.strands.flatMap Strand.transitions).map (·.id)) := by
    rw [List.map_flatMap, List.map_flatMap]
    exact (List.Perm.flatMap_left _ hstrand).trans (List.flatMap_append_perm ..).symm
  have hflatten : (b.rows p l).flatten = ((b.topVars p l).map (·.id) ++
      (b.sideVars p l).map (·.id)) ++ b.strands.flatMap Strand.nodes := by
    rw [Blueprint.rows, List.flatten_cons, List.flatten_append, ← List.append_assoc,
      ← List.flatMap_def, ← List.flatMap_def, ← List.map_eq_flatMap]
  rw [hflatten]
  refine (hvars.append hstrands).trans ?_
  rw [← List.append_assoc, ← List.map_append]
  rfl

theorem nodup_rows (hb : b.Realizes o c) (p : Page) (l : Labels) : (b.rows p l).flatten.Nodup :=
  (flatten_rows_perm b o.pageId p l).nodup_iff.2 (List.nodup_append.1 hb.nodup).1

theorem mem_rows_iff (b : Blueprint) (id : Text) (p : Page) (l : Labels) {x : Text} :
    x ∈ (b.rows p l).flatten ↔ (b.page id).IsNode x := by
  rw [(flatten_rows_perm b id p l).mem_iff, List.mem_append]
  rfl

/-- The rows below the top row are paths. -/
theorem isRow_rows (hb : b.Realizes o c) (hdata : c.DataApart o) :
    List.Forall₂ (IsRow (b.page o.pageId) ((b.page o.pageId).controlNext o.labels))
      (b.sideVars (b.page o.pageId) o.labels ++ b.strands.map (·.entry))
      (b.rows (b.page o.pageId) o.labels).tail := by
  refine List.rel_append ?_ ?_
  · refine List.forall₂_map_right_iff.2 (List.forall₂_same.2 fun q hq => ?_)
    exact ⟨hb.controlNext_var hdata (List.mem_filter.1 hq).1, rfl, Nat.succ_le_succ (Nat.zero_le _)⟩
  · refine List.forall₂_map_left_iff.2 (List.forall₂_map_right_iff.2
      (List.forall₂_same.2 fun s hs => ⟨hb.isPath_nodes hdata hs, rfl, ?_⟩))
    have hlength : s.nodes.length = 2 * s.links.length + 1 := length_controlNodes _ _
    exact hlength ▸ Nat.succ_le_succ (hb.length_links_le hs)

/-- **The layout of a compiled net** is the grid of its rows. -/
theorem layout_eq (hb : b.Realizes o c) (hdata : c.DataApart o) :
    layout o.control (b.page o.pageId) =
      grid (isPlaceId (b.page o.pageId)) 0 (b.rows (b.page o.pageId) o.labels) := by
  have htop := topRow_eq (isTop (b.page o.pageId) o.labels) hb.nodup_placeIds
  rw [hb.filter_isTop hdata] at htop
  have hnodes : (topRow (b.page o.pageId) (isTop (b.page o.pageId) o.labels)).nodes =
      (b.topVars (b.page o.pageId) o.labels).map (·.id) := by
    rw [htop, nodes_gridRow]
  have hpaths := hb.isRow_rows hdata
  rw [← hb.filter_startsRow hdata hnodes] at hpaths
  have hnd := hb.nodup_rows (b.page o.pageId) o.labels
  rw [rows, List.flatten_cons, ← hnodes] at hnd
  have hrows := foldl_addRow_paths (b.page o.pageId).places
    (r := (1, topRow (b.page o.pageId) (isTop (b.page o.pageId) o.labels))) hpaths hnd
  refine (Drawing.layout_eq (b.page o.pageId) o.labels).trans ?_
  rw [hrows, htop]
  refine lastRow_of_forall fun e he => ?_
  have hnode : (b.page o.pageId).IsNode e.1 := by
    rcases List.mem_append.1 he with he | he <;> obtain ⟨x, hx, rfl⟩ := List.mem_map.1 he
    · exact .inl (List.mem_map_of_mem hx)
    · exact .inr (List.mem_map_of_mem hx)
  have hmem := (mem_rows_iff b o.pageId (b.page o.pageId) o.labels).2 hnode
  rwa [← nodes_grid (isPlaceId (b.page o.pageId)) 0] at hmem

end Blueprint.Realizes

/-! ### Spots of nodes -/

/-- The layout is one of the page: it has a spot for each node of the page and for nothing else,
each spot tells the kind of its node, and no cell is used twice. -/
structure Drawing.Layout.Arranges (lay : Layout) (p : Page) : Prop where
  nodup : lay.nodes.Nodup
  mem_nodes_iff : ∀ x, x ∈ lay.nodes ↔ p.IsNode x
  isPlace_iff : ∀ x s, lay.spot? x = some s → (s.isPlace = true ↔ x ∈ p.places.map (·.id))
  not_isPlace_iff : ∀ x s, lay.spot? x = some s →
    (s.isPlace = false ↔ x ∈ p.transitions.map (·.id))
  apart : ∀ x y s t, lay.spot? x = some s → lay.spot? y = some t →
    s.column = t.column → s.row = t.row → x = y

/-- The strand fills a row of its own: the entry comes first, and after it, for each link, its
transition and the place after it. -/
structure Strand.Fills (lay : Layout) (row : Nat) (s : Strand) : Prop where
  entry : lay.spot? s.entry.id = some ⟨0, row, true⟩
  transition : ∀ j k, s.links[j]? = some k →
    lay.spot? k.transition.id = some ⟨2 * j + 1, row, false⟩
  after : ∀ j k, s.links[j]? = some k → lay.spot? k.after.id = some ⟨2 * j + 2, row, true⟩
  alone : ∀ x t, lay.spot? x = some t → t.row = row → x ∈ s.nodes

theorem getElem?_controlNodes {q : Text} {ks : List Link} {j : Nat} {k : Link}
    (h : ks[j]? = some k) : (controlNodes q ks)[2 * j + 1]? = some k.transition.id ∧
      (controlNodes q ks)[2 * j + 2]? = some k.after.id := by
  induction ks generalizing q j with
  | nil => cases h
  | cons k' ks ih =>
    rw [controlNodes_cons]
    cases j with
    | zero =>
      obtain rfl := Option.some.inj h
      exact ⟨rfl, rfl⟩
    | succ j => exact ih (q := k'.after.id) h

namespace Blueprint.Realizes

variable {o : NetOptions} {c : Contract} {b : Blueprint} {s : Strand}

theorem getElem?_rows_strand {p : Page} {l : Labels} {i : Nat} (h : b.strands[i]? = some s) :
    (b.rows p l)[(b.sideVars p l).length + 1 + i]? = some s.nodes := by
  have hindex : (b.sideVars p l).length + 1 + i = ((b.sideVars p l).length + i) + 1 := by omega
  rw [hindex, rows, List.getElem?_cons_succ, List.getElem?_append_right (by simp), List.length_map,
    Nat.add_sub_cancel_left, List.getElem?_map, h, Option.map_some]

theorem isPlaceId_transition (hb : b.Realizes o c) {t : Transition}
    (ht : t ∈ (b.page o.pageId).transitions) : isPlaceId (b.page o.pageId) t.id = false := by
  rw [← Bool.not_eq_true, isPlaceId_iff]
  intro hmem
  obtain ⟨q, hq, he⟩ := List.mem_map.1 hmem
  exact hb.place_ne_transition hq ht he

variable {lay : Layout}

theorem spot?_iff (hb : b.Realizes o c)
    (hlay : lay = grid (isPlaceId (b.page o.pageId)) 0 (b.rows (b.page o.pageId) o.labels))
    {x : Text} {t : Spot} :
    lay.spot? x = some t ↔ ∃ nodes, (b.rows (b.page o.pageId) o.labels)[t.row]? = some nodes ∧
      nodes[t.column]? = some x ∧ t.isPlace = isPlaceId (b.page o.pageId) x := by
  rw [hlay, spot?_grid_iff (hb.nodup_rows _ _)]
  constructor
  · rintro ⟨i, nodes, hrow, hnode, he, hplace⟩
    rw [Nat.zero_add] at he
    exact ⟨nodes, he ▸ hrow, hnode, hplace⟩
  · rintro ⟨nodes, hrow, hnode, hplace⟩
    exact ⟨t.row, nodes, hrow, hnode, (Nat.zero_add _).symm, hplace⟩

theorem arranges (hb : b.Realizes o c)
    (hlay : lay = grid (isPlaceId (b.page o.pageId)) 0 (b.rows (b.page o.pageId) o.labels)) :
    lay.Arranges (b.page o.pageId) := by
  have hnodes : lay.nodes = (b.rows (b.page o.pageId) o.labels).flatten := by
    rw [hlay, nodes_grid]
  have hmem : ∀ x, x ∈ lay.nodes ↔ (b.page o.pageId).IsNode x := fun x => by
    rw [hnodes, mem_rows_iff]
  have hplace : ∀ x t, lay.spot? x = some t →
      (t.isPlace = true ↔ x ∈ (b.page o.pageId).places.map (·.id)) := by
    intro x t ht
    obtain ⟨-, -, -, he⟩ := (hb.spot?_iff hlay).1 ht
    rw [he, isPlaceId_iff]
  constructor
  · exact hnodes ▸ hb.nodup_rows _ _
  · exact hmem
  · exact hplace
  · intro x t ht
    have hnode := (hmem x).1 (Layout.has_iff.1 (Option.isSome_iff_exists.2 ⟨t, ht⟩))
    rw [← Bool.not_eq_true, hplace x t ht]
    refine ⟨hnode.resolve_left, fun hx hx' => ?_⟩
    obtain ⟨y, hy, rfl⟩ := List.mem_map.1 hx
    rw [← isPlaceId_iff, hb.isPlaceId_transition hy] at hx'
    cases hx'
  · intro x y s t hs ht hcolumn hrow
    obtain ⟨nodes, hnodes, hx, -⟩ := (hb.spot?_iff hlay).1 hs
    obtain ⟨nodes', hnodes', hy, -⟩ := (hb.spot?_iff hlay).1 ht
    rw [← hrow, hnodes] at hnodes'
    rw [← hcolumn, ← Option.some.inj hnodes', hx] at hy
    exact Option.some.inj hy

theorem spot?_topVar (hb : b.Realizes o c)
    (hlay : lay = grid (isPlaceId (b.page o.pageId)) 0 (b.rows (b.page o.pageId) o.labels))
    {i : Nat} {q : Place} (hq : (b.topVars (b.page o.pageId) o.labels)[i]? = some q) :
    lay.spot? q.id = some ⟨i, 0, true⟩ := by
  have hplace : q ∈ (b.page o.pageId).places :=
    List.mem_append_left _ (List.mem_filter.1 (List.mem_of_getElem? hq)).1
  refine (hb.spot?_iff hlay).2 ⟨_, rfl, ?_, (isPlaceId_iff.2 (List.mem_map_of_mem hplace)).symm⟩
  rw [List.getElem?_map, hq, Option.map_some]

/-- **A strand has a row of its own.** -/
theorem fills (hb : b.Realizes o c)
    (hlay : lay = grid (isPlaceId (b.page o.pageId)) 0 (b.rows (b.page o.pageId) o.labels))
    {i : Nat} (hs : b.strands[i]? = some s) :
    s.Fills lay ((b.sideVars (b.page o.pageId) o.labels).length + 1 + i) := by
  have hrow := getElem?_rows_strand (p := b.page o.pageId) (l := o.labels) hs
  have hmem := List.mem_of_getElem? hs
  have hplace : ∀ q ∈ s.places, isPlaceId (b.page o.pageId) q.id = true := fun q hq =>
    isPlaceId_iff.2 (List.mem_map_of_mem (strand_place_mem hmem hq))
  constructor
  · exact (hb.spot?_iff hlay).2 ⟨_, hrow, rfl, (hplace _ List.mem_cons_self).symm⟩
  · intro j k hk
    have htransition : k.transition ∈ (b.page o.pageId).transitions :=
      transition_mem hmem (List.mem_map_of_mem (List.mem_of_getElem? hk))
    exact (hb.spot?_iff hlay).2 ⟨_, hrow, (getElem?_controlNodes hk).1,
      (hb.isPlaceId_transition htransition).symm⟩
  · intro j k hk
    have hafter : k.after ∈ s.places :=
      List.mem_cons_of_mem _ (List.mem_map_of_mem (List.mem_of_getElem? hk))
    exact (hb.spot?_iff hlay).2 ⟨_, hrow, (getElem?_controlNodes hk).2, (hplace _ hafter).symm⟩
  · intro x t ht he
    obtain ⟨nodes, hnodes, hx, -⟩ := (hb.spot?_iff hlay).1 ht
    rw [he, hrow] at hnodes
    obtain rfl := Option.some.inj hnodes
    exact List.mem_of_getElem? hx

end Blueprint.Realizes

/-! ### The layout of a contract's net -/

/-- **The layout of a compiled net.**  If no data arc looks like a control arc, every node of a
compiled net has a cell of its own.  The places of variables that data arcs touch stand in the top
row in the order of declaration.  Each other place of a variable has a row, and then each function
has one, in the order of compilation: its entry, and for each step its transition and the place
after it. -/
theorem Net.layout_ofContract {o : NetOptions} {c : Contract} {n : Net}
    (h : Net.ofContract o (some c) = .ok n) (hdata : c.DataApart o.filled) :
    ∃ (p : Page) (vars : List Place) (strands : List Strand), n.page = some p ∧
      p.places = vars ++ strands.flatMap Strand.places ∧
      p.transitions = strands.flatMap Strand.transitions ∧
      List.Forall₂ StateVariable.HeldBy c.stateVariables vars ∧
      List.Forall₂ (fun f s => Strand.Follows o.filled vars f.1 f.2 s) c.markedFunctions strands ∧
      (netLayout o.filled.control (some n)).Arranges p ∧
      (∀ i q, (vars.filter (p.HasData o.filled.labels))[i]? = some q →
        (netLayout o.filled.control (some n)).spot? q.id = some ⟨i, 0, true⟩) ∧
      (∀ x s, (netLayout o.filled.control (some n)).spot? x = some s → s.row = 0 →
        ∃ q ∈ vars, p.HasData o.filled.labels q ∧ q.id = x) ∧
      ∀ (i : Nat) (s : Strand), strands[i]? = some s → s.Fills (netLayout o.filled.control (some n))
        ((vars.filter fun q => ¬p.HasData o.filled.labels q).length + 1 + i) := by
  obtain ⟨b, hb, hpage⟩ := Net.exists_blueprint h
  have hlay : netLayout o.filled.control (some n) = grid (isPlaceId (b.page o.filled.pageId)) 0
      (b.rows (b.page o.filled.pageId) o.filled.labels) :=
    (netLayout_of_page hpage o.filled.control).trans (hb.layout_eq hdata)
  refine ⟨b.page o.filled.pageId, b.vars, b.strands, hpage, rfl, rfl, hb.vars, hb.strands,
    hb.arranges hlay, fun i q hq => hb.spot?_topVar hlay hq, fun x s hx hrow => ?_,
    fun i s hs => hb.fills hlay hs⟩
  obtain ⟨nodes, hnodes, hmem, -⟩ := (hb.spot?_iff hlay).1 hx
  rw [hrow] at hnodes
  obtain rfl := Option.some.inj hnodes
  obtain ⟨q, hq, rfl⟩ := List.mem_map.1 (List.mem_of_getElem? hmem)
  obtain ⟨hvar, hhas⟩ := List.mem_filter.1 hq
  exact ⟨q, hvar, of_decide_eq_true hhas, rfl⟩

/-- A contract with a variable that is only read in a guard and one that is assigned to. -/
def Contract.kiosk : Contract where
  name := "Kiosk"
  stateVariables := [
    { name := "owner", type := "address", visibility := "public" },
    { name := "left", type := "uint256", initial := "100", visibility := "public" }]
  constructor := none
  functions := [
    { name := "ping"
      visibility := "public"
      body := [.call { name := "log", arguments := none, line := 4 }] },
    { name := "draw"
      visibility := "public"
      body := [
        .conditional { kind := "require", condition := "owner != left", startLine := 7 },
        .operation { target := "left", expression := "left - 1", operator := "=" }] }]

theorem Net.layout_ofContract_kiosk :
    ∃ n p, Net.ofContract {} (some Contract.kiosk) = .ok n ∧ n.page = some p ∧
      (netLayout Labels.default.control (some n)).Arranges p ∧
      ∃ s : Strand, s.entry.name = "draw_entry" ∧ s.links.length = 2 ∧
        s.Fills (netLayout Labels.default.control (some n)) 3 := by
  have hdata : Contract.kiosk.DataApart ({} : NetOptions).filled := by
    intro op hop _
    have : op = { target := "left", expression := "left - 1", operator := "=" } := by
      simpa [Contract.steps, Contract.kiosk, Contract.allFunctions, Function.steps,
        Statement.isStep] using hop
    subst this
    decide +kernel
  obtain ⟨p, vars, strands, hpage, hplaces, -, hvars, hstrands, harranges, -, -, hfills⟩ :=
    Net.layout_ofContract (o := {}) (c := Contract.kiosk) rfl hdata
  refine ⟨_, p, rfl, hpage, harranges, ?_⟩
  obtain ⟨s₁, ss₁, -, hss₁, rfl⟩ := List.forall₂_cons_left_iff.1 hstrands
  obtain ⟨s₂, ss₂, h₂, -, rfl⟩ := List.forall₂_cons_left_iff.1 hss₁
  refine ⟨s₂, h₂.name, h₂.shows.length_eq.symm, ?_⟩
  have hside : (vars.filter fun q => ¬p.HasData ({} : NetOptions).filled.labels q).length = 1 := by
    have hlength : vars.length = 2 := hvars.length_eq.symm
    have htake : vars = p.places.take 2 := by rw [hplaces, List.take_left' hlength]
    rw [htake]
    obtain rfl := Option.some.inj hpage
    decide +kernel
  have hdraw := hfills 1 s₂ rfl
  rwa [hside] at hdraw

end ContractNet

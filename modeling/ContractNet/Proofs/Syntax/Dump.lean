import ContractNet.Proofs.Json.Fields
import ContractNet.Proofs.Json.RoundTrip
import ContractNet.Syntax.Dump

/-!
# Parse trees dumped and read back

* `DumpNode.Fits` bounds what a node can hold that was read from a value of a given depth, the
  children behind the ends of its lists included; reading over a node keeps it
  (`DumpNode.fits_of_read`);
* `Tree.Restored` says that a tree can be dumped in a given depth and is read back;
* `Tree.read_toJson`: a tree that was read from a dump is restored from its own dump, which is no
  deeper.
-/

namespace ContractNet.Syntax

open Json (Readable Settled IsInt64)

/-! ### What a dump can say -/

namespace DumpNode

/-- The texts of the node need no repair, and its lines fit in 64 bits. -/
structure Plain (n : DumpNode) : Prop where
  rule : n.rule.repaired = n.rule
  token : ∀ t ∈ n.token.toList, t.repaired = t
  text : n.text.repaired = n.text
  start : IsInt64 n.start
  stop : IsInt64 n.stop

/-- The node and all below it can have been read from a value of depth `d`.  A node and its list of
children take one level each. -/
def Fits : Nat → DumpNode → Prop
  | 0, _ => False
  | 1, n => n.Plain ∧ ∀ m, some m ∉ n.slots.backing
  | d + 2, n => n.Plain ∧ ∀ m, some m ∈ n.slots.backing → Fits d m

theorem plain_empty : Plain {} := by
  constructor <;> simp <;> decide

theorem Fits.plain {d : Nat} {n : DumpNode} (h : Fits d n) : n.Plain := by
  match d, h with
  | 1, h => exact h.1
  | _ + 2, h => exact h.1

theorem fits_of_backing_eq_nil {d : Nat} (hd : 0 < d) {n : DumpNode} (hn : n.Plain)
    (hslots : n.slots.backing = []) : Fits d n := by
  match d, hd with
  | 1, _ => exact ⟨hn, by simp [hslots]⟩
  | _ + 2, _ => exact ⟨hn, by simp [hslots]⟩

theorem fits_empty {d : Nat} (hd : 0 < d) : Fits d {} :=
  fits_of_backing_eq_nil hd plain_empty rfl

theorem Fits.of_slots_eq {d : Nat} {m n : DumpNode} (h : Fits d m) (hn : n.Plain)
    (hslots : n.slots = m.slots) : Fits d n := by
  match d, h with
  | 1, h => exact ⟨hn, hslots ▸ h.2⟩
  | _ + 2, h => exact ⟨hn, hslots ▸ h.2⟩

/-- A member that is no list of children changes the node itself only. -/
theorem plain_of_readPlain {old n : DumpNode} {key : Text} {j : Json} (hold : old.Plain)
    (hj : j.repaired = j) (h : readPlain old key j = .ok n) : n.Plain ∧ n.slots = old.slots := by
  rw [readPlain] at h
  split_ifs at h
  · obtain ⟨t, ht, rfl⟩ := Json.inField_bind_eq_ok_iff.1 h
    exact ⟨{ hold with rule := Json.repaired_of_readText ht hold.rule hj }, rfl⟩
  · obtain ⟨t, ht, rfl⟩ := Json.inField_bind_eq_ok_iff.1 h
    exact ⟨{ hold with token := Json.repaired_of_readOptText ht hj }, rfl⟩
  · obtain ⟨t, ht, rfl⟩ := Json.inField_bind_eq_ok_iff.1 h
    exact ⟨{ hold with text := Json.repaired_of_readText ht hold.text hj }, rfl⟩
  · obtain ⟨i, hi, rfl⟩ := Json.inField_bind_eq_ok_iff.1 h
    exact ⟨{ hold with start := Json.isInt64_of_readInt hi hold.start }, rfl⟩
  · obtain ⟨i, hi, rfl⟩ := Json.inField_bind_eq_ok_iff.1 h
    exact ⟨{ hold with stop := Json.isInt64_of_readInt hi hold.stop }, rfl⟩
  · exact ⟨Except.ok.inj h ▸ hold, Except.ok.inj h ▸ rfl⟩

/-! ### Reading keeps the bound -/

/-- Reading values of depth `d` over nodes that fit gives nodes that fit.  No node fits depth zero,
but nothing except a null is read there either. -/
def ReadKeeps (d : Nat) : Prop :=
  ∀ {old n : DumpNode} {j : Json}, (0 < d → Fits d old) → Readable d j → j ≠ .null →
    read old j = .ok n → Fits d n

/-- A list of children is read over those at the same places. -/
theorem fits_of_readList {d : Nat} (hread : ReadKeeps d) {old new : List (Option DumpNode)}
    {js : List Json} (hold : ∀ m, some m ∈ old → Fits d m) (hjs : ∀ j ∈ js, Readable d j)
    (h : readList old js = .ok new) : ∀ m, some m ∈ new → Fits d m := by
  induction js generalizing old new with
  | nil =>
    rw [readList] at h
    obtain rfl := Except.ok.inj h
    simp
  | cons j js ih =>
    have htail : ∀ m, some m ∈ old.tail → Fits d m := fun m hm => hold m (List.mem_of_mem_tail hm)
    rw [List.forall_mem_cons] at hjs
    by_cases hnull : j = .null
    · subst hnull
      simp only [readList, bind_eq_ok_iff, pure_eq_ok_iff] at h
      obtain ⟨ns, hns, rfl⟩ := h
      simpa using ih htail hjs.2 hns
    · -- the child is read over the one at the same place, or over an empty node
      have hfirst : 0 < d → Fits d (old.head?.join.getD {}) := fun hd => by
        match old, hold with
        | [], _ => exact fits_empty hd
        | none :: _, _ => exact fits_empty hd
        | some m :: _, hold => exact hold m List.mem_cons_self
      rw [readList] at h
      · simp only [bind_eq_ok_iff, pure_eq_ok_iff] at h
        obtain ⟨n, hn, ns, hns, rfl⟩ := h
        intro m hm
        rcases List.mem_cons.1 hm with hm | hm
        · exact Option.some.inj hm ▸ hread hfirst hjs.1 hnull hn
        · exact ih htail hjs.2 hns m hm
      · exact hnull

theorem fits_of_readChildren {d : Nat} (hread : ∀ e, e < d → ReadKeeps e)
    {old n : DumpNode} {j : Json} (hold : Fits (d + 1) old) (hj : Readable d j)
    (h : readChildren old j = .ok n) : Fits (d + 1) n := by
  have hplain : ∀ s, (old.setChildren s).Plain := fun s => { hold.plain with }
  cases j with
  | array js =>
    obtain ⟨e, rfl, hjs⟩ := hj.exists_of_array
    simp only [readChildren, bind_eq_ok_iff, pure_eq_ok_iff] at h
    obtain ⟨new, hnew, rfl⟩ := h
    -- the new children fit two levels below the node, and so do those that stood there before
    have hkids := fits_of_readList (hread e e.lt_succ_self) hold.2 hjs hnew
    refine ⟨hplain _, fun m hm => ?_⟩
    exact Json.Slots.forall_backing_replace (P := fun o => ∀ m, o = some m → Fits e m)
      (fun o ho m hm => hold.2 m (hm ▸ ho)) (fun o ho m hm => hkids m (hm ▸ ho)) (some m) hm m rfl
  | null =>
    rw [readChildren] at h
    obtain rfl := Except.ok.inj h
    exact fits_of_backing_eq_nil d.succ_pos (hplain _) rfl
  | _ => cases h

theorem fits_of_readMembers {d : Nat} (hread : ∀ e, e < d → ReadKeeps e)
    {old n : DumpNode} {ms : List (Text × Json)} (hold : Fits (d + 1) old)
    (hms : ∀ m ∈ ms, Readable d m.2) (h : readMembers old ms = .ok n) : Fits (d + 1) n := by
  induction ms generalizing old with
  | nil =>
    rw [readMembers] at h
    exact Except.ok.inj h ▸ hold
  | cons m ms ih =>
    rw [readMembers, bind_eq_ok_iff] at h
    obtain ⟨a, ha, h⟩ := h
    rw [List.forall_mem_cons] at hms
    refine ih ?_ hms.2 h
    obtain ⟨key, j⟩ := m
    rw [readMember] at ha
    split_ifs at ha
    · exact fits_of_readChildren hread hold hms.1 (Json.inField_eq_ok_iff.1 ha)
    · obtain ⟨hplain, hslots⟩ := plain_of_readPlain hold.plain hms.1.repaired_eq ha
      exact hold.of_slots_eq hplain hslots

/-- **Reading keeps the bound**, by induction on the depth of the value. -/
theorem fits_of_read (d : Nat) : ReadKeeps d := by
  induction d using Nat.strongRecOn with
  | ind d ih =>
    intro old n j hold hj hnull h
    cases j with
    | object ms =>
      obtain ⟨e, rfl, hms⟩ := hj.exists_of_object
      rw [read] at h
      exact fits_of_readMembers (fun k hk => ih k (by omega)) (hold e.succ_pos) hms h
    | null => exact (hnull rfl).elim
    | _ => cases h

/-! ### Reading a dump -/

/-- Read a member if it is there. -/
def readOptional (old : DumpNode) (key : Text) : Option Json → Except Json.TypeError DumpNode
  | none => .ok old
  | some j => readMember old (key, j)

theorem read_record (old : DumpNode) (ms : List (Text × Option Json)) :
    read old (.record ms) = ms.foldlM (fun n m => n.readOptional m.1 m.2) old := by
  rw [Json.record, read]
  induction ms generalizing old with
  | nil => rfl
  | cons m ms ih =>
    obtain ⟨key, o⟩ := m
    cases o with
    | none =>
      rw [List.foldlM_cons]
      exact ih old
    | some j =>
      rw [List.foldlM_cons]
      change readMember old (key, j) >>= _ = readMember old (key, j) >>= _
      exact congrArg _ (funext fun n => ih n)

section Members

variable (rule text : Text) (token : Option Text) (start stop : Int)
  (children spare : List (Option DumpNode))

theorem readOptional_rule (t : Text) :
    readOptional ⟨rule, token, text, start, stop, children, spare⟩ "rule" (some (.string t)) =
      .ok ⟨t, token, text, start, stop, children, spare⟩ := by
  simp +decide [readOptional, readMember, readPlain, Json.keyMatches_ofString, inField,
    Json.readText, bind, Except.bind, pure, Except.pure]

theorem readOptional_token (t : Text) :
    readOptional ⟨rule, token, text, start, stop, children, spare⟩ "token" (some (.string t)) =
      .ok ⟨rule, some t, text, start, stop, children, spare⟩ := by
  simp +decide [readOptional, readMember, readPlain, Json.keyMatches_ofString, inField,
    Json.readOptText, bind, Except.bind, pure, Except.pure]

theorem readOptional_text (t : Text) :
    readOptional ⟨rule, token, [], start, stop, children, spare⟩ "text" (Json.unlessEmpty t) =
      .ok ⟨rule, token, t, start, stop, children, spare⟩ := by
  cases t with
  | nil => rfl
  | cons b t =>
    simp +decide [Json.unlessEmpty, readOptional, readMember, readPlain, Json.keyMatches_ofString,
      inField, Json.readText, bind, Except.bind, pure, Except.pure]

theorem readOptional_start {i : Int} (hi : IsInt64 i) :
    readOptional ⟨rule, token, text, 0, stop, children, spare⟩ "start" (Json.unlessZero i) =
      .ok ⟨rule, token, text, i, stop, children, spare⟩ := by
  by_cases h : i = 0
  · subst h
    rfl
  · simp +decide [Json.unlessZero, readOptional, readMember, readPlain, Json.keyMatches_ofString,
      inField, h, Json.readInt_int _ hi, bind, Except.bind, pure, Except.pure]

theorem readOptional_end {i : Int} (hi : IsInt64 i) :
    readOptional ⟨rule, token, text, start, 0, children, spare⟩ "end" (Json.unlessZero i) =
      .ok ⟨rule, token, text, start, i, children, spare⟩ := by
  by_cases h : i = 0
  · subst h
    rfl
  · simp +decide [Json.unlessZero, readOptional, readMember, readPlain, Json.keyMatches_ofString,
      inField, h, Json.readInt_int _ hi, bind, Except.bind, pure, Except.pure]

theorem readOptional_children {js : List Json} {ns : List (Option DumpNode)}
    (h : readList [] js = .ok ns) :
    readOptional ⟨rule, token, text, start, stop, [], []⟩ "children" (Json.unlessNil js) =
      .ok ⟨rule, token, text, start, stop, ns, []⟩ := by
  cases js with
  | nil =>
    rw [readList] at h
    obtain rfl := Except.ok.inj h
    rfl
  | cons j js =>
    have hspare : (Json.Slots.replace {} ns).spare = [] := by
      rw [Json.Slots.replace]
      split_ifs <;> simp [Json.Slots.backing]
    simp +decide [Json.unlessNil, readOptional, readMember, Json.keyMatches_ofString, inField,
      readChildren, slots, Json.Slots.backing, h, setChildren, hspare, bind, Except.bind, pure,
      Except.pure]

end Members

/-! ### Nodes and trees -/

/-- A tree comes from a node with a token and nothing else, or from one with a rule. -/
theorem toTree_cases {path : List Nat} {n : DumpNode} {t : Tree} (h : n.toTree path = .ok t) :
    (∃ x, n.token = some x ∧ t = .token x n.start n.stop) ∨
      n.rule ≠ [] ∧ ∃ ts, toTrees path 0 n.children = .ok ts ∧
        t = .rule n.rule n.text n.start n.stop ts := by
  obtain ⟨rule, token, text, start, stop, children, spare⟩ := n
  cases token with
  | some x =>
    rw [toTree] at h
    split_ifs at h
    exact .inl ⟨x, rfl, (Except.ok.inj h).symm⟩
  | none =>
    rw [toTree] at h
    split_ifs at h with hrule
    simp only [bind_eq_ok_iff, pure_eq_ok_iff] at h
    obtain ⟨ts, hts, rfl⟩ := h
    exact .inr ⟨by simpa using hrule, ts, hts, rfl⟩

/-- What holds of the trees of all children holds of the trees in the list. -/
theorem forall_of_toTrees {P : Tree → Prop} {ns : List (Option DumpNode)} {path : List Nat}
    {i : Nat} {ts : List Tree} (hns : ∀ n, some n ∈ ns → ∀ path t, n.toTree path = .ok t → P t)
    (h : toTrees path i ns = .ok ts) : ∀ t ∈ ts, P t := by
  induction ns generalizing i ts with
  | nil =>
    rw [toTrees] at h
    obtain rfl := Except.ok.inj h
    simp
  | cons o ns ih =>
    cases o with
    | none =>
      rw [toTrees] at h
      cases h
    | some n =>
      simp only [toTrees, bind_eq_ok_iff, pure_eq_ok_iff] at h
      obtain ⟨t, ht, ts, hts, rfl⟩ := h
      exact List.forall_mem_cons.2 ⟨hns n List.mem_cons_self _ t ht,
        ih (fun m hm => hns m (List.mem_cons_of_mem _ hm)) hts⟩

end DumpNode

/-- The tree can be dumped at most `d` levels deep, and its dump is read as the tree. -/
structure Tree.Restored (d : Nat) (t : Tree) : Prop where
  settled : Settled d t.toJson
  reads : ∃ n, DumpNode.read {} t.toJson = .ok n ∧ ∀ path, n.toTree path = .ok t

theorem Tree.exists_toJson_eq_object (t : Tree) : ∃ ms, t.toJson = .object ms := by
  cases t with
  | rule n source start stop ks =>
    rw [toJson]
    split <;> exact ⟨_, rfl⟩
  | token x start stop => exact ⟨_, by rw [toJson, Json.record]⟩

theorem toJsonAll_eq_map (ts : List Tree) : toJsonAll ts = ts.map Tree.toJson := by
  induction ts with
  | nil => rfl
  | cons t ts ih => rw [toJsonAll, ih, List.map_cons]

/-- Children are read one by one. -/
theorem exists_readList_toJsonAll {d : Nat} {ts : List Tree} (h : ∀ t ∈ ts, t.Restored d) :
    ∃ ns, DumpNode.readList [] (toJsonAll ts) = .ok ns ∧
      ∀ path i, toTrees path i ns = .ok ts := by
  induction ts with
  | nil => exact ⟨[], by rw [toJsonAll, DumpNode.readList], fun _ _ => by rw [toTrees]⟩
  | cons t ts ih =>
    rw [List.forall_mem_cons] at h
    obtain ⟨n, hn, htree⟩ := h.1.reads
    obtain ⟨ns, hns, htrees⟩ := ih h.2
    refine ⟨some n :: ns, ?_, fun path i => ?_⟩
    · rw [toJsonAll, DumpNode.readList]
      · simp only [List.head?_nil, Option.join_none, Option.getD_none, List.tail_nil, hn, hns]
        rfl
      · obtain ⟨ms, hms⟩ := t.exists_toJson_eq_object
        rw [hms]
        exact nofun
    · rw [toTrees, htree, htrees]
      rfl

theorem Tree.restored_token {d : Nat} {x : Text} {start stop : Int} (hx : x.repaired = x)
    (hstart : IsInt64 start) (hstop : IsInt64 stop) :
    (Tree.token x start stop).Restored (d + 1) := by
  constructor
  · rw [toJson]
    refine .record ?_
    simp only [List.forall_mem_cons, List.not_mem_nil, false_implies, implies_true, and_true,
      Text.repaired_ofString, true_and]
    exact ⟨fun j hj => Option.some.inj hj ▸ .string hx, Settled.of_mem_unlessZero start,
      Settled.of_mem_unlessZero stop⟩
  · refine ⟨{ token := some x, start, stop }, ?_, fun path => by rw [DumpNode.toTree]; rfl⟩
    rw [toJson, DumpNode.read_record]
    simp only [List.foldlM_cons, List.foldlM_nil, bind, Except.bind, DumpNode.readOptional_token,
      DumpNode.readOptional_start _ _ _ _ _ _ hstart, DumpNode.readOptional_end _ _ _ _ _ _ hstop]
    rfl

/-- A rule is restored if its children are; a list of children takes one level more. -/
theorem Tree.restored_rule {d e : Nat} {name source : Text} {start stop : Int} {ks : List Tree}
    (hne : name ≠ []) (hname : name.repaired = name) (hsource : source.repaired = source)
    (hstart : IsInt64 start) (hstop : IsInt64 stop) (hks : ∀ k ∈ ks, k.Restored e)
    (hd : ks = [] ∨ d = e + 1) : (Tree.rule name source start stop ks).Restored (d + 1) := by
  have hempty : ¬name.isEmpty = true := fun h => hne (List.isEmpty_iff.1 h)
  constructor
  · have hkids : ∀ j ∈ Json.unlessNil (toJsonAll ks), Settled d j := by
      rcases hd with rfl | rfl
      · exact nofun
      · refine Settled.of_mem_unlessNil fun j hj => ?_
        rw [toJsonAll_eq_map] at hj
        obtain ⟨k, hk, rfl⟩ := List.mem_map.1 hj
        exact (hks k hk).settled
    rw [toJson, if_neg hempty]
    refine .record ?_
    simp only [List.forall_mem_cons, List.not_mem_nil, false_implies, implies_true, and_true,
      Text.repaired_ofString, true_and]
    exact ⟨fun j hj => Option.some.inj hj ▸ .string hname, Settled.of_mem_unlessEmpty hsource,
      Settled.of_mem_unlessZero start, Settled.of_mem_unlessZero stop, hkids⟩
  · obtain ⟨ns, hns, htrees⟩ := exists_readList_toJsonAll hks
    refine ⟨{ rule := name, text := source, start, stop, children := ns }, ?_, fun path => ?_⟩
    · rw [toJson, if_neg hempty, DumpNode.read_record]
      simp only [List.foldlM_cons, List.foldlM_nil, bind, Except.bind, DumpNode.readOptional_rule,
        DumpNode.readOptional_text, DumpNode.readOptional_start _ _ _ _ _ _ hstart,
        DumpNode.readOptional_end _ _ _ _ _ _ hstop, DumpNode.readOptional_children _ _ _ _ _ hns]
      rfl
    · rw [DumpNode.toTree, if_neg hempty, htrees]
      rfl

/-- **A node that fits gives a tree that is restored** in the same depth. -/
theorem Tree.restored_of_toTree {d : Nat} {n : DumpNode} (hn : n.Fits d) {path : List Nat}
    {t : Tree} (h : n.toTree path = .ok t) : t.Restored d := by
  induction d using Nat.strongRecOn generalizing n path t with
  | ind d ih =>
    have hplain := hn.plain
    obtain ⟨e, rfl⟩ : ∃ e, d = e + 1 := by
      cases d with
      | zero => exact hn.elim
      | succ e => exact ⟨e, rfl⟩
    rcases DumpNode.toTree_cases h with ⟨x, hx, rfl⟩ | ⟨hrule, ts, hts, rfl⟩
    · exact restored_token (hplain.token x (by simp [hx])) hplain.start hplain.stop
    · cases e with
      | zero =>
        -- all children are absent, which no tree allows
        have hnil : ts = [] := List.eq_nil_iff_forall_not_mem.2 (DumpNode.forall_of_toTrees
          (fun m hm _ _ _ => (hn.2 m (List.mem_append_left _ hm)).elim) hts)
        subst hnil
        exact restored_rule (e := 0) hrule hplain.rule hplain.text hplain.start hplain.stop
          (by simp) (.inl rfl)
      | succ e =>
        have hkids : ∀ k ∈ ts, k.Restored e := DumpNode.forall_of_toTrees (fun m hm path t ht =>
          ih e (by omega) (hn.2 m (List.mem_append_left _ hm)) ht) hts
        exact restored_rule hrule hplain.rule hplain.text hplain.start hplain.stop hkids (.inr rfl)

/-! ### Dumps -/

theorem Tree.exists_of_read {d : Text} {t : Tree} (h : Tree.read d = .ok t) :
    ∃ j n, Json.parse d = .ok j ∧ DumpNode.read {} j = .ok n ∧ n.toTree [] = .ok t := by
  rw [read] at h
  split at h
  · cases h
  · rename_i j hj
    split at h
    · cases h
    · rename_i n hn
      refine ⟨j, n, hj, hn, ?_⟩
      cases ht : n.toTree [] with
      | error e => rw [ht] at h; cases h
      | ok u => rw [ht] at h; exact congrArg _ (Except.ok.inj h)

/-- A null is no tree. -/
theorem Tree.ne_null_of_read {j : Json} {n : DumpNode} {t : Tree} (hn : DumpNode.read {} j = .ok n)
    (ht : n.toTree [] = .ok t) : j ≠ .null := by
  rintro rfl
  rw [DumpNode.read] at hn
  obtain rfl := Except.ok.inj hn
  rw [DumpNode.toTree] at ht
  cases ht

/-- **A tree that was read from a dump is read back from its own dump**, which is therefore dumped
in the same way again.  The dump of the tree is no deeper than the one it was read from. -/
theorem Tree.read_toJson {d : Text} {t : Tree} (h : Tree.read d = .ok t) :
    Tree.read t.toJson.pretty = .ok t ∧
      (Tree.read t.toJson.pretty).map (fun u => u.toJson.pretty) = .ok t.toJson.pretty ∧
      ∃ j, Json.parse d = .ok j ∧ Json.parse t.toJson.pretty = .ok t.toJson ∧
        t.toJson.depth ≤ j.depth ∧ j.depth ≤ Json.maxDepth := by
  obtain ⟨j, n, hj, hn, ht⟩ := exists_of_read h
  have hreadable := Json.readable_of_parse hj
  have hfits : n.Fits j.depth := DumpNode.fits_of_read j.depth DumpNode.fits_empty
    ⟨Nat.le_refl _, hreadable.repaired_eq⟩ (ne_null_of_read hn ht) hn
  have hrestored := restored_of_toTree hfits ht
  have hparse := hrestored.settled.parse_pretty hreadable.depth_le
  have hread : Tree.read t.toJson.pretty = .ok t := by
    obtain ⟨m, hm, htree⟩ := hrestored.reads
    rw [read, hparse]
    simp only [hm, htree]
    rfl
  refine ⟨hread, by rw [hread]; rfl, j, hj, hparse, hrestored.settled.tidy.depth_le,
    hreadable.depth_le⟩

/-- A dump with an unknown key that is deeper than the tree, a negative line, an empty token, and
two lists of children of which the second is read over the first. -/
def repeatedChildren : Text :=
  "\x7b\"rule\":\"a\",\"start\":-3,\"note\":[[[0]]]," ++
    "\"children\":[\x7b\"token\":\"\",\"start\":2\x7d,\x7b\"rule\":\"b\"\x7d]," ++
    "\"Children\":[\x7b\"end\":7\x7d]\x7d"

/-- The tree of `repeatedChildren` as it is dumped. -/
def replacedChildren : Text :=
  "\x7b\n  \"rule\": \"a\",\n  \"start\": -3,\n  \"children\": [\n    \x7b\n" ++
    "      \"token\": \"\",\n      \"start\": 2,\n      \"end\": 7\n    \x7d\n  ]\n\x7d"

theorem Tree.read_toJson_repeatedChildren :
    ∃ t, Tree.read repeatedChildren = .ok t ∧ t.toJson.pretty = replacedChildren ∧
      Tree.read replacedChildren = .ok t := by
  obtain ⟨t, hread, hdump⟩ := exists_eq_ok_of_map_toOption (x := Tree.read repeatedChildren)
    (f := fun t => t.toJson.pretty) (b := replacedChildren) (by decide +kernel)
  exact ⟨t, hread, hdump, hdump ▸ (Tree.read_toJson hread).1⟩

end ContractNet.Syntax

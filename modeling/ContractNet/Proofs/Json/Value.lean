import ContractNet.Json.Reader
import ContractNet.Proofs.Results
import ContractNet.Proofs.Text.Utf8

/-!
# Values that are read

* `Json.depth` is the number of arrays and objects that stand in one another;
* `Json.repaired` has U+FFFD in place of the stray bytes of all strings;
* `Json.readable_of_parse`: what is read needs no repair, and it is no deeper than allowed.
-/

namespace ContractNet.Json

mutual

/-- How many arrays and objects stand in one another. -/
def depth : Json → Nat
  | array js => 1 + depthAll js
  | object ms => 1 + depthMembers ms
  | null | bool _ | number _ | string _ => 0

/-- The greatest depth among the items of an array. -/
def depthAll : List Json → Nat
  | [] => 0
  | j :: js => max (depth j) (depthAll js)

/-- The greatest depth among the members of an object. -/
def depthMembers : List (Text × Json) → Nat
  | [] => 0
  | (_, j) :: ms => max (depth j) (depthMembers ms)

end

mutual

/-- The value with U+FFFD in place of the stray bytes of its strings and keys. -/
def repaired : Json → Json
  | string t => string t.repaired
  | array js => array (repairedAll js)
  | object ms => object (repairedMembers ms)
  | null => null
  | bool b => bool b
  | number n => number n

/-- The items of an array, each repaired. -/
def repairedAll : List Json → List Json
  | [] => []
  | j :: js => repaired j :: repairedAll js

/-- The members of an object, each repaired. -/
def repairedMembers : List (Text × Json) → List (Text × Json)
  | [] => []
  | (k, j) :: ms => (k.repaired, repaired j) :: repairedMembers ms

end

/-! ### Items and members -/

theorem depthAll_le_iff {js : List Json} {d : Nat} :
    depthAll js ≤ d ↔ ∀ j ∈ js, j.depth ≤ d := by
  induction js with
  | nil => simp [depthAll]
  | cons j js ih => rw [depthAll, Nat.max_le, ih, List.forall_mem_cons]

theorem depthMembers_le_iff {ms : List (Text × Json)} {d : Nat} :
    depthMembers ms ≤ d ↔ ∀ m ∈ ms, m.2.depth ≤ d := by
  induction ms with
  | nil => simp [depthMembers]
  | cons m ms ih => rw [depthMembers, Nat.max_le, ih, List.forall_mem_cons]

theorem repairedAll_eq_map (js : List Json) : repairedAll js = js.map repaired := by
  induction js with
  | nil => rfl
  | cons j js ih => rw [repairedAll, ih, List.map_cons]

theorem repairedMembers_eq_map (ms : List (Text × Json)) :
    repairedMembers ms = ms.map fun m => (m.1.repaired, m.2.repaired) := by
  induction ms with
  | nil => rfl
  | cons m ms ih => rw [repairedMembers, ih, List.map_cons]

@[simp] theorem repaired_string (t : Text) : (string t).repaired = string t.repaired := by
  rw [repaired]

@[simp] theorem repaired_array (js : List Json) :
    (array js).repaired = array (js.map repaired) := by
  rw [repaired, repairedAll_eq_map]

@[simp] theorem repaired_object (ms : List (Text × Json)) :
    (object ms).repaired = object (ms.map fun m => (m.1.repaired, m.2.repaired)) := by
  rw [repaired, repairedMembers_eq_map]

theorem repaired_record (ms : List (Text × Option Json)) : (record ms).repaired =
    record (ms.map fun m => (m.1.repaired, m.2.map repaired)) := by
  rw [record, repaired_object, record, List.map_filterMap, List.filterMap_map]
  refine congrArg object (List.filterMap_congr fun m _ => ?_)
  simp [Function.comp_def]

theorem repaired_array_eq_iff {js : List Json} :
    (array js).repaired = array js ↔ ∀ j ∈ js, j.repaired = j := by
  rw [repaired_array, array.injEq]
  exact ⟨fun h => List.map_inj_left.1 (h.trans (List.map_id js).symm),
    fun h => (List.map_congr_left h).trans (List.map_id js)⟩

theorem repaired_object_eq_iff {ms : List (Text × Json)} :
    (object ms).repaired = object ms ↔ ∀ m ∈ ms, m.1.repaired = m.1 ∧ m.2.repaired = m.2 := by
  have hpair : ∀ m : Text × Json, (m.1.repaired, m.2.repaired) = id m ↔
      m.1.repaired = m.1 ∧ m.2.repaired = m.2 := fun m => Prod.ext_iff
  rw [repaired_object, object.injEq]
  conv_lhs => rw [← List.map_id ms, List.map_map, List.map_inj_left]
  exact forall₂_congr fun m _ => hpair m

/-! ### Reading -/

/-- A value that can be read at most `d` levels deep: its strings need no repair. -/
structure Readable (d : Nat) (j : Json) : Prop where
  depth_le : j.depth ≤ d
  repaired_eq : j.repaired = j

theorem Readable.string (t : Text) (d : Nat) : Readable d (string t.repaired) :=
  ⟨by rw [depth]; exact Nat.zero_le d, by simp⟩

theorem Readable.array {d : Nat} {js : List Json} (h : ∀ j ∈ js, Readable d j) :
    Readable (d + 1) (array js) := by
  constructor
  · rw [depth, Nat.add_comm]
    exact Nat.succ_le_succ (depthAll_le_iff.2 fun j hj => (h j hj).depth_le)
  · exact repaired_array_eq_iff.2 fun j hj => (h j hj).repaired_eq

theorem Readable.object {d : Nat} {ms : List (Text × Json)}
    (h : ∀ m ∈ ms, m.1.repaired = m.1 ∧ Readable d m.2) : Readable (d + 1) (object ms) := by
  constructor
  · rw [depth, Nat.add_comm]
    exact Nat.succ_le_succ (depthMembers_le_iff.2 fun m hm => (h m hm).2.depth_le)
  · exact repaired_object_eq_iff.2 fun m hm => ⟨(h m hm).1, (h m hm).2.repaired_eq⟩

theorem Readable.exists_of_array {d : Nat} {js : List Json} (h : Readable d (.array js)) :
    ∃ e, d = e + 1 ∧ ∀ j ∈ js, Readable e j := by
  obtain ⟨hdepth, hrepaired⟩ := h
  rw [depth] at hdepth
  have hitems : ∀ j ∈ js, j.depth ≤ d - 1 := depthAll_le_iff.1 (by omega)
  exact ⟨d - 1, by omega, fun j hj => ⟨hitems j hj, repaired_array_eq_iff.1 hrepaired j hj⟩⟩

theorem Readable.exists_of_object {d : Nat} {ms : List (Text × Json)}
    (h : Readable d (.object ms)) : ∃ e, d = e + 1 ∧ ∀ m ∈ ms, Readable e m.2 := by
  obtain ⟨hdepth, hrepaired⟩ := h
  rw [depth] at hdepth
  have hmembers : ∀ m ∈ ms, m.2.depth ≤ d - 1 := depthMembers_le_iff.1 (by omega)
  exact ⟨d - 1, by omega, fun m hm => ⟨hmembers m hm, (repaired_object_eq_iff.1 hrepaired m hm).2⟩⟩

theorem refuse_ne_ok {α : Type} (place : SyntaxPlace) (t : Text) (x : α × Text) :
    refuse place t ≠ .ok x := by
  cases t <;> simp [refuse]

theorem repaired_of_readString {t s rest : Text} (h : readString t = .ok (s, rest)) :
    s.repaired = s := by
  simp only [readString, bind_eq_ok_iff, pure_eq_ok_iff] at h
  obtain ⟨⟨us, r⟩, -, h⟩ := h
  obtain ⟨rfl, -⟩ := Prod.mk.inj h
  exact Text.repaired_repaired _

theorem readable_of_readWord {w r rest : Text} {j j' : Json} (h : readWord w j r = .ok (j', rest))
    (hj : ∀ d, Readable d j) (d : Nat) : Readable d j' := by
  simp only [readWord, bind_eq_ok_iff, pure_eq_ok_iff] at h
  obtain ⟨_, -, h⟩ := h
  obtain ⟨rfl, -⟩ := Prod.mk.inj h
  exact hj d

theorem readable_of_readScalar {t rest : Text} {j : Json} (h : readScalar t = .ok (j, rest))
    (d : Nat) : Readable d j := by
  have hflat : ∀ j : Json, j.depth = 0 → j.repaired = j → ∀ d, Readable d j := fun j hd hr d =>
    ⟨hd ▸ Nat.zero_le d, hr⟩
  cases t with
  | nil => cases h
  | cons b r =>
    rw [readScalar] at h
    split_ifs at h
    · exact readable_of_readWord h (hflat _ (by rw [depth]) (by rw [repaired])) d
    · exact readable_of_readWord h (hflat _ (by rw [depth]) (by rw [repaired])) d
    · exact readable_of_readWord h (hflat _ (by rw [depth]) (by rw [repaired])) d
    · simp only [bind_eq_ok_iff, pure_eq_ok_iff] at h
      obtain ⟨⟨s, r'⟩, hs, h⟩ := h
      obtain ⟨rfl, -⟩ := Prod.mk.inj h
      exact repaired_of_readString hs ▸ Readable.string s d
    · simp only [bind_eq_ok_iff, pure_eq_ok_iff] at h
      obtain ⟨⟨n, r'⟩, -, h⟩ := h
      obtain ⟨rfl, -⟩ := Prod.mk.inj h
      exact hflat _ (by rw [depth]) (by rw [repaired]) d

section Lists

variable {value : Text → Except SyntaxError (Json × Text)} {d : Nat}

theorem readable_of_readItems (hvalue : ∀ t j rest, value t = .ok (j, rest) → Readable d j)
    {fuel : Nat} {t rest : Text} {js : List Json} (h : readItems value fuel t = .ok (js, rest)) :
    ∀ j ∈ js, Readable d j := by
  induction fuel generalizing t js with
  | zero => cases h
  | succ fuel ih =>
    simp only [readItems, bind_eq_ok_iff] at h
    obtain ⟨⟨j, r⟩, hj, h⟩ := h
    have hfirst := hvalue _ _ _ hj
    split at h
    · simp only [bind_eq_ok_iff, pure_eq_ok_iff] at h
      obtain ⟨⟨js', r'⟩, hjs, h⟩ := h
      obtain ⟨rfl, rfl⟩ := Prod.mk.inj h
      exact List.forall_mem_cons.2 ⟨hfirst, ih hjs⟩
    · obtain ⟨rfl, -⟩ := Prod.mk.inj (pure_eq_ok_iff.1 h)
      simpa using hfirst
    · exact (refuse_ne_ok _ _ _ h).elim

theorem readable_of_readMembers (hvalue : ∀ t j rest, value t = .ok (j, rest) → Readable d j)
    {fuel : Nat} {t rest : Text} {ms : List (Text × Json)}
    (h : readMembers value fuel t = .ok (ms, rest)) :
    ∀ m ∈ ms, m.1.repaired = m.1 ∧ Readable d m.2 := by
  induction fuel generalizing t ms with
  | zero => cases h
  | succ fuel ih =>
    rw [readMembers] at h
    split at h
    · simp only [bind_eq_ok_iff] at h
      obtain ⟨⟨key, r⟩, hkey, h⟩ := h
      split at h
      · simp only [bind_eq_ok_iff] at h
        obtain ⟨⟨j, r'⟩, hj, h⟩ := h
        have hfirst := And.intro (repaired_of_readString hkey) (hvalue _ _ _ hj)
        split at h
        · simp only [bind_eq_ok_iff, pure_eq_ok_iff] at h
          obtain ⟨⟨ms', r''⟩, hms, h⟩ := h
          obtain ⟨rfl, rfl⟩ := Prod.mk.inj h
          exact List.forall_mem_cons.2 ⟨hfirst, ih hms⟩
        · obtain ⟨rfl, -⟩ := Prod.mk.inj (pure_eq_ok_iff.1 h)
          simpa using hfirst
        · exact (refuse_ne_ok _ _ _ h).elim
      · exact (refuse_ne_ok _ _ _ h).elim
    · exact (refuse_ne_ok _ _ _ h).elim

end Lists

/-- **What is read at most `d` levels deep is readable there.** -/
theorem readable_of_readValue {d : Nat} {t rest : Text} {j : Json}
    (h : readValue d t = .ok (j, rest)) : Readable d j := by
  induction d generalizing t j rest with
  | zero =>
    rw [readValue.eq_def] at h
    dsimp only at h
    split at h
    · cases h
    · cases h
    · exact readable_of_readScalar h 0
  | succ d ih =>
    rw [readValue.eq_def] at h
    dsimp only at h
    split at h
    · split at h
      · obtain ⟨rfl, -⟩ := Prod.mk.inj (Except.ok.inj h)
        exact .array (by simp)
      · simp only [bind_eq_ok_iff, pure_eq_ok_iff] at h
        obtain ⟨⟨js, r⟩, hjs, h⟩ := h
        obtain ⟨rfl, -⟩ := Prod.mk.inj h
        exact .array (readable_of_readItems (fun _ _ _ => ih) hjs)
    · split at h
      · obtain ⟨rfl, -⟩ := Prod.mk.inj (Except.ok.inj h)
        exact .object (by simp)
      · simp only [bind_eq_ok_iff, pure_eq_ok_iff] at h
        obtain ⟨⟨ms, r⟩, hms, h⟩ := h
        obtain ⟨rfl, -⟩ := Prod.mk.inj h
        exact .object (readable_of_readMembers (fun _ _ _ => ih) hms)
    · exact readable_of_readScalar h _

theorem readable_of_parse {t : Text} {j : Json} (h : parse t = .ok j) : Readable maxDepth j := by
  simp only [parse, bind_eq_ok_iff] at h
  obtain ⟨⟨j', rest⟩, hj, h⟩ := h
  split at h
  · obtain rfl := pure_eq_ok_iff.1 h
    exact readable_of_readValue hj
  · cases h

end ContractNet.Json

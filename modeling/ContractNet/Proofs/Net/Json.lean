import ContractNet.Net.Json
import ContractNet.Proofs.Json.Fields
import ContractNet.Proofs.Json.RoundTrip
import ContractNet.Proofs.Net.Texts

/-!
# Nets written as JSON and read back

* `Net.restored` is what is left of a net: its type, or the core model, and U+FFFD in its texts for
  stray bytes;
* `NetRecord.readRecord_jsonWith`: the members of a net are read as they were written;
* `NetRecord.repaired_of_read`: every text that is read stood in the document, so that it needs no
  repair;
* `Net.readJson_toJson`: the JSON form of a net is read as `Net.restored`, and a net that was read
  is restored as it is.
-/

namespace ContractNet

open Json

/-! ### What is left of a net -/

/-- The net as it is read back. -/
def Net.restored (n : Net) : Net :=
  { n.mapTexts Text.repaired with
    type := if n.type.isEmpty then coreModelType else n.type.repaired }

/-- Nothing changes in a net with a type and without stray bytes. -/
theorem Net.restored_eq_self {n : Net} (htype : n.type ≠ [])
    (htexts : ∀ t ∈ n.texts, t.repaired = t) : n.restored = n := by
  have hrepaired : n.type.repaired = n.type := htexts _ (by simp [texts])
  rw [restored, mapTexts_eq_self htexts, if_neg (by simpa using htype), hrepaired]

/-! ### Writing -/

/-- The JSON of places and transitions: an id, a label unless it is empty, and one more text if it
is there. -/
def labelled (id label key : Text) (extra : Option Text) : Json :=
  .record [("id", some (.string id)), ("label", unlessEmpty label), (key, extra.map .string)]

theorem repaired_labelled (id label key : Text) (extra : Option Text) :
    (labelled id label key extra).repaired =
      labelled id.repaired label.repaired key.repaired (extra.map Text.repaired) := by
  have hlabel : (unlessEmpty label).map repaired = unlessEmpty label.repaired := by
    cases label <;> simp [unlessEmpty]
  have hextra : repaired ∘ string = string ∘ Text.repaired := funext repaired_string
  simp [labelled, repaired_record, hlabel, hextra]

theorem labelled_tidy (id label key : Text) (extra : Option Text) :
    (labelled id label key extra).Tidy 1 := by
  refine .record ?_
  simp only [List.forall_mem_cons, List.not_mem_nil, false_implies, implies_true, and_true]
  refine ⟨fun j hj => Option.some.inj hj ▸ .string 0 _, fun j hj => ?_, fun j hj => ?_⟩
  · rw [unlessEmpty] at hj
    split_ifs at hj
    · cases hj
    · exact Option.some.inj hj ▸ .string 0 label
  · obtain ⟨x, -, rfl⟩ := Option.map_eq_some_iff.1 hj
    exact .string 0 x

theorem Place.repaired_toJson (p : Place) :
    p.toJson.repaired = (p.mapTexts Text.repaired).toJson :=
  (repaired_labelled p.id p.name "initial" p.marking).trans (by rw [Text.repaired_ofString]; rfl)

theorem Transition.repaired_toJson (t : Transition) :
    t.toJson.repaired = (t.mapTexts Text.repaired).toJson :=
  (repaired_labelled t.id t.name "guard" t.guard).trans (by rw [Text.repaired_ofString]; rfl)

theorem Arc.repaired_toJson (a : Arc) : a.toJson.repaired = (a.mapTexts Text.repaired).toJson := by
  simp [toJson, mapTexts]

theorem Net.repaired_jsonWith (n : Net) (p : Page) : (n.jsonWith p).repaired =
    (n.mapTexts Text.repaired).jsonWith (p.mapTexts Text.repaired) := by
  simp [jsonWith, mapTexts, Page.mapTexts, Place.repaired_toJson, Transition.repaired_toJson,
    Arc.repaired_toJson, jsonContext, jsonKind]

theorem Arc.toJson_tidy (a : Arc) : a.toJson.Tidy 1 := by
  refine .object ?_
  simp only [List.forall_mem_cons, List.not_mem_nil, false_implies, implies_true, and_true]
  exact ⟨.string 0 _, .string 0 _, .string 0 _, .string 0 _⟩

/-- A net is written in three levels: the net, its lists and their elements. -/
theorem Net.jsonWith_tidy (n : Net) (p : Page) : (n.jsonWith p).Tidy 3 := by
  have hlist : ∀ {α : Type} {toJson : α → Json} (as : List α), (∀ a, (toJson a).Tidy 1) →
      (Json.array (as.map toJson)).Tidy 2 := fun as h =>
    .array fun j hj => by
      obtain ⟨a, -, rfl⟩ := List.mem_map.1 hj
      exact h a
  refine .object ?_
  simp only [List.forall_mem_cons, List.not_mem_nil, false_implies, implies_true, and_true]
  exact ⟨.string _ _, .string _ _, .string _ _, .string _ _, .string _ _,
    hlist _ fun p => labelled_tidy p.id p.name "initial" p.marking,
    hlist _ fun t => labelled_tidy t.id t.name "guard" t.guard, hlist _ Arc.toJson_tidy⟩

/-! ### Reading what was written -/

namespace NetRecord

theorem readRecord_place (p : Place) :
    readRecord "jsonPlace" placeMember ⟨[], [], none⟩ p.toJson = .ok p := by
  obtain ⟨id, name, marking⟩ := p
  cases name <;> cases marking <;>
    simp +decide [Place.toJson, record, unlessEmpty, readRecord, placeMember, keyMatches_ofString,
      readText, readOptText, bind, Except.bind, pure, Except.pure]

theorem readRecord_transition (t : Transition) :
    readRecord "jsonTransition" transitionMember ⟨[], [], none⟩ t.toJson = .ok t := by
  obtain ⟨id, name, guard⟩ := t
  cases name <;> cases guard <;>
    simp +decide [Transition.toJson, record, unlessEmpty, readRecord, transitionMember,
      keyMatches_ofString, readText, readOptText, bind, Except.bind, pure, Except.pure]

theorem readRecord_arc (a : Arc) :
    readRecord "jsonArc" arcMember ⟨[], [], [], []⟩ a.toJson = .ok a := by
  simp +decide [Arc.toJson, readRecord, arcMember, keyMatches_ofString, readText, bind,
    Except.bind, pure, Except.pure]

section Lists

variable {α : Type} {typeName : Text} {member : α → Text → Json → Except TypeError α} {new : α}
  {toJson : α → Json}

theorem readItems_map (h : ∀ a, readRecord typeName member new (toJson a) = .ok a) (as : List α) :
    readItems (readRecord typeName member) new [] (as.map toJson) = .ok as := by
  induction as with
  | nil => rfl
  | cons a as ih =>
    rw [List.map_cons, readItems, List.head?_nil, Option.getD_none, h a, List.tail_nil, ih]
    rfl

theorem readSlots_map (h : ∀ a, readRecord typeName member new (toJson a) = .ok a) (as : List α) :
    readSlots typeName member new {} (.array (as.map toJson)) = .ok (Slots.replace {} as) := by
  have hitems := readItems_map h as
  rw [readSlots]
  exact congrArg (Functor.map (Slots.replace {})) hitems

end Lists

/-- The members of a net are read as they were written. -/
theorem readRecord_jsonWith (n : Net) (p : Page) :
    readRecord "jsonNet" member {} (n.jsonWith p) = .ok {
      context := jsonContext
      kind := jsonKind
      id := n.id
      type := n.type
      page := p.id
      places := Slots.replace {} p.places
      transitions := Slots.replace {} p.transitions
      arcs := Slots.replace {} p.arcs } := by
  simp +decide [Net.jsonWith, readRecord, member, keyMatches_ofString, readText, bind,
      Except.bind, pure, Except.pure, readSlots_map readRecord_place,
      readSlots_map readRecord_transition, readSlots_map readRecord_arc]

/-! ### Reading what needs no repair -/

/-- What each member of an object keeps, the whole object keeps. -/
theorem readRecord_keeps {α : Type} {P : α → Prop} {typeName : Text}
    {member : α → Text → Json → Except TypeError α}
    (hmember : ∀ {a b key j}, P a → j.repaired = j → member a key j = .ok b → P b)
    {old new : α} {j : Json} (hold : P old) (hj : j.repaired = j)
    (h : readRecord typeName member old j = .ok new) : P new := by
  cases j with
  | object ms =>
    rw [repaired_object_eq_iff] at hj
    rw [readRecord] at h
    induction ms generalizing old with
    | nil => exact pure_eq_ok_iff.1 h ▸ hold
    | cons m ms ih =>
      rw [List.foldlM_cons, bind_eq_ok_iff] at h
      obtain ⟨a, ha, h⟩ := h
      rw [List.forall_mem_cons] at hj
      exact ih (hmember hold hj.1.2 ha) hj.2 h
  | null => exact Except.ok.inj h ▸ hold
  | _ => cases h

/-- What each record of a list keeps, the list keeps, with the elements behind its end. -/
theorem readSlots_keeps {α : Type} {P : α → Prop} {typeName : Text}
    {member : α → Text → Json → Except TypeError α} {new : α} (hnew : P new)
    (hmember : ∀ {a b key j}, P a → j.repaired = j → member a key j = .ok b → P b)
    {old s : Slots α} {j : Json} (hold : ∀ a ∈ old.backing, P a) (hj : j.repaired = j)
    (h : readSlots typeName member new old j = .ok s) : ∀ a ∈ s.backing, P a := by
  cases j with
  | array js =>
    rw [readSlots, map_eq_ok_iff] at h
    obtain ⟨as, has, rfl⟩ := h
    refine Slots.forall_backing_replace hold ?_
    rw [repaired_array_eq_iff] at hj
    -- the elements in front of which the list is read are used up along with it
    generalize old.backing = stock at hold has
    induction js generalizing stock as with
    | nil =>
      obtain rfl := Except.ok.inj has
      simp
    | cons j js ih =>
      simp only [readItems, bind_eq_ok_iff, pure_eq_ok_iff] at has
      obtain ⟨a, ha, as, has, rfl⟩ := has
      rw [List.forall_mem_cons] at hj ⊢
      have hfirst : P (stock.head?.getD new) := by
        cases stock with
        | nil => exact hnew
        | cons b stock => exact hold b List.mem_cons_self
      exact ⟨readRecord_keeps hmember hfirst hj.1 ha,
        ih hj.2 as _ (fun b hb => hold b (List.mem_of_mem_tail hb)) has⟩
  | null =>
    obtain rfl := Except.ok.inj h
    simp [Slots.backing]
  | _ => cases h

theorem placeMember_keeps {p q : Place} {key : Text} {j : Json}
    (hp : ∀ t ∈ p.texts, t.repaired = t) (hj : j.repaired = j) (h : placeMember p key j = .ok q) :
    ∀ t ∈ q.texts, t.repaired = t := by
  simp only [Place.texts, List.forall_mem_cons] at hp ⊢
  rw [placeMember] at h
  split_ifs at h
  · obtain ⟨t, ht, rfl⟩ := inField_bind_eq_ok_iff.1 h
    exact ⟨repaired_of_readText ht hp.1 hj, hp.2⟩
  · obtain ⟨t, ht, rfl⟩ := inField_bind_eq_ok_iff.1 h
    exact ⟨hp.1, repaired_of_readText ht hp.2.1 hj, hp.2.2⟩
  · obtain ⟨t, ht, rfl⟩ := inField_bind_eq_ok_iff.1 h
    exact ⟨hp.1, hp.2.1, repaired_of_readOptText ht hj⟩
  · exact Except.ok.inj h ▸ hp

theorem transitionMember_keeps {r s : Transition} {key : Text} {j : Json}
    (hr : ∀ t ∈ r.texts, t.repaired = t) (hj : j.repaired = j)
    (h : transitionMember r key j = .ok s) : ∀ t ∈ s.texts, t.repaired = t := by
  simp only [Transition.texts, List.forall_mem_cons] at hr ⊢
  rw [transitionMember] at h
  split_ifs at h
  · obtain ⟨t, ht, rfl⟩ := inField_bind_eq_ok_iff.1 h
    exact ⟨repaired_of_readText ht hr.1 hj, hr.2⟩
  · obtain ⟨t, ht, rfl⟩ := inField_bind_eq_ok_iff.1 h
    exact ⟨hr.1, repaired_of_readText ht hr.2.1 hj, hr.2.2⟩
  · obtain ⟨t, ht, rfl⟩ := inField_bind_eq_ok_iff.1 h
    exact ⟨hr.1, hr.2.1, repaired_of_readOptText ht hj⟩
  · exact Except.ok.inj h ▸ hr

theorem arcMember_keeps {a b : Arc} {key : Text} {j : Json}
    (ha : ∀ t ∈ a.texts, t.repaired = t) (hj : j.repaired = j) (h : arcMember a key j = .ok b) :
    ∀ t ∈ b.texts, t.repaired = t := by
  simp only [Arc.texts, List.forall_mem_cons] at ha ⊢
  rw [arcMember] at h
  split_ifs at h
  · obtain ⟨t, ht, rfl⟩ := inField_bind_eq_ok_iff.1 h
    exact ⟨repaired_of_readText ht ha.1 hj, ha.2⟩
  · obtain ⟨t, ht, rfl⟩ := inField_bind_eq_ok_iff.1 h
    exact ⟨ha.1, repaired_of_readText ht ha.2.1 hj, ha.2.2⟩
  · obtain ⟨t, ht, rfl⟩ := inField_bind_eq_ok_iff.1 h
    exact ⟨ha.1, ha.2.1, repaired_of_readText ht ha.2.2.1 hj, ha.2.2.2⟩
  · obtain ⟨t, ht, rfl⟩ := inField_bind_eq_ok_iff.1 h
    exact ⟨ha.1, ha.2.1, ha.2.2.1, repaired_of_readText ht ha.2.2.2.1 hj, ha.2.2.2.2⟩
  · exact Except.ok.inj h ▸ ha

/-- No text of the net or its elements needs repair, those of the elements behind the ends of the
lists included. -/
structure Repaired (r : NetRecord) : Prop where
  id : r.id.repaired = r.id
  type : r.type.repaired = r.type
  page : r.page.repaired = r.page
  places : ∀ p ∈ r.places.backing, ∀ t ∈ p.texts, t.repaired = t
  transitions : ∀ s ∈ r.transitions.backing, ∀ t ∈ s.texts, t.repaired = t
  arcs : ∀ a ∈ r.arcs.backing, ∀ t ∈ a.texts, t.repaired = t

theorem repaired_of_member {r s : NetRecord} {key : Text} {j : Json} (hr : r.Repaired)
    (hj : j.repaired = j) (h : member r key j = .ok s) : s.Repaired := by
  rw [member] at h
  split_ifs at h
  · obtain ⟨t, -, rfl⟩ := inField_bind_eq_ok_iff.1 h
    exact { hr with }
  · obtain ⟨t, -, rfl⟩ := inField_bind_eq_ok_iff.1 h
    exact { hr with }
  · obtain ⟨t, ht, rfl⟩ := inField_bind_eq_ok_iff.1 h
    exact { hr with id := repaired_of_readText ht hr.id hj }
  · obtain ⟨t, ht, rfl⟩ := inField_bind_eq_ok_iff.1 h
    exact { hr with type := repaired_of_readText ht hr.type hj }
  · obtain ⟨t, ht, rfl⟩ := inField_bind_eq_ok_iff.1 h
    exact { hr with page := repaired_of_readText ht hr.page hj }
  · obtain ⟨s, hs, rfl⟩ := inField_bind_eq_ok_iff.1 h
    exact { hr with
      places := readSlots_keeps (by simp [Place.texts]) placeMember_keeps hr.places hj hs }
  · obtain ⟨s, hs, rfl⟩ := inField_bind_eq_ok_iff.1 h
    exact { hr with
      transitions :=
        readSlots_keeps (by simp [Transition.texts]) transitionMember_keeps hr.transitions hj hs }
  · obtain ⟨s, hs, rfl⟩ := inField_bind_eq_ok_iff.1 h
    exact { hr with arcs := readSlots_keeps (by simp [Arc.texts]) arcMember_keeps hr.arcs hj hs }
  · exact Except.ok.inj h ▸ hr

theorem repaired_of_read {r : NetRecord} {j : Json} (hj : j.repaired = j)
    (h : readRecord "jsonNet" member {} j = .ok r) : r.Repaired := by
  have hempty : Repaired {} := by constructor <;> simp [Slots.backing]
  exact readRecord_keeps repaired_of_member hempty hj h

theorem toNet_type_ne_nil (r : NetRecord) : r.toNet.type ≠ [] := by
  rw [toNet]
  split_ifs with h
  · exact show coreModelType ≠ [] by decide
  · exact fun hnil => h (List.isEmpty_iff.2 hnil)

theorem repaired_toNet {r : NetRecord} (h : r.Repaired) : ∀ t ∈ r.toNet.texts, t.repaired = t := by
  have hitems : ∀ {α : Type} {texts : α → List Text} {s : Slots α},
      (∀ a ∈ s.backing, ∀ t ∈ texts a, t.repaired = t) →
        ∀ t ∈ s.items.flatMap texts, t.repaired = t := fun hs t ht => by
    obtain ⟨a, ha, ht⟩ := List.mem_flatMap.1 ht
    exact hs a (List.mem_append_left _ ha) t ht
  have htype : r.toNet.type.repaired = r.toNet.type := by
    rw [toNet]
    split_ifs
    · exact Text.repaired_ofString _
    · exact h.type
  simp only [Net.texts, List.forall_mem_cons]
  refine ⟨h.id, htype, ?_⟩
  simp only [toNet, Option.toList_some, List.flatMap_singleton, Page.texts, List.forall_mem_cons,
    List.forall_mem_append]
  exact ⟨h.page, ⟨hitems h.places, hitems h.transitions⟩, hitems h.arcs⟩

end NetRecord

/-! ### Documents -/

theorem Net.readJson_pretty (n : Net) (p : Page) :
    Net.readJson (n.jsonWith p).pretty =
      .ok { n.restored with page := some (p.mapTexts Text.repaired) } := by
  rw [readJson, parse_pretty ((n.jsonWith_tidy p).mono (by decide)), repaired_jsonWith]
  simp only [NetRecord.readRecord_jsonWith]
  rw [if_pos (by simp)]
  simp [NetRecord.toNet, restored, mapTexts]

theorem Net.exists_record_of_readJson {d : Text} {n : Net} (h : Net.readJson d = .ok n) :
    ∃ r : NetRecord, r.Repaired ∧ r.toNet = n := by
  rw [readJson] at h
  split at h
  · cases h
  · rename_i j hj
    split at h
    · cases h
    · rename_i r hr
      split_ifs at h
      exact ⟨r, NetRecord.repaired_of_read (readable_of_parse hj).repaired_eq hr, Except.ok.inj h⟩

/-- **Writing a net as JSON and reading it back** gives the net with its elements in order and its
absent and empty markings and guards told apart, up to a type for a net without one and U+FFFD for
stray bytes.  Reading any text, writing the net and reading it again gives the same net. -/
theorem Net.readJson_toJson (n : Net) :
    (n.page.isSome → n.toJson?.map Net.readJson = some (.ok n.restored)) ∧
      ∀ d, Net.readJson d = .ok n → n.toJson?.map Net.readJson = some (.ok n) := by
  have hback : n.page.isSome → n.toJson?.map Net.readJson = some (.ok n.restored) := by
    intro hpage
    obtain ⟨p, hp⟩ := Option.isSome_iff_exists.1 hpage
    rw [toJson?, hp, Option.map_some, Option.map_some, readJson_pretty, restored, mapTexts, hp]
    rfl
  refine ⟨hback, fun d hd => ?_⟩
  obtain ⟨r, hr, rfl⟩ := exists_record_of_readJson hd
  rw [hback rfl, restored_eq_self r.toNet_type_ne_nil (NetRecord.repaired_toNet hr)]

/-- A net without type, with a stray byte as an id, quotes and ends of lines, and markings and
guards that are absent or empty. -/
def Net.mixed : Net where
  id := "n \"1\""
  type := []
  page := some {
    id := []
    places := [⟨[0xff], "a < b\n", some []⟩, ⟨"p", [], none⟩]
    transitions := [⟨"t", [], some "[x > '0']\t"⟩, ⟨"t", "u", some []⟩]
    arcs := [⟨"a", "p", "t", "\u2028"⟩] }

/-- A net with unknown, repeated and missing keys and half of a surrogate pair. -/
def Net.repeatedKeys : Text :=
  "\x7b\"places\": [\x7b\"id\": \"p\", \"LABEL\": \"x\"\x7d, null], \"note\": [1.5e3]," ++
    "\"places\": [\x7b\"initial\": \"\\ud800\"\x7d]\x7d"

theorem Net.readJson_toJson_mixed :
    Net.mixed.toJson?.map Net.readJson = some (.ok {
        id := "n \"1\""
        type := coreModelType
        page := some {
          id := []
          places := [⟨"\uFFFD", "a < b\n", some []⟩, ⟨"p", [], none⟩]
          transitions := [⟨"t", [], some "[x > '0']\t"⟩, ⟨"t", "u", some []⟩]
          arcs := [⟨"a", "p", "t", "\u2028"⟩] } }) ∧
      ∃ n : Net, Net.readJson Net.repeatedKeys = .ok n ∧
        n.page = some { id := [], places := [⟨"p", "x", some "\uFFFD"⟩] } ∧
        n.toJson?.map Net.readJson = some (.ok n) := by
  obtain ⟨n, hread, hpage⟩ := exists_eq_ok_of_map_toOption
    (x := Net.readJson Net.repeatedKeys) (f := Net.page)
    (b := some { id := [], places := [⟨"p", "x", some "\uFFFD"⟩] }) (by decide +kernel)
  refine ⟨((Net.readJson_toJson Net.mixed).1 rfl).trans ?_, n, hread, hpage,
    (Net.readJson_toJson n).2 _ hread⟩
  exact congrArg (fun n => some (Except.ok n)) (by decide +kernel)

end ContractNet

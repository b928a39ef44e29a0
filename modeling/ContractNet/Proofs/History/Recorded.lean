import ContractNet.History.Basic
import ContractNet.Proofs.Results
import ContractNet.Proofs.Time.Fixed
import Mathlib.Data.List.Nodup

/-!
# What a history answers

Runs are handed to an empty history one after the other (`History.submitAll`).  A submission either
adds one run to the history or leaves it as it is, so the history keeps exactly the runs that were
recorded (`History.Keeps`, `Keeps.submitAll`).  What is recorded of a submission is told by
`Submission.Completes`: what it gives is kept, what it lacks is filled in, and its time is carried
over to universal time.

Rows are ordered by the texts of their times.  Texts of times of different zones would not be
ordered as the instants are; the kept ones are all in universal time, where they are so in the years
0 to 9999 (`ZonedTime.le_toFixed_iff`).  Sorting is stable, so of runs of the same instant the one
recorded later comes first (`pairwise_mergeSort_of_pairwise`).

`History.answers_submitAll` tells **all answers of a history** from the submissions.
-/

namespace ContractNet

/-! ### Submissions -/

/-- A run that is handed in, with the id and the time that it gets if it lacks them. -/
structure Submission where
  freshId : Text
  now : ZonedTime
  run : Run

namespace Submission

/-- The instant at which the run was made: the one it comes with, or else that of its recording. -/
def instant (s : Submission) : Instant :=
  if (s.run.created : Instant) = Instant.zero then s.now else s.run.created

/-- What is recorded of a submission. -/
structure Completes (s : Submission) (r : Run) : Prop where
  id_given : s.run.id ≠ [] → r.id = s.run.id
  id_missing : s.run.id = [] → r.id = s.freshId
  cid_given : s.run.cid ≠ [] → r.cid = s.run.cid
  /-- The content identifier that is filled in is that of the document. -/
  cid_missing : s.run.cid = [] → r.cid = contentId s.run.document
  contract : r.contract = s.run.contract
  counts : (r.places, r.transitions, r.arcs) = (s.run.places, s.run.transitions, s.run.arcs)
  valid : r.valid = s.run.valid
  document : r.document = s.run.document
  instant : r.created.instant = s.instant
  /-- Whatever clocks showed the instant, it is recorded in universal time. -/
  offset : r.created.offset = 0

/-- The same submission with all its times in universal time. -/
def utc (s : Submission) : Submission :=
  { s with now := s.now.utc, run := { s.run with created := s.run.created.utc } }

/-- The run as it is recorded. -/
def completed (s : Submission) : Run := History.complete s.freshId s.now s.run

theorem completes_completed (s : Submission) : s.Completes s.completed where
  id_given h := by simp [completed, History.complete, h]
  id_missing h := by simp [completed, History.complete, h]
  cid_given h := by simp [completed, History.complete, h]
  cid_missing h := by simp [completed, History.complete, h]
  contract := rfl
  counts := rfl
  valid := rfl
  document := rfl
  instant := apply_ite ZonedTime.instant _ _ _
  offset := ZonedTime.offset_utc _

/-- Zones make no difference to what is recorded. -/
theorem completed_utc (s : Submission) : s.utc.completed = s.completed := by
  unfold completed History.complete utc
  by_cases hzero : s.run.created.instant = Instant.zero <;> simp [hzero]

end Submission

/-- The runs that were recorded, in this order. -/
def recordedRuns (answers : List (Except HistoryError Run)) : List Run :=
  answers.filterMap Except.toOption

namespace History

/-- The answer to a submission and the history after it; what is refused leaves no trace. -/
def submit (h : History) (s : Submission) : Except HistoryError Run × History :=
  match h.record s.freshId s.now s.run with
  | .ok (r, h') => (.ok r, h')
  | .error e => (.error e, h)

/-- The answers to submissions made one after the other, and the history after them. -/
def submitAll (h : History) : List Submission → List (Except HistoryError Run) × History
  | [] => ([], h)
  | s :: ss =>
    let after := (h.submit s).2.submitAll ss
    ((h.submit s).1 :: after.1, after.2)

theorem submit_utc (h : History) (s : Submission) : h.submit s.utc = h.submit s := by
  have hcompleted := s.completed_utc
  unfold Submission.completed at hcompleted
  unfold submit record
  rw [hcompleted]

/-- Zones make no difference to answers. -/
theorem submitAll_map_utc (h : History) (ss : List Submission) :
    h.submitAll (ss.map Submission.utc) = h.submitAll ss := by
  induction ss generalizing h with
  | nil => rfl
  | cons s ss ih => simp only [List.map_cons, submitAll, submit_utc, ih]

theorem submitAll_append (h : History) (ss ts : List Submission) :
    h.submitAll (ss ++ ts) =
      ((h.submitAll ss).1 ++ ((h.submitAll ss).2.submitAll ts).1,
        ((h.submitAll ss).2.submitAll ts).2) := by
  induction ss generalizing h with
  | nil => rfl
  | cons s ss ih => simp only [List.cons_append, submitAll, ih]

/-! ### What is kept -/

/-- The history keeps the given runs, recorded in this order. -/
structure Keeps (h : History) (runs : List Run) : Prop where
  rows : h.rows = runs.reverse.map fun r => ⟨r, r.created.toFixed⟩
  ids : (runs.map Run.id).Nodup
  offsets : ∀ r ∈ runs, r.created.offset = 0
  years : ∀ r ∈ runs, r.created.instant.HasFourDigitYear

variable {h : History} {runs : List Run} {s : Submission}

theorem Keeps.empty : Keeps {} [] := ⟨rfl, List.nodup_nil, by simp, by simp⟩

namespace Keeps

theorem any_id_iff (hk : Keeps h runs) (id : Text) :
    (h.rows.any fun row => row.run.id = id) = true ↔ ∃ r ∈ runs, r.id = id := by
  rw [hk.rows]
  simp

/-- An id that is taken is refused, and the history stays as it is. -/
theorem submit_of_taken (hk : Keeps h runs) (htaken : ∃ r ∈ runs, r.id = s.completed.id) :
    h.submit s = (.error (.sharedId s.completed.id), h) := by
  have hany := (hk.any_id_iff s.completed.id).2 htaken
  unfold submit record
  rw [Submission.completed] at hany
  simp only [hany, if_true]
  rfl

/-- A new id is accepted, and the history keeps the completed run as well. -/
theorem submit_of_new (hk : Keeps h runs) (hnew : ¬∃ r ∈ runs, r.id = s.completed.id)
    (hyear : s.instant.HasFourDigitYear) :
    ∃ h', h.submit s = (.ok s.completed, h') ∧ Keeps h' (runs ++ [s.completed]) := by
  have hany := mt (hk.any_id_iff s.completed.id).1 hnew
  refine ⟨⟨⟨s.completed, s.completed.created.toFixed⟩ :: h.rows⟩, ?_, ?_, ?_, ?_, ?_⟩
  · unfold submit record
    rw [Submission.completed] at hany
    simp only [hany]
    rfl
  · rw [hk.rows, List.reverse_append]
    rfl
  · rw [List.map_append, List.nodup_append]
    refine ⟨hk.ids, List.nodup_singleton _, fun id hid id' hid' => ?_⟩
    obtain ⟨r, hr, rfl⟩ := List.mem_map.1 hid
    rw [List.mem_singleton.1 hid']
    exact fun heq => hnew ⟨r, hr, heq⟩
  · exact List.forall_mem_append.2 ⟨hk.offsets, by simp [s.completes_completed.offset]⟩
  · exact List.forall_mem_append.2 ⟨hk.years, by simpa [s.completes_completed.instant] using hyear⟩

/-- One submission: the history keeps what was recorded by it as well. -/
theorem submit (hk : Keeps h runs) (hyear : s.instant.HasFourDigitYear) :
    Keeps (h.submit s).2 (runs ++ recordedRuns [(h.submit s).1]) := by
  by_cases htaken : ∃ r ∈ runs, r.id = s.completed.id
  · rw [hk.submit_of_taken htaken]
    rw [recordedRuns, List.filterMap_cons_none rfl, List.filterMap_nil, List.append_nil]
    exact hk
  · obtain ⟨h', heq, hk'⟩ := hk.submit_of_new htaken hyear
    rw [heq]
    exact hk'

/-- Submissions one after the other: **the history keeps what was recorded**. -/
theorem submitAll (hk : Keeps h runs) {ss : List Submission}
    (hyears : ∀ s ∈ ss, s.instant.HasFourDigitYear) :
    Keeps (h.submitAll ss).2 (runs ++ recordedRuns (h.submitAll ss).1) := by
  induction ss generalizing h runs with
  | nil => simpa [History.submitAll, recordedRuns] using hk
  | cons s ss ih =>
    obtain ⟨hyear, hyears⟩ := List.forall_mem_cons.1 hyears
    have hafter := ih (hk.submit hyear) hyears
    rw [List.append_assoc] at hafter
    have hruns : recordedRuns [(h.submit s).1] ++ recordedRuns ((h.submit s).2.submitAll ss).1 =
        recordedRuns (h.submitAll (s :: ss)).1 := by
      rw [recordedRuns, recordedRuns, ← List.filterMap_append]
      rfl
    rwa [hruns] at hafter

end Keeps

/-! ### Order -/

/-- The runs are the recorded ones, each once and newest first; of runs of the same instant, the one
recorded later comes first. -/
structure NewestFirst (recorded runs : List Run) : Prop where
  perm : runs.Perm recorded
  ids : (runs.map Run.id).Nodup
  order : runs.Pairwise fun a b =>
    b.created.instant.nanos < a.created.instant.nanos ∨
      a.created.instant = b.created.instant ∧ [b, a].Sublist recorded

/-- One run is at least as new as another one. -/
def isAsNew (a b : Run) : Bool := b.created.instant.nanos ≤ a.created.instant.nanos

theorem isAsNew_trans (a b c : Run) (hab : isAsNew a b = true) (hbc : isAsNew b c = true) :
    isAsNew a c = true := by
  simp only [isAsNew, decide_eq_true_eq] at *
  omega

theorem isAsNew_total (a b : Run) : (isAsNew a b || isAsNew b a) = true := by
  simp only [isAsNew, Bool.or_eq_true, decide_eq_true_eq]
  omega

/-- **Sorting is stable:** runs that are equally new keep their order. -/
theorem pairwise_mergeSort_of_pairwise {R : Run → Run → Prop} (hR : runs.Pairwise R) :
    (runs.mergeSort isAsNew).Pairwise fun a b =>
      isAsNew a b = true ∧ (isAsNew b a = true → R a b) := by
  induction runs with
  | nil => simp
  | cons r runs ih =>
    obtain ⟨hr, hR⟩ := List.pairwise_cons.1 hR
    have hsorted := List.pairwise_mergeSort isAsNew_trans isAsNew_total (r :: runs)
    -- sorting puts the first run before all others that are not newer
    obtain ⟨newer, rest, heq, hrest, hnewer⟩ :=
      List.mergeSort_cons isAsNew_trans isAsNew_total r runs
    rw [heq] at hsorted ⊢
    have hih := ih hR
    rw [hrest] at hih
    obtain ⟨hnew, hold, hacross⟩ := List.pairwise_append.1 hih
    obtain ⟨-, hfirst, hbefore⟩ := List.pairwise_append.1 hsorted
    refine List.pairwise_append.2 ⟨hnew, List.pairwise_cons.2 ⟨fun b hb => ?_, hold⟩, ?_⟩
    · have hmem : b ∈ runs.mergeSort isAsNew := hrest ▸ List.mem_append_right _ hb
      exact ⟨(List.pairwise_cons.1 hfirst).1 b hb, fun _ => hr b (List.mem_mergeSort.1 hmem)⟩
    · intro a ha b hb
      rcases List.mem_cons.1 hb with rfl | hb
      · refine ⟨hbefore a ha b List.mem_cons_self, fun hback => ?_⟩
        have hnot := hnewer a ha
        rw [hback] at hnot
        cases hnot
      · exact hacross a ha b hb

/-! ### Lookups -/

namespace Keeps

theorem newestFirst_mergeSort (hk : Keeps h runs) :
    NewestFirst runs (runs.reverse.mergeSort isAsNew) := by
  have hperm : (runs.reverse.mergeSort isAsNew).Perm runs :=
    (List.mergeSort_perm _ _).trans (List.reverse_perm _)
  have hreverse : runs.reverse.Pairwise fun a b => [b, a].Sublist runs :=
    List.pairwise_reverse.2 (List.pairwise_iff_forall_sublist.2 id)
  refine ⟨hperm, ((hperm.map Run.id).nodup_iff).2 hk.ids, ?_⟩
  refine (pairwise_mergeSort_of_pairwise hreverse).imp fun {a b} hab => ?_
  simp only [isAsNew, decide_eq_true_eq] at hab
  by_cases hsame : b.created.instant.nanos = a.created.instant.nanos
  · exact .inr ⟨congrArg Instant.mk hsame.symm, hab.2 (by omega)⟩
  · exact .inl (by omega)

theorem map_rows (hk : Keeps h runs) : h.rows.map Row.run = runs.reverse := by
  rw [hk.rows, List.map_map]
  exact List.map_id _

/-- In universal time clocks show the years of the instants. -/
theorem shown_hasFourDigitYear (hk : Keeps h runs) {r : Run} (hr : r ∈ runs) :
    r.created.shown.HasFourDigitYear := by
  rw [ZonedTime.shown_of_offset (hk.offsets r hr)]
  exact hk.years r hr

/-- Sorting rows by the texts of their times sorts the runs by their instants. -/
theorem map_newestFirst (hk : Keeps h runs) :
    h.newestFirst.map Row.run = runs.reverse.mergeSort isAsNew := by
  rw [newestFirst, ← hk.map_rows]
  refine List.map_mergeSort fun a ha b hb => ?_
  rw [hk.rows] at ha hb
  obtain ⟨r, hr, rfl⟩ := List.mem_map.1 ha
  obtain ⟨r', hr', rfl⟩ := List.mem_map.1 hb
  rw [List.mem_reverse] at hr hr'
  rw [isAsNew, Bool.eq_iff_iff, decide_eq_true_eq]
  exact ZonedTime.le_toFixed_iff (hk.shown_hasFourDigitYear hr') (hk.shown_hasFourDigitYear hr)
    ((hk.offsets r' hr').trans (hk.offsets r hr).symm)

theorem read_eq (hk : Keeps h runs) {row : Row} (hrow : row ∈ h.rows) : row.read = .ok row.run := by
  rw [hk.rows] at hrow
  obtain ⟨r, hr, rfl⟩ := List.mem_map.1 hrow
  rw [List.mem_reverse] at hr
  rw [Row.read, ZonedTime.parseFixed_toFixed (hk.shown_hasFourDigitYear hr)
    (ZonedTime.hasOffsetInMinutes_of_offset (hk.offsets r hr))]

section Rows

variable {rows : List Row}

theorem mapM_read (hk : Keeps h runs) (hrows : ∀ row ∈ rows, row ∈ h.rows) :
    rows.mapM Row.read = .ok (rows.map Row.run) :=
  mapM_eq_ok_iff.2 (List.forall₂_map_right_iff.2
    (List.forall₂_same.2 fun row hrow => hk.read_eq (hrows row hrow)))

theorem read_find? (hk : Keeps h runs) (hrows : ∀ row ∈ rows, row ∈ h.rows) (p : Run → Bool)
    (e : HistoryError) :
    (match rows.find? fun row => p row.run with
      | some row => row.read
      | none => .error e) = ((rows.map Row.run).find? p).elim (.error e) .ok := by
  rw [List.find?_map]
  simp only [Function.comp_def]
  cases hfind : rows.find? fun row => p row.run with
  | none => rfl
  | some row => exact hk.read_eq (hrows row (List.mem_of_find?_eq_some hfind))

end Rows

/-- A list is a selection from the list of everything. -/
theorem list_eq (hk : Keeps h runs) (c : Text) (k : Int) :
    h.list c k = .ok (
      let found := (runs.reverse.mergeSort isAsNew).filter fun r => c.isEmpty || r.contract = c
      if 0 < k then found.take k.toNat else found) := by
  have hrows : ∀ row ∈ h.newestFirst.filter fun row => c.isEmpty || row.run.contract = c,
      row ∈ h.rows := fun row hrow => List.mem_mergeSort.1 (List.mem_of_mem_filter hrow)
  rw [list, ← hk.map_newestFirst, List.filter_map]
  by_cases hlimit : 0 < k
  · simp only [hlimit, if_true, ← List.map_take]
    exact hk.mapM_read fun row hrow => hrows row (List.mem_of_mem_take hrow)
  · simp only [hlimit, if_false]
    exact hk.mapM_read hrows

theorem byContent_eq (hk : Keeps h runs) (x : Text) :
    h.byContent x = ((runs.reverse.mergeSort isAsNew).find? fun r => r.cid = x).elim
      (.error (.notFound x)) .ok := by
  rw [← hk.map_newestFirst]
  exact hk.read_find? (fun _ => List.mem_mergeSort.1) (fun r => r.cid = x) (.notFound x)

theorem get_eq (hk : Keeps h runs) (id : Text) :
    h.get id = (runs.reverse.find? fun r => r.id = id).elim (.error (.notFound id)) .ok := by
  rw [← hk.map_rows]
  exact hk.read_find? (fun _ hrow => hrow) (fun r => r.id = id) (.notFound id)

/-- A recorded run is found by its id, which no other run has. -/
theorem get_of_mem (hk : Keeps h runs) {r : Run} (hr : r ∈ runs) : h.get r.id = .ok r := by
  have hfind : (runs.reverse.find? fun r' => r'.id = r.id) = some r := by
    cases hfound : runs.reverse.find? fun r' => r'.id = r.id with
    | none =>
      have hnone := List.find?_eq_none.1 hfound r (List.mem_reverse.2 hr)
      simp at hnone
    | some r' =>
      have hid : r'.id = r.id := by simpa using List.find?_some hfound
      have hr' := List.mem_reverse.1 (List.mem_of_find?_eq_some hfound)
      rw [List.inj_on_of_nodup_map hk.ids hr' hr hid]
  rw [hk.get_eq, hfind]
  rfl

theorem get_of_notMem (hk : Keeps h runs) {id : Text} (hid : ∀ r ∈ runs, r.id ≠ id) :
    h.get id = .error (.notFound id) := by
  have hfind : (runs.reverse.find? fun r => r.id = id) = none :=
    List.find?_eq_none.2 fun r hr => by simpa using hid r (List.mem_reverse.1 hr)
  rw [hk.get_eq, hfind]
  rfl

end Keeps

/-! ### Answers -/

/-- The answers of a history in which runs were recorded.  They are told from the list of all runs,
newest first. -/
structure Answers (h : History) (recorded all : List Run) : Prop where
  newestFirst : NewestFirst recorded all
  list_all : h.list [] 0 = .ok all
  /-- A contract selects its runs. -/
  list_contract : ∀ c ≠ [], h.list c 0 = .ok (all.filter fun r => r.contract = c)
  /-- A limit that is positive cuts a list; any other limit does nothing. -/
  list_limit : ∀ c k,
    h.list c k = (h.list c 0).map fun runs => if 0 < k then runs.take k.toNat else runs
  byContent : ∀ x,
    h.byContent x = (all.find? fun r => r.cid = x).elim (.error (.notFound x)) .ok
  get : ∀ r ∈ recorded, h.get r.id = .ok r
  get_notFound : ∀ id, (∀ r ∈ recorded, r.id ≠ id) → h.get id = .error (.notFound id)

theorem Keeps.answers (hk : Keeps h runs) : Answers h runs (runs.reverse.mergeSort isAsNew) where
  newestFirst := hk.newestFirst_mergeSort
  list_all := by
    rw [hk.list_eq]
    simp
  list_contract c hc := by
    rw [hk.list_eq, List.isEmpty_eq_false_iff.2 hc]
    simp
  list_limit c k := by
    rw [hk.list_eq, hk.list_eq]
    rfl
  byContent := hk.byContent_eq
  get _ := hk.get_of_mem
  get_notFound _ := hk.get_of_notMem

/-- What becomes of a submission between others.  If its id is new, the completed run is recorded
and returned.  If it is taken, the submission is refused, and all others are answered as if it had
not been made and leave the same history. -/
def AnsweredBetween (before : List Submission) (s : Submission) (later : List Submission) : Prop :=
  ∃ early late h h' r, submitAll {} before = (early, h) ∧ s.Completes r ∧
    ((∃ r' ∈ recordedRuns early, r'.id = r.id) →
      submitAll {} (before ++ s :: later) = (early ++ .error (.sharedId r.id) :: late, h') ∧
      submitAll {} (before ++ later) = (early ++ late, h')) ∧
    ((∀ r' ∈ recordedRuns early, r'.id ≠ r.id) →
      submitAll {} (before ++ s :: later) = (early ++ .ok r :: late, h'))

theorem answeredBetween {before : List Submission} {s : Submission} {later : List Submission}
    (hyears : ∀ t ∈ before ++ s :: later, t.instant.HasFourDigitYear) :
    AnsweredBetween before s later := by
  obtain ⟨hyears, hlater⟩ := List.forall_mem_append.1 hyears
  have hk := Keeps.empty.submitAll hyears
  obtain ⟨⟨early, h⟩, hbefore⟩ : ∃ after, submitAll {} before = after := ⟨_, rfl⟩
  rw [hbefore, List.nil_append] at hk
  obtain ⟨⟨late, h'⟩, hafter⟩ : ∃ after, (h.submit s).2.submitAll later = after := ⟨_, rfl⟩
  have hall : submitAll {} (before ++ s :: later) = (early ++ (h.submit s).1 :: late, h') := by
    rw [submitAll_append, hbefore, submitAll, hafter]
  refine ⟨early, late, h, h', s.completed, hbefore, s.completes_completed, fun htaken => ?_,
    fun hnew => ?_⟩
  · rw [hk.submit_of_taken htaken] at hafter hall
    refine ⟨hall, ?_⟩
    rw [submitAll_append, hbefore, hafter]
  · obtain ⟨_, hsubmit, -⟩ := hk.submit_of_new (fun ⟨r, hr, hid⟩ => hnew r hr hid)
      (List.forall_mem_cons.1 hlater).1
    rw [hall, hsubmit]

/-- **All answers of a history.**  Every submission is answered by its completed run, or refused if
its id is taken.  Zones make no difference: submissions whose times name the same instants have the
same answers and leave the same history, and its lookups are told from the recorded runs. -/
theorem answers_submitAll {ss : List Submission}
    (hyears : ∀ s ∈ ss, s.instant.HasFourDigitYear) :
    (∀ before s later, ss = before ++ s :: later → AnsweredBetween before s later) ∧
      (∀ ts : List Submission, ts.map Submission.utc = ss.map Submission.utc →
        submitAll {} ts = submitAll {} ss) ∧
      ∃ all, Answers (submitAll {} ss).2 (recordedRuns (submitAll {} ss).1) all := by
  refine ⟨?_, fun ts hts => ?_, _, (Keeps.empty.submitAll hyears).answers⟩
  · rintro before s later rfl
    exact answeredBetween hyears
  · rw [← submitAll_map_utc, hts, submitAll_map_utc]

/-- The time that clocks show on the first of January 2026. -/
def newYearTime (hour minute : Nat) (offset : Int) : ZonedTime :=
  ⟨(Instant.ofCalendar ⟨2026, 1, 1, hour, minute, 0, 0⟩).addSeconds (-offset), offset⟩

/-- Two runs of one instant that different clocks show, a newer one with the id of the first, and
one that lacks its id, its content identifier and its time, recorded where clocks are behind. -/
def acrossZones : List Submission :=
  let run (id cid : Text) (created : ZonedTime) : Run :=
    ⟨id, "Token", cid, 1, 1, 0, true, "\x7b\x7d", created⟩
  [⟨"w", Instant.zero, run "a" "cid:1" (newYearTime 12 0 7200)⟩,
    ⟨"x", Instant.zero, run "b" "cid:1" (newYearTime 10 0 0)⟩,
    ⟨"y", Instant.zero, run "a" "cid:2" (newYearTime 23 0 (-3600))⟩,
    ⟨"z", newYearTime 4 30 (-21600), run [] [] Instant.zero⟩]

/-- The run that was recorded last is listed first, although its clocks showed the earliest time. -/
theorem answers_submitAll_acrossZones :
    (∀ s ∈ acrossZones, s.instant.HasFourDigitYear) ∧
      (submitAll {} acrossZones).1.map (Except.map Run.id) =
        [.ok "a", .ok "b", .error (.sharedId "a"), .ok "z"] ∧
      ((submitAll {} acrossZones).2.list [] 0).map (List.map fun r => (r.id, r.created)) =
        .ok [("z", newYearTime 10 30 0), ("b", newYearTime 10 0 0), ("a", newYearTime 10 0 0)] ∧
      (∀ before s later, acrossZones = before ++ s :: later → AnsweredBetween before s later) ∧
      (∀ ts : List Submission, ts.map Submission.utc = acrossZones.map Submission.utc →
        submitAll {} ts = submitAll {} acrossZones) ∧
      ∃ all,
        Answers (submitAll {} acrossZones).2 (recordedRuns (submitAll {} acrossZones).1) all := by
  -- in universal time the rows are sorted as they stand
  have hsorted : (submitAll {} acrossZones).2.newestFirst = (submitAll {} acrossZones).2.rows :=
    List.mergeSort_of_pairwise (by decide +kernel)
  have hlist : ((submitAll {} acrossZones).2.list [] 0).map
      (List.map fun r => (r.id, r.created)) = .ok [("z", newYearTime 10 30 0),
        ("b", newYearTime 10 0 0), ("a", newYearTime 10 0 0)] := by
    rw [list, hsorted]
    decide +kernel
  exact ⟨by decide +kernel, by decide +kernel, hlist, answers_submitAll (by decide +kernel)⟩

end History

end ContractNet

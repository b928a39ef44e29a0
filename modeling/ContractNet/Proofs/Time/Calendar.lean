import ContractNet.Time.Instant
import Mathlib.Data.List.Basic

/-!
# The calendar

Dates are counted in years that start in March, so that the leap day is the last day of its year.
`marchDay` and `monthDay` tell where these years and their months start.

* `exists_dayIn`: every day lies in a month of such a year, and its date says in which;
* `DayIn.trichotomy`: **dates are ordered as days are**;
* `Reading` is an instant taken apart into date and time of day, and every instant has one
  (`exists_reading`): the date and the time of day tell the instant (`ofCalendar_calendar`), and
  they are ordered as instants are (`notAfter_numbers_iff`).
-/

namespace ContractNet.Instant

/-- The first day of the year that starts in March of the year `y`, counted from March of the
year 0. -/
def marchDay (y : Int) : Int := 365 * y + y / 4 - y / 100 + y / 400

/-- The first day of the month `m` after March, in a year that starts in March. -/
def monthDay (m : Nat) : Nat := (153 * m + 2) / 5

/-- The year of the calendar in which the month `m` after March of the year `y` lies. -/
def yearOf (y : Int) (m : Nat) : Int := if m < 10 then y else y + 1

/-- The month of the calendar that is `m` months after March. -/
def monthOf (m : Nat) : Nat := if m < 10 then m + 3 else m - 9

/-- The day, counted from the beginning of 1970, is the day `d` of the month `m` after March of the
year `y`, where days and months are counted from 0. -/
structure DayIn (day y : Int) (m d : Nat) : Prop where
  month : m < 12
  inMonth : monthDay m + d < monthDay (m + 1)
  inYear : day + 719468 < marchDay (y + 1)
  eq : day + 719468 = marchDay y + (monthDay m + d : Nat)

/-- The year is smaller, or it is the same and the month is, or both are and the day is. -/
def DateLt : Int × Nat × Nat → Int × Nat × Nat → Prop
  | (y, m, d), (y', m', d') => y < y' ∨ y = y' ∧ (m < m' ∨ m = m' ∧ d < d')

/-! ### Years of an era -/

/-- A day of an era of 400 years: the day `d` of the year `j` in the group `k` of four years of the
century `e`.  A group that is not the last of its century ends with a leap day, and so does the
era. -/
structure InEra (e k j d : Nat) : Prop where
  century : e < 4
  group : k < 25
  year : j < 4
  day : d < 365 ∨ d = 365 ∧ j = 3 ∧ (k < 24 ∨ e = 3)

theorem exists_inEra {n : Nat} (h : n < 146097) :
    ∃ e k j d, InEra e k j d ∧ n = 36524 * e + 1461 * k + 365 * j + d := by
  obtain ⟨e, r, he, hr, rfl⟩ : ∃ e r, e < 4 ∧ (r < 36524 ∨ r = 36524 ∧ e = 3) ∧
      n = 36524 * e + r :=
    ⟨min (n / 36524) 3, n - 36524 * min (n / 36524) 3, by omega, by omega, by omega⟩
  obtain ⟨k, s, hk, hs, rfl⟩ : ∃ k s, k < 25 ∧ (s < 1460 ∨ s = 1460 ∧ (k < 24 ∨ e = 3)) ∧
      r = 1461 * k + s :=
    ⟨min (r / 1461) 24, r - 1461 * min (r / 1461) 24, by omega, by omega, by omega⟩
  obtain ⟨j, d, hj, hd, rfl⟩ : ∃ j d, j < 4 ∧ (d < 365 ∨ d = 365 ∧ j = 3 ∧ s = 1460) ∧
      s = 365 * j + d :=
    ⟨min (s / 365) 3, s - 365 * min (s / 365) 3, by omega, by omega, by omega⟩
  exact ⟨e, k, j, d, ⟨he, hk, hj, by omega⟩, by omega⟩

namespace InEra

variable {e k j d n : Nat}

/-- The year of the era is read off the number of the day. -/
theorem yearOfEra_eq (h : InEra e k j d) (hn : n = 36524 * e + 1461 * k + 365 * j + d) :
    (n - n / 1460 + n / 36524 - n / 146096) / 365 = 100 * e + 4 * k + j := by
  obtain ⟨he, hk, hj, hd⟩ := h
  by_cases hlast : n = 146096
  · have : e = 3 ∧ k = 24 ∧ j = 3 := by omega
    rw [hlast]
    omega
  · have hcentury : n / 36524 = e := by omega
    have hera : n / 146096 = 0 := by omega
    have hgroup : n / 1460 = 25 * e + k + (24 * e + k + 365 * j + d) / 1460 := by omega
    rw [hcentury, hera, hgroup]
    omega

/-- The day of the year is what is left of the number of the day. -/
theorem dayOfYear_eq (h : InEra e k j d) (hn : n = 36524 * e + 1461 * k + 365 * j + d) :
    n - (365 * (100 * e + 4 * k + j) + (100 * e + 4 * k + j) / 4 - (100 * e + 4 * k + j) / 100) =
      d := by
  obtain ⟨he, hk, hj, -⟩ := h
  omega

theorem marchDay_eq (h : InEra e k j d) (era : Int) :
    marchDay ((100 * e + 4 * k + j : Nat) + era * 400) =
      era * 146097 + (36524 * e + 1461 * k + 365 * j : Nat) := by
  obtain ⟨he, hk, hj, -⟩ := h
  have hgroups : ((100 * e + 4 * k + j : Nat) + era * 400) / 4 = 25 * e + k + era * 100 := by omega
  have hcenturies : ((100 * e + 4 * k + j : Nat) + era * 400) / 100 = e + era * 4 := by omega
  have heras : ((100 * e + 4 * k + j : Nat) + era * 400) / 400 = era := by omega
  rw [marchDay, hgroups, hcenturies, heras]
  omega

/-- The next year starts after the day. -/
theorem lt_marchDay (h : InEra e k j d) (era : Int) :
    era * 146097 + (36524 * e + 1461 * k + 365 * j + d : Nat) <
      marchDay ((100 * e + 4 * k + j : Nat) + era * 400 + 1) := by
  obtain ⟨he, hk, hj, hd⟩ := h
  unfold marchDay
  omega

end InEra

/-! ### Days and dates -/

theorem marchDay_mono {y z : Int} (h : y ≤ z) : marchDay y ≤ marchDay z := by
  unfold marchDay
  omega

theorem monthDay_mono {m n : Nat} (h : m ≤ n) : monthDay m ≤ monthDay n := by
  unfold monthDay
  omega

/-- **Every day lies in a month**, and its date says in which. -/
theorem exists_dayIn (day : Int) : ∃ y m d, DayIn day y m d ∧
    dateOfDay day = (yearOf y m, monthOf m, d + 1) := by
  obtain ⟨era, n, hn, hera, hday⟩ : ∃ (era : Int) (n : Nat), n < 146097 ∧
      era = Int.fdiv (day + 719468) 146097 ∧ day + 719468 = era * 146097 + n := by
    rw [Int.fdiv_eq_ediv_of_nonneg _ (by decide)]
    exact ⟨_, ((day + 719468) % 146097).toNat, by omega, rfl, by omega⟩
  obtain ⟨e, k, j, r, hin, hsplit⟩ := exists_inEra hn
  obtain ⟨m, hm⟩ : ∃ m, m = (5 * r + 2) / 153 := ⟨_, rfl⟩
  have hr : r < 366 := by
    have := hin.day
    omega
  have hmonth : m < 12 ∧ monthDay m ≤ r ∧ r < monthDay (m + 1) := by
    unfold monthDay
    omega
  have hstart := hin.marchDay_eq era
  have hnext := hin.lt_marchDay era
  refine ⟨((100 * e + 4 * k + j : Nat) : Int) + era * 400, m, r - monthDay m,
    ⟨hmonth.1, by omega, ?_, ?_⟩, ?_⟩
  · rw [hday, hsplit]
    exact hnext
  · rw [hday, hsplit, hstart]
    omega
  · have hofEra : (day + 719468 - era * 146097).toNat = n := by omega
    simp only [dateOfDay, ← hera, hofEra, hin.yearOfEra_eq hsplit, hin.dayOfYear_eq hsplit, ← hm,
      yearOf, monthOf]
    refine Prod.ext ?_ (Prod.ext rfl rfl)
    by_cases hten : m < 10
    · simp only [hten, if_true]
      rw [if_neg (by omega)]
    · simp only [hten, if_false]
      rw [if_pos (by omega)]

namespace DayIn

variable {day day' y y' : Int} {m m' d d' : Nat}

/-- The day is read off its date. -/
theorem dayOfDate_eq (h : DayIn day y m d) : dayOfDate (yearOf y m) (monthOf m) (d + 1) = day := by
  have hyear : (if monthOf m ≤ 2 then yearOf y m - 1 else yearOf y m) = y := by
    unfold monthOf yearOf
    have := h.month
    split_ifs <;> omega
  have hmonth : (if 2 < monthOf m then monthOf m - 3 else monthOf m + 9) = m := by
    unfold monthOf
    have := h.month
    split_ifs <;> omega
  have heq := h.eq
  rw [dayOfDate, hyear, hmonth, Int.fdiv_eq_ediv_of_nonneg _ (by decide)]
  unfold marchDay monthDay at heq
  omega

theorem monthOf_bounds (h : DayIn day y m d) : 1 ≤ monthOf m ∧ monthOf m ≤ 12 := by
  have := h.month
  unfold monthOf
  split_ifs <;> omega

theorem day_lt (h : DayIn day y m d) : d < 31 := by
  have := h.inMonth
  unfold monthDay at this
  omega

theorem lt_of_dateLt (h : DayIn day y m d) (h' : DayIn day' y' m' d')
    (hlt : DateLt (yearOf y m, monthOf m, d) (yearOf y' m', monthOf m', d')) : day < day' := by
  have hmonth := h.month
  have hmonth' := h'.month
  -- months count on from year to year, whether years start in January or in March
  have hcount : y < y' ∨ y = y' ∧ (m < m' ∨ m = m' ∧ d < d') := by
    simp only [DateLt, yearOf, monthOf] at hlt
    split_ifs at hlt <;> omega
  have heq := h.eq
  have heq' := h'.eq
  rcases hcount with hy | ⟨rfl, hm | ⟨rfl, hd⟩⟩
  · have hyears := marchDay_mono (show y + 1 ≤ y' by omega)
    have := h.inYear
    omega
  · have hmonths := monthDay_mono (show m + 1 ≤ m' by omega)
    have := h.inMonth
    omega
  · omega

/-- **Dates are ordered as days are.** -/
theorem trichotomy (h : DayIn day y m d) (h' : DayIn day' y' m' d') :
    (DateLt (yearOf y m, monthOf m, d) (yearOf y' m', monthOf m', d') ∧ day < day') ∨
      (DateLt (yearOf y' m', monthOf m', d') (yearOf y m, monthOf m, d) ∧ day' < day) ∨
      ((yearOf y m = yearOf y' m' ∧ monthOf m = monthOf m' ∧ d = d') ∧ day = day') := by
  by_cases hlt : DateLt (yearOf y m, monthOf m, d) (yearOf y' m', monthOf m', d')
  · exact .inl ⟨hlt, h.lt_of_dateLt h' hlt⟩
  by_cases hgt : DateLt (yearOf y' m', monthOf m', d') (yearOf y m, monthOf m, d)
  · exact .inr (.inl ⟨hgt, h'.lt_of_dateLt h hgt⟩)
  · have hsame : yearOf y m = yearOf y' m' ∧ monthOf m = monthOf m' ∧ d = d' := by
      simp only [DateLt] at hlt hgt
      omega
    have hday : day = day' := by
      rw [← h.dayOfDate_eq, ← h'.dayOfDate_eq, hsame.1, hsame.2.1, hsame.2.2]
    exact .inr (.inr ⟨hsame, hday⟩)

end DayIn

/-! ### Instants and readings -/

/-- The numbers of a date and a time of day, the most significant one first. -/
def numbers (c : Calendar) : List Nat :=
  [c.year.toNat, c.month, c.day, c.hour, c.minute, c.second, c.nano]

/-- The numbers agree, or the first that differs is smaller. -/
def NotAfter : List Nat → List Nat → Prop
  | [], _ => True
  | _ :: _, [] => False
  | n :: ns, m :: ms => n < m ∨ n = m ∧ NotAfter ns ms

/-- An instant, taken apart: the day with its place in the calendar, and the time of day. -/
structure Reading where
  day : Int
  y : Int
  m : Nat
  d : Nat
  hour : Nat
  minute : Nat
  second : Nat
  nano : Nat
  dayIn : DayIn day y m d
  hour_lt : hour < 24
  minute_lt : minute < 60
  second_lt : second < 60
  nano_lt : nano < 1000000000

namespace Reading

variable (r r' : Reading)

/-- The date and the time of day. -/
def calendar : Calendar :=
  ⟨yearOf r.y r.m, monthOf r.m, r.d + 1, r.hour, r.minute, r.second, r.nano⟩

/-- The instant that was taken apart. -/
def instant : Instant :=
  ⟨(r.day * 86400 + ((r.hour * 60 + r.minute) * 60 + r.second : Nat)) * 1000000000 + r.nano⟩

/-- An instant can be put together from its date and time of day. -/
theorem ofCalendar_eq : ofCalendar r.calendar = r.instant := by
  simp only [ofCalendar, calendar, r.dayIn.dayOfDate_eq, ofUnix, instant]

variable {r r'}

/-- **Readings are ordered as instants are**, from the year 0 on. -/
theorem notAfter_iff (hy : 0 ≤ r.calendar.year) (hy' : 0 ≤ r'.calendar.year) :
    NotAfter (numbers r.calendar) (numbers r'.calendar) ↔
      r.instant.nanos ≤ r'.instant.nanos := by
  have hhour := r.hour_lt
  have hminute := r.minute_lt
  have hsecond := r.second_lt
  have hnano := r.nano_lt
  have hhour' := r'.hour_lt
  have hminute' := r'.minute_lt
  have hsecond' := r'.second_lt
  have hnano' := r'.nano_lt
  simp only [calendar] at hy hy'
  simp only [numbers, calendar, NotAfter, instant, and_true]
  -- the dates decide, and on the same day the times of day
  rcases r.dayIn.trichotomy r'.dayIn with ⟨hdate, hday⟩ | ⟨hdate, hday⟩ | ⟨hdate, hday⟩
  · simp only [DateLt] at hdate
    omega
  · simp only [DateLt] at hdate
    omega
  · omega

end Reading

/-- **Every instant has a reading.** -/
theorem exists_reading (t : Instant) : ∃ r : Reading, r.calendar = t.calendar ∧ r.instant = t := by
  obtain ⟨seconds, hseconds⟩ : ∃ seconds, seconds = t.nanos / 1000000000 := ⟨_, rfl⟩
  obtain ⟨second, hsecond⟩ : ∃ second, second = (seconds % 86400).toNat := ⟨_, rfl⟩
  obtain ⟨y, m, d, hin, hdate⟩ := exists_dayIn (seconds / 86400)
  refine ⟨⟨_, y, m, d, second / 3600, second / 60 % 60, second % 60,
    (t.nanos % 1000000000).toNat, hin, by omega, by omega, by omega, by omega⟩, ?_, ?_⟩
  · simp (disch := decide) only [Reading.calendar, calendar, Int.fdiv_eq_ediv_of_nonneg,
      Int.fmod_eq_emod_of_nonneg, ← hseconds, hdate, ← hsecond]
  · obtain ⟨nanos⟩ := t
    simp only [Reading.instant, Instant.mk.injEq] at hseconds ⊢
    omega

/-- The date and the time of day tell the instant. -/
theorem ofCalendar_calendar (t : Instant) : ofCalendar t.calendar = t := by
  obtain ⟨r, hr, rfl⟩ := exists_reading t
  rw [← hr, r.ofCalendar_eq]

/-- **Dates and times of day are ordered as instants are**, from the year 0 on. -/
theorem notAfter_numbers_iff {s t : Instant} (hs : 0 ≤ s.calendar.year)
    (ht : 0 ≤ t.calendar.year) :
    NotAfter (numbers s.calendar) (numbers t.calendar) ↔ s.nanos ≤ t.nanos := by
  obtain ⟨r, hr, hinstant⟩ := exists_reading s
  obtain ⟨r', hr', hinstant'⟩ := exists_reading t
  rw [← hr] at hs ⊢
  rw [← hr'] at ht ⊢
  rw [r.notAfter_iff hs ht, hinstant, hinstant']

end ContractNet.Instant

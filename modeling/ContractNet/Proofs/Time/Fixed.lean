import ContractNet.Proofs.Text.Digits
import ContractNet.Proofs.Time.Calendar
import ContractNet.Time.Zoned
import Mathlib.Data.List.Forall2

/-!
# Texts of times

A text of a time is a row of numbers of fixed widths, each followed by a mark (`Instant.written`);
the last mark is the offset from universal time.  Such texts are ordered as the numbers are
(`le_written_iff`), and numbers and marks can be read at their places (`digitsValue_written`,
`drop_written`).  For times that show a year from 0 to 9999:

* `ZonedTime.le_toFixed_iff`: **texts of times of one offset are ordered as their instants**;
* `ZonedTime.parseFixed_toFixed`: a time whose offset is one of minutes can be read off its text, to
  the nanosecond.

Both hold of times in universal time, whose offset is none.
-/

namespace ContractNet

namespace Instant

/-! ### Rows of numbers -/

/-- Numbers one after the other: a layout gives the width of each and the mark that follows it. -/
def written : List (Nat × Text) → List Nat → Text
  | (w, mark) :: layout, n :: ns => digits w n ++ (mark ++ written layout ns)
  | _, _ => []

/-- The number has no more digits than its place is wide. -/
def Fits (place : Nat × Text) (n : Nat) : Prop := 0 < place.1 ∧ n < 10 ^ place.1

/-- Where the number with a given index starts. -/
def start (layout : List (Nat × Text)) (k : Nat) : Nat :=
  ((layout.take k).map fun place => place.1 + place.2.length).sum

variable {layout : List (Nat × Text)} {ns ms : List Nat}

theorem Fits.length_digits {w n : Nat} {mark : Text} (h : Fits (w, mark) n) :
    (digits w n).length = w :=
  Text.length_padZeros_decimal h.1 h.2

theorem digits_inj {w n m : Nat} : digits w n = digits w m ↔ n = m := by
  refine ⟨fun h => ?_, fun h => by rw [h]⟩
  rw [← Text.digitsValue_padZeros_decimal w n, ← Text.digitsValue_padZeros_decimal w m]
  exact congrArg Text.digitsValue h

theorem Fits.le_digits_iff {w n m : Nat} {mark : Text} (hn : Fits (w, mark) n)
    (hm : Fits (w, mark) m) : Text.le (digits w n) (digits w m) = true ↔ n ≤ m := by
  have hlength : (digits w n).length = (digits w m).length := by
    rw [hn.length_digits, hm.length_digits]
  unfold digits at hlength ⊢
  rw [Text.le_iff_digitsValue_le (fun _ => Text.isDigit_of_mem_padZeros)
    (fun _ => Text.isDigit_of_mem_padZeros) hlength, Text.digitsValue_padZeros_decimal,
    Text.digitsValue_padZeros_decimal]

/-- **Rows of numbers are ordered as their numbers**, the first one first. -/
theorem le_written_iff (hn : List.Forall₂ Fits layout ns) (hm : List.Forall₂ Fits layout ms) :
    Text.le (written layout ns) (written layout ms) = true ↔ NotAfter ns ms := by
  induction hn generalizing ms with
  | nil =>
    cases hm
    simp [written, Text.le, NotAfter]
  | @cons place n layout ns hfits _ ih =>
    obtain ⟨w, mark⟩ := place
    obtain ⟨m, ms, hfits', hms, rfl⟩ := List.forall₂_cons_left_iff.1 hm
    have hlength : (digits w n).length = (digits w m).length := by
      rw [hfits.length_digits, hfits'.length_digits]
    rw [written, written, Text.le_append_iff hlength, Text.le_append_iff rfl, ih hms, Ne,
      digits_inj, hfits.le_digits_iff hfits', NotAfter]
    have hlt : ¬n = m ∧ n ≤ m ↔ n < m := by omega
    simp only [ne_eq, not_true_eq_false, false_and, true_and, false_or, hlt]

/-- At the place with a given index start its number, its mark and the rest of the row. -/
theorem drop_start (h : List.Forall₂ Fits layout ns) {k w n : Nat} {mark : Text}
    (hplace : layout[k]? = some (w, mark)) (hnumber : ns[k]? = some n) :
    Fits (w, mark) n ∧ (written layout ns).drop (start layout k) =
      digits w n ++ (mark ++ written (layout.drop (k + 1)) (ns.drop (k + 1))) := by
  induction h generalizing k with
  | nil => cases hplace
  | @cons place m layout ns hfits _ ih =>
    obtain ⟨v, mark'⟩ := place
    cases k with
    | zero =>
      obtain ⟨rfl, rfl⟩ : v = w ∧ mark' = mark := by simpa using hplace
      obtain rfl : m = n := by simpa using hnumber
      exact ⟨hfits, rfl⟩
    | succ k =>
      have hstart : start ((v, mark') :: layout) (k + 1) =
          (digits v m ++ mark').length + start layout k := by
        simp [start, hfits.length_digits]
      rw [hstart, ← List.drop_drop, written, ← List.append_assoc, List.drop_left]
      exact ih hplace hnumber

/-- The numbers of a row can be read at their places. -/
theorem digitsValue_written (h : List.Forall₂ Fits layout ns) {k w n : Nat} {mark : Text}
    (hplace : layout[k]? = some (w, mark)) (hnumber : ns[k]? = some n) :
    Text.digitsValue (((written layout ns).drop (start layout k)).take w) = n := by
  obtain ⟨hfits, hdrop⟩ := drop_start h hplace hnumber
  rw [hdrop, List.take_left' hfits.length_digits]
  exact Text.digitsValue_padZeros_decimal w n

/-- Behind a number stand its mark and the rest of the row. -/
theorem drop_written (h : List.Forall₂ Fits layout ns) {k w n : Nat} {mark : Text}
    (hplace : layout[k]? = some (w, mark)) (hnumber : ns[k]? = some n) :
    (written layout ns).drop (start layout k + w) =
      mark ++ written (layout.drop (k + 1)) (ns.drop (k + 1)) := by
  obtain ⟨hfits, hdrop⟩ := drop_start h hplace hnumber
  rw [← List.drop_drop, hdrop, List.drop_left' hfits.length_digits]

/-! ### Dates and times of day -/

/-- The layout of a date and a time of day with nine digits after the second, and what follows. -/
def fixedLayout (last : Text) : List (Nat × Text) :=
  [(4, "-"), (2, "-"), (2, "T"), (2, ":"), (2, ":"), (2, "."), (9, last)]

/-- The instant lies in one of the years 0 to 9999. -/
def HasFourDigitYear (t : Instant) : Prop := 0 ≤ t.calendar.year ∧ t.calendar.year ≤ 9999

instance (t : Instant) : Decidable t.HasFourDigitYear :=
  inferInstanceAs (Decidable (0 ≤ t.calendar.year ∧ t.calendar.year ≤ 9999))

variable {t : Instant}

theorem HasFourDigitYear.fits (h : t.HasFourDigitYear) (last : Text) :
    List.Forall₂ Fits (fixedLayout last) (numbers t.calendar) := by
  obtain ⟨r, hr, -⟩ := exists_reading t
  obtain ⟨hyear, hyear'⟩ := h
  rw [← hr] at hyear hyear' ⊢
  have hmonth := r.dayIn.monthOf_bounds
  have hday := r.dayIn.day_lt
  have hhour := r.hour_lt
  have hminute := r.minute_lt
  have hsecond := r.second_lt
  have hnano := r.nano_lt
  simp only [Reading.calendar] at hyear hyear'
  simp only [fixedLayout, numbers, Reading.calendar, List.forall₂_cons, List.forall₂_nil_left_iff,
    Fits, and_true]
  omega

theorem addSeconds_neg (t : Instant) (seconds : Int) :
    (t.addSeconds seconds).addSeconds (-seconds) = t := by
  obtain ⟨nanos⟩ := t
  simp only [addSeconds, Instant.mk.injEq]
  omega

end Instant

namespace ZonedTime

open Instant

variable {s t : ZonedTime}

@[simp] theorem instant_utc (t : ZonedTime) : t.utc.instant = t.instant := rfl

@[simp] theorem offset_utc (t : ZonedTime) : t.utc.offset = 0 := rfl

@[simp] theorem utc_utc (t : ZonedTime) : t.utc.utc = t.utc := rfl

/-- In universal time the clocks show the instant itself. -/
theorem shown_of_offset (h : t.offset = 0) : t.shown = t.instant := by
  simp [shown, addSeconds, h]

/-! ### Offsets -/

/-- Two digits and the number that they write. -/
theorem exists_digits_two {n : Nat} (h : n < 100) : ∃ a b, digits 2 n = [a, b] ∧
    Text.isDigit a = true ∧ Text.isDigit b = true ∧ Text.digitsValue [a, b] = n := by
  obtain ⟨a, b, hab⟩ := List.length_eq_two.1 (Text.length_padZeros_decimal Nat.two_pos h)
  have hdigit : ∀ c ∈ [a, b], Text.isDigit c = true := fun c hc =>
    Text.isDigit_of_mem_padZeros (hab ▸ hc)
  exact ⟨a, b, hab, hdigit a (by simp), hdigit b (by simp),
    hab ▸ Text.digitsValue_padZeros_decimal 2 n⟩

/-- The offset is one of whole minutes and of a day at most. -/
def HasOffsetInMinutes (t : ZonedTime) : Prop := 60 ∣ t.offset ∧ t.offset.natAbs ≤ 86400

theorem hasOffsetInMinutes_of_offset (h : t.offset = 0) : t.HasOffsetInMinutes := by
  simp [HasOffsetInMinutes, h]

/-- Such an offset can be read off its text. -/
theorem HasOffsetInMinutes.offsetOfText? (h : t.HasOffsetInMinutes) :
    offsetOfText? (offsetText t.offset) = some t.offset := by
  obtain ⟨⟨minutes, hminutes⟩, hday⟩ := h
  rw [hminutes] at hday ⊢
  by_cases hzero : 60 * minutes = 0
  · rw [hzero]
    rfl
  · obtain ⟨a, b, hhours, ha, hb, hab⟩ := exists_digits_two (n := minutes.natAbs / 60) (by omega)
    obtain ⟨c, d, hrest, hc, hd, hcd⟩ := exists_digits_two (n := minutes.natAbs % 60) (by omega)
    have hbounds : ¬24 < minutes.natAbs / 60 ∧ ¬60 < minutes.natAbs % 60 := by omega
    have hall : [a, b, c, d].all Text.isDigit = true := by simp [ha, hb, hc, hd]
    have hsum : minutes.natAbs / 60 * 60 + minutes.natAbs % 60 = minutes.natAbs :=
      Nat.div_add_mod' _ _
    have hcancel : (60 * minutes).tdiv 60 = minutes :=
      Int.mul_tdiv_cancel_left minutes (by decide)
    simp only [offsetText, hzero, if_false, hcancel, hhours, hrest]
    by_cases hsign : minutes < 0
    · simp only [hsign, if_true]
      change ZonedTime.offsetOfText? ['-'.toUInt8, a, b, 0x3a, c, d] = _
      have hminus : '-'.toUInt8 ≠ '+'.toUInt8 := by decide
      simp only [ZonedTime.offsetOfText?, hall, hab, hcd, hbounds, hsum, hminus]
      exact congrArg some (by omega)
    · simp only [hsign, if_false]
      change ZonedTime.offsetOfText? ['+'.toUInt8, a, b, 0x3a, c, d] = _
      simp only [ZonedTime.offsetOfText?, hall, hab, hcd, hbounds, hsum]
      exact congrArg some (by omega)

/-! ### Texts of times -/

theorem toFixed_eq_written (h : 0 ≤ t.calendar.year) :
    t.toFixed = written (fixedLayout (offsetText t.offset)) (numbers t.calendar) := by
  have hyear : yearText t.calendar.year = digits 4 t.calendar.year.toNat := by
    obtain ⟨n, hn⟩ := Int.eq_ofNat_of_zero_le h
    rw [hn]
    rfl
  rw [toFixed, dateText, hyear]
  simp only [timeText, written, fixedLayout, numbers, List.append_assoc, List.append_nil]

/-- **Texts of times of one offset are ordered as their instants are.** -/
theorem le_toFixed_iff (hs : s.shown.HasFourDigitYear) (ht : t.shown.HasFourDigitYear)
    (h : s.offset = t.offset) :
    Text.le s.toFixed t.toFixed = true ↔ s.instant.nanos ≤ t.instant.nanos := by
  have hnanos : s.shown.nanos ≤ t.shown.nanos ↔ s.instant.nanos ≤ t.instant.nanos := by
    simp only [shown, addSeconds, h]
    omega
  have hnumbers : NotAfter (numbers s.calendar) (numbers t.calendar) ↔
      s.shown.nanos ≤ t.shown.nanos := notAfter_numbers_iff hs.1 ht.1
  rw [toFixed_eq_written hs.1, toFixed_eq_written ht.1, h, ← hnanos, ← hnumbers]
  exact le_written_iff (hs.fits _) (ht.fits _)

/-- Of times of different offsets the earlier one may have the later text. -/
example : Text.le (toFixed ⟨⟨0⟩, 3600⟩) (toFixed ⟨⟨1⟩, 0⟩) = false := by decide +kernel

theorem parseFixed_written {year month day hour minute second nano : Nat} {last : Text}
    {offset : Int}
    (h : List.Forall₂ Fits (fixedLayout last) [year, month, day, hour, minute, second, nano])
    (hoffset : ZonedTime.offsetOfText? last = some offset) :
    parseFixed (written (fixedLayout last) [year, month, day, hour, minute, second, nano]) =
      .ok ⟨(ofCalendar ⟨year, month, day, hour, minute, second, nano⟩).addSeconds (-offset),
        offset⟩ := by
  have hlength : (digits 4 year).length = 4 := (List.forall₂_cons.1 h).1.length_digits
  obtain ⟨t, ht⟩ : ∃ t,
    t = written (fixedLayout last) [year, month, day, hour, minute, second, nano] := ⟨_, rfl⟩
  have hfront : t.take 4 = digits 4 year := ht ▸ List.take_left' hlength
  have hall : (digits 4 year).all Text.isDigit = true :=
    List.all_eq_true.2 fun _ => Text.isDigit_of_mem_padZeros
  have hdash : (t.drop 4).head? = some '-'.toUInt8 := by
    have hdrop : t.drop (0 + 4) = _ := ht ▸ drop_written h (k := 0) rfl rfl
    rw [Nat.zero_add] at hdrop
    rw [hdrop]
    rfl
  have hlast : t.drop (20 + 9) = last ++ [] := ht ▸ drop_written h (k := 6) rfl rfl
  rw [List.append_nil] at hlast
  have hnumber : ∀ k w n mark, (fixedLayout last)[k]? = some (w, mark) →
      [year, month, day, hour, minute, second, nano][k]? = some n →
      Text.digitsValue ((t.drop (start (fixedLayout last) k)).take w) = n :=
    fun _ _ _ _ hplace hn => ht ▸ digitsValue_written h hplace hn
  have hyear : Text.digitsValue ((t.drop 0).take 4) = year := hnumber 0 4 year _ rfl rfl
  have hmonth : Text.digitsValue ((t.drop 5).take 2) = month := hnumber 1 2 month _ rfl rfl
  have hday : Text.digitsValue ((t.drop 8).take 2) = day := hnumber 2 2 day _ rfl rfl
  have hhour : Text.digitsValue ((t.drop 11).take 2) = hour := hnumber 3 2 hour _ rfl rfl
  have hminute : Text.digitsValue ((t.drop 14).take 2) = minute := hnumber 4 2 minute _ rfl rfl
  have hsecond : Text.digitsValue ((t.drop 17).take 2) = second := hnumber 5 2 second _ rfl rfl
  have hnano : Text.digitsValue ((t.drop 20).take 9) = nano := hnumber 6 9 nano _ rfl rfl
  rw [← ht, parseFixed]
  simp only [hfront, hlength, hall, hdash, hlast, hyear, hmonth, hday, hhour, hminute, hsecond,
    hnano, hoffset]
  rfl

/-- A time can be read off its text. -/
theorem parseFixed_toFixed (h : t.shown.HasFourDigitYear) (hoffset : t.HasOffsetInMinutes) :
    parseFixed t.toFixed = .ok t := by
  have hyear : ((t.calendar.year.toNat : Nat) : Int) = t.calendar.year := Int.toNat_of_nonneg h.1
  have hshown : ofCalendar t.calendar = t.shown := ofCalendar_calendar t.shown
  have hfits : List.Forall₂ Fits (fixedLayout (offsetText t.offset)) (numbers t.calendar) :=
    h.fits _
  rw [toFixed_eq_written h.1, numbers, parseFixed_written hfits hoffset.offsetOfText?, hyear,
    hshown, shown, addSeconds_neg]

end ZonedTime

end ContractNet

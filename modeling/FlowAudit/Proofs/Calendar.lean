import FlowAudit.Calendar
import FlowAudit.Proofs.Digits
import FlowAudit.Proofs.Text.Blank
/-!
Times that are written are read back. A day has one year, month and day of the month, and numbers
with leading zeros keep their value; up to the end of the year 9999 the written form of a time has
the four digits for the year that a reader expects.
-/
namespace FlowAudit

namespace Decimal

theorem natOfDigits_decimalDigits (n : Nat) : natOfDigits (decimalDigits n) = n :=
  Nat.ofDigitChars_toDigits (by decide) (by decide)

/-- Leading zeros do not change a number. -/
theorem natOfDigits_paddedDigits (width n : Nat) : natOfDigits (paddedDigits width n) = n := by
  have hZeros : ∀ count, natOfDigits (List.replicate count '0') = 0 := by
    intro count
    induction count with
    | zero => rfl
    | succ count ih => exact ih
  calc
    natOfDigits (paddedDigits width n) =
        (decimalDigits n).foldl (fun value c => 10 * value + (c.toNat - '0'.toNat))
          (natOfDigits (List.replicate (width - (decimalDigits n).length) '0')) := by
      rw [natOfDigits, paddedDigits, List.foldl_append, natOfDigits]
    _ = n := by
      rw [hZeros]
      exact natOfDigits_decimalDigits n

/-- Padding fills up to the width, and a number below that power of ten does not exceed it. -/
theorem length_paddedDigits {width n : Nat} (hWidth : 0 < width) (h : n < 10 ^ width) :
    (paddedDigits width n).length = width := by
  have hLength : (decimalDigits n).length ≤ width :=
    (Nat.length_toDigits_le_iff (by decide) hWidth).mpr h
  rw [paddedDigits, List.length_append, List.length_replicate]
  omega

theorem isDigit_of_mem_paddedDigits {width n : Nat} {c : Char} (h : c ∈ paddedDigits width n) :
    c.isDigit := by
  rcases List.mem_append.mp h with h | h
  · rw [List.eq_of_mem_replicate h]
    decide
  · exact isDigit_of_mem_decimalDigits h

/-- Digits are read up to the first character that is none. -/
theorem spanDigits_append {digits rest : List Char} (h : ∀ c ∈ digits, c.isDigit)
    (hRest : ∀ c ∈ rest.head?, c.isDigit = false) :
    spanDigits (digits ++ rest) = (digits, rest) := by
  have hStop : rest.takeWhile Char.isDigit = [] ∧ rest.dropWhile Char.isDigit = rest := by
    cases rest with
    | nil => exact ⟨rfl, rfl⟩
    | cons c rest =>
        rw [List.takeWhile_cons, List.dropWhile_cons, hRest c rfl]
        exact ⟨rfl, rfl⟩
  rw [spanDigits, List.takeWhile_append_of_pos h, List.dropWhile_append_of_pos h, hStop.1, hStop.2,
    List.append_nil]

end Decimal

namespace Calendar

open Decimal

/-- A year is as long as its months together. -/
theorem daysBeforeYear_succ (year : Nat) :
    daysBeforeYear (year + 1) = daysBeforeYear year + (monthLengths year).sum := by
  have hSum : (monthLengths year).sum = if isLeap year then 366 else 365 := by
    rw [monthLengths]
    split <;> rfl
  -- Each divisor on its own: together they make the arithmetic too large.
  have hFour : (year + 1 + 3) / 4 = (year + 3) / 4 + if year % 4 = 0 then 1 else 0 := by
    split <;> omega
  have hHundred : (year + 1 + 99) / 100 = (year + 99) / 100 + if year % 100 = 0 then 1 else 0 := by
    split <;> omega
  have hAll : (year + 1 + 399) / 400 = (year + 399) / 400 + if year % 400 = 0 then 1 else 0 := by
    split <;> omega
  have hFourOfHundred : year % 100 = 0 → year % 4 = 0 := by omega
  have hHundredOfAll : year % 400 = 0 → year % 100 = 0 := by omega
  have hLess : (year + 99) / 100 ≤ (year + 3) / 4 := by omega
  rw [hSum, daysBeforeYear, daysBeforeYear, hFour, hHundred, hAll]
  generalize (year + 3) / 4 = fours, (year + 99) / 100 = hundreds at hLess ⊢
  by_cases h4 : year % 4 = 0 <;> by_cases h100 : year % 100 = 0 <;>
    by_cases h400 : year % 400 = 0 <;> simp_all [isLeap] <;> omega

/-- The estimate that `yearOfDay` begins with is the year itself or the next one. -/
theorem daysBeforeYear_yearOfDay (day : Nat) :
    daysBeforeYear (yearOfDay day) ≤ day ∧ day < daysBeforeYear (yearOfDay day + 1) := by
  have hEstimate : ∃ estimate, estimate = (day * 400 + 399) / 146097 := ⟨_, rfl⟩
  obtain ⟨estimate, hEstimate⟩ := hEstimate
  rw [yearOfDay, ← hEstimate]
  split
  · next hEnough =>
      refine ⟨hEnough, ?_⟩
      rw [daysBeforeYear]
      omega
  · next hTooLarge =>
      cases estimate with
      | zero => exact absurd (Nat.zero_le day) hTooLarge
      | succ year =>
          refine ⟨?_, Nat.lt_of_not_le hTooLarge⟩
          rw [Nat.add_sub_cancel, daysBeforeYear]
          omega

/-- The day of a year as a month and a day of this month. -/
theorem exists_monthAndDay {lengths : List Nat} {day : Nat} (h : day < lengths.sum) (first : Nat) :
    ∃ i, ∃ hi : i < lengths.length, (lengths.take i).sum ≤ day ∧
      day - (lengths.take i).sum < lengths[i] ∧
      monthAndDay lengths first day = (first + i, day - (lengths.take i).sum + 1) := by
  induction lengths generalizing first day with
  | nil => cases h
  | cons length rest ih =>
      rw [List.sum_cons] at h
      rw [monthAndDay]
      split
      · next hHere => exact ⟨0, Nat.succ_pos _, Nat.zero_le _, hHere, rfl⟩
      · next hLater =>
          have hRest : day - length < rest.sum := by omega
          obtain ⟨i, hi, hBefore, hLength, hDate⟩ := ih hRest (first + 1)
          refine ⟨i + 1, Nat.succ_lt_succ hi, ?_, ?_, ?_⟩
          · rw [List.take_succ_cons, List.sum_cons]
            omega
          · rw [List.take_succ_cons, List.sum_cons, List.getElem_cons_succ]
            omega
          · rw [hDate, List.take_succ_cons, List.sum_cons, Prod.mk.injEq]
            omega

theorem le_of_mem_monthLengths {year length : Nat} (h : length ∈ monthLengths year) :
    length ≤ 31 := by
  rw [monthLengths] at h
  split at h <;> simp at h <;> omega

/-- The month and the day of the month that are written for a day exist in its year, and they are
what the day is computed from when they are read. -/
theorem exists_date (day : Nat) :
    ∃ month dayOfMonth,
      monthAndDay (monthLengths (yearOfDay day)) 1 (day - daysBeforeYear (yearOfDay day)) =
        (month, dayOfMonth) ∧
      (0 < month ∧ month ≤ 12) ∧ (0 < dayOfMonth ∧ dayOfMonth ≤ 31) ∧
      dayOfMonth ≤ monthLength (yearOfDay day) month ∧
      daysBeforeYear (yearOfDay day) + daysBeforeMonth (yearOfDay day) month + (dayOfMonth - 1) =
        day := by
  obtain ⟨hFirst, hLast⟩ := daysBeforeYear_yearOfDay day
  rw [daysBeforeYear_succ] at hLast
  generalize yearOfDay day = year at hFirst hLast ⊢
  have hInside : day - daysBeforeYear year < (monthLengths year).sum := by omega
  obtain ⟨i, hi, hBefore, hLength, hDate⟩ := exists_monthAndDay hInside 1
  have hMonths : (monthLengths year).length = 12 := rfl
  have hShort := le_of_mem_monthLengths (List.getElem_mem hi)
  have hMonthLength : monthLength year (1 + i) = (monthLengths year)[i] := by
    rw [monthLength, Nat.add_sub_cancel_left, List.getElem?_eq_getElem hi, Option.getD_some]
  have hDays : daysBeforeMonth year (1 + i) = ((monthLengths year).take i).sum := by
    rw [daysBeforeMonth, Nat.add_sub_cancel_left]
    rfl
  refine ⟨_, _, hDate, ⟨by omega, by omega⟩, ⟨by omega, by omega⟩, ?_, ?_⟩
  · rw [hMonthLength]
    omega
  · rw [hDays]
    omega

/-- A number is read from as many digits as it was written with. -/
theorem readDigits?_padded {width n : Nat} (hWidth : 0 < width) (h : n < 10 ^ width)
    (rest : List Char) : readDigits? width (padded width n ++ rest) = some (n, rest) := by
  have hLength : (padded width n).length = width := length_paddedDigits hWidth h
  have hDigits : (padded width n).all Char.isDigit :=
    List.all_eq_true.mpr fun _ => isDigit_of_mem_paddedDigits
  have hValue : natOfDigits (padded width n) = n := natOfDigits_paddedDigits width n
  simp only [readDigits?, List.take_left' hLength, List.drop_left' hLength, hLength, hDigits,
    hValue, and_self, if_true]

/-- Three decimals of a second are its milliseconds. -/
theorem readFraction?_padded {milli : Nat} (h : milli < 1000) {rest : List Char}
    (hRest : ∀ c ∈ rest.head?, c.isDigit = false) :
    readFraction? ('.' :: (padded 3 milli ++ rest)) = some (milli, rest) := by
  have hLength : (padded 3 milli).length = 3 := length_paddedDigits (by decide) h
  have hSome : (padded 3 milli).isEmpty = false := by
    rw [List.isEmpty_eq_false_iff, ← List.length_pos_iff, hLength]
    decide
  have hSpan : spanDigits (padded 3 milli ++ rest) = (padded 3 milli, rest) :=
    spanDigits_append (fun _ => isDigit_of_mem_paddedDigits) hRest
  rw [readFraction?, hSpan]
  simp only [hSome, Bool.false_eq_true, if_false, List.take_left' hLength]
  exact congrArg (fun n => some (n, rest)) (natOfDigits_paddedDigits 3 milli)

/-- The written form of a time up to the year 9999, from its date and its time of day. -/
theorem toList_text {ms month dayOfMonth : Nat}
    (hYear : yearOfDay (epochDay + ms / 86400000) ≤ 9999)
    (hDate : monthAndDay (monthLengths (yearOfDay (epochDay + ms / 86400000))) 1
      (epochDay + ms / 86400000 - daysBeforeYear (yearOfDay (epochDay + ms / 86400000))) =
        (month, dayOfMonth)) :
    (text ms).toList =
      padded 4 (yearOfDay (epochDay + ms / 86400000)) ++ '-' :: (padded 2 month ++ '-' ::
        (padded 2 dayOfMonth ++ 'T' :: (padded 2 (ms % 86400000 / 3600000) ++ ':' ::
          (padded 2 (ms % 86400000 / 60000 % 60) ++ ':' ::
            (padded 2 (ms % 86400000 / 1000 % 60) ++ '.' ::
              (padded 3 (ms % 86400000 % 1000) ++ ['Z'])))))) := by
  have hWritten : ¬lastYear < yearOfDay (epochDay + ms / 86400000) :=
    Nat.not_lt.mpr (Nat.le_trans hYear (by decide))
  rw [text]
  simp only [if_neg hWritten, hDate, if_neg (Nat.not_lt.mpr hYear), String.toList_ofList,
    List.append_assoc, List.cons_append, List.nil_append]

/-- A date and a time of day that exist are read as milliseconds since the beginning of 1970. -/
theorem read?_fields {year month dayOfMonth hour minute second milli : Nat} (hYear : year ≤ 9999)
    (hMonth : 0 < month ∧ month ≤ 12) (hDay : 0 < dayOfMonth ∧ dayOfMonth ≤ 31)
    (hLength : dayOfMonth ≤ monthLength year month) (hHour : hour < 24) (hMinute : minute < 60)
    (hSecond : second < 60) (hMilli : milli < 1000)
    (hEpoch : epochDay ≤ daysBeforeYear year + daysBeforeMonth year month + (dayOfMonth - 1)) :
    read? (padded 4 year ++ '-' :: (padded 2 month ++ '-' :: (padded 2 dayOfMonth ++ 'T' ::
      (padded 2 hour ++ ':' :: (padded 2 minute ++ ':' :: (padded 2 second ++ '.' ::
        (padded 3 milli ++ ['Z']))))))) =
      some ((daysBeforeYear year + daysBeforeMonth year month + (dayOfMonth - 1) - epochDay) *
        86400000 + hour * 3600000 + minute * 60000 + second * 1000 + milli) := by
  have hFour : year < 10 ^ 4 := by omega
  have hTwo : ∀ n, n < 60 → n < 10 ^ 2 := by omega
  have hTwoDigits : ∀ {n}, n < 60 → ∀ rest, readDigits? 2 (padded 2 n ++ rest) = some (n, rest) :=
    fun hn rest => readDigits?_padded (by decide) (hTwo _ hn) rest
  have hEnd : ∀ c ∈ ['Z'].head?, c.isDigit = false := by
    rintro _ ⟨⟩
    rfl
  have hMark : ∀ {accept : Char → Bool} {c}, accept c → ∀ rest,
      readMark? accept (c :: rest) = some rest := by
    intro accept c hc rest
    rw [readMark?, if_pos hc]
  -- The fields are read one after the other, and the mark behind each of them ends it.
  rw [read?]
  refine Option.bind_eq_some_iff.mpr ⟨_, readDigits?_padded (by decide) hFour _, ?_⟩
  refine Option.bind_eq_some_iff.mpr ⟨_, hMark rfl _, ?_⟩
  refine Option.bind_eq_some_iff.mpr ⟨_, hTwoDigits (by omega) _, ?_⟩
  refine Option.bind_eq_some_iff.mpr ⟨_, hMark rfl _, ?_⟩
  refine Option.bind_eq_some_iff.mpr ⟨_, hTwoDigits (by omega) _, ?_⟩
  refine Option.bind_eq_some_iff.mpr ⟨_, hMark rfl _, ?_⟩
  refine Option.bind_eq_some_iff.mpr ⟨_, hTwoDigits (by omega) _, ?_⟩
  refine Option.bind_eq_some_iff.mpr ⟨_, hMark rfl _, ?_⟩
  refine Option.bind_eq_some_iff.mpr ⟨_, hTwoDigits (by omega) _, ?_⟩
  refine Option.bind_eq_some_iff.mpr ⟨_, hMark rfl _, ?_⟩
  refine Option.bind_eq_some_iff.mpr ⟨_, hTwoDigits (by omega) _, ?_⟩
  refine Option.bind_eq_some_iff.mpr ⟨_, readFraction?_padded hMilli hEnd, ?_⟩
  refine Option.bind_eq_some_iff.mpr ⟨0, rfl, ?_⟩
  have hDate : ¬(month = 0 ∨ 12 < month ∨ dayOfMonth = 0 ∨ monthLength year month < dayOfMonth) := by
    omega
  have hTime : ¬(23 < hour ∨ 59 < minute ∨ 60 < second) := by omega
  simp only [if_neg hDate, if_neg hTime]
  generalize daysBeforeYear year + daysBeforeMonth year month + (dayOfMonth - 1) = day at hEpoch ⊢
  rw [if_neg (by omega), Option.some.injEq]
  omega

/-- Later years begin on later days. -/
theorem daysBeforeYear_mono {year later : Nat} (h : year ≤ later) :
    daysBeforeYear year ≤ daysBeforeYear later :=
  monotone_nat_of_le_succ
    (fun year => daysBeforeYear_succ year ▸ Nat.le_add_right (daysBeforeYear year) _) h

/-- Up to the end of the year 9999, what is written is read back. Later years have five digits and
are no written times. -/
theorem read?_text {ms : Nat} (h : ms ≤ 253402300799999) : read? (text ms).toList = some ms := by
  obtain ⟨month, dayOfMonth, hDate, hMonth, hDay, hLength, hSum⟩ :=
    exists_date (epochDay + ms / 86400000)
  have hYear : yearOfDay (epochDay + ms / 86400000) ≤ 9999 := by
    by_contra hLate
    have hFirst := (daysBeforeYear_yearOfDay (epochDay + ms / 86400000)).1
    have hStart := daysBeforeYear_mono (Nat.lt_of_not_le hLate)
    have hEnd : daysBeforeYear (Nat.succ 9999) = 3652425 := by decide
    have hEpoch : epochDay = 719528 := rfl
    omega
  rw [toList_text hYear hDate, read?_fields hYear hMonth hDay hLength (by omega) (by omega)
    (by omega) (by omega) (by omega), hSum, Option.some.injEq]
  omega

/-- Written times consist of digits and of marks. -/
theorem isBlank_of_mem_text {ms : Nat} {c : Char} (h : c ∈ (text ms).toList) :
    Text.isBlank c = false := by
  have hDigits : ∀ cs : List Char, (∀ c ∈ cs, c.isDigit) → cs.all fun c => !Text.isBlank c := by
    intro cs hcs
    refine List.all_eq_true.mpr fun c hMem => ?_
    rw [Text.isBlank_of_isDigit (hcs c hMem)]
    rfl
  have hPadded : ∀ width n, (padded width n).all fun c => !Text.isBlank c :=
    fun _ _ => hDigits _ fun _ => isDigit_of_mem_paddedDigits
  have hAll : (text ms).toList.all fun c => !Text.isBlank c := by
    rw [text]
    split
    · rw [String.toList_ofList]
      exact hDigits _ fun _ => isDigit_of_mem_decimalDigits
    · simp only [String.toList_ofList, List.all_append, hPadded]
      split <;> decide
  exact Bool.not_eq_true' _ ▸ List.all_eq_true.mp hAll c h

/-- A time up to the end of the year 9999 is read back from its written form. -/
theorem parse?_text {ms : Nat} (h : ms ≤ 253402300799999) : parse? (text ms) = some ms := by
  rw [parse?, Text.trim_of_forall fun _ => isBlank_of_mem_text, read?_text h]

end Calendar

end FlowAudit

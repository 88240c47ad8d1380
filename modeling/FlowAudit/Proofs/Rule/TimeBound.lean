import FlowAudit.Proofs.Calendar
import FlowAudit.Proofs.Rule.Document
/-!
Time bounds of reports as time bounds of rules. Up to the end of the year 9999 a bound that was
written is read back, so bounds are told apart by their written forms.
-/
namespace FlowAudit

namespace TimeSegment

/-- Whether a bound is absent or lies before the year 10000. -/
def IsFourDigit (bound : Option UInt64) : Prop :=
  ∀ ms ∈ bound, ms.toNat ≤ 253402300799999

/-- The bound that a rule has if its text is the written form of another bound. -/
def rewritten (bound : Option UInt64) : Option TimeBound :=
  bound.map fun ms => .text (Calendar.text ms.toNat)

theorem tells_text {ms : UInt64} (h : ms.toNat ≤ 253402300799999) :
    (TimeBound.text (Calendar.text ms.toNat)).Tells ms := by
  rw [TimeBound.Tells, Calendar.parse?_text h, Option.map_some, UInt64.ofNat_toNat]

/-- A bound that a report writes tells the time it was written for, and an absent one stays
absent. -/
theorem optionRel_rewritten {bound : Option UInt64} (h : IsFourDigit bound) :
    Option.Rel TimeBound.Tells (rewritten bound) bound := by
  cases bound with
  | none => exact .none
  | some ms => exact .some (tells_text (h ms rfl))

/-- The word for an absent bound is no time. -/
theorem parse?_boundText {bound : Option UInt64} (h : IsFourDigit bound) :
    Calendar.parse? (boundText bound) = bound.map UInt64.toNat := by
  cases bound with
  | none => decide
  | some ms => exact Calendar.parse?_text (h ms rfl)

/-- The texts of two bounds are equal only if the bounds are. -/
theorem boundText_inj {bound other : Option UInt64} (h : IsFourDigit bound)
    (hOther : IsFourDigit other) : boundText bound = boundText other ↔ bound = other := by
  constructor
  · intro hText
    have hSame : bound.map UInt64.toNat = other.map UInt64.toNat := by
      rw [← parse?_boundText h, hText, parse?_boundText hOther]
    exact Option.map_injective (fun _ _ => UInt64.toNat_inj.mp) hSame
  · exact congrArg boundText

/-- The written form of every time up to the end of the year 9999 is read as this time. Hence two
bounds in this range look alike only if they are equal, an absent one included, and a window of a
report can be given to a rule in its written form. -/
theorem toMillis_written :
    (∀ ms : UInt64, ms.toNat ≤ 253402300799999 →
      (TimeBound.text (boundText (some ms))).toMillis = .ok ms) ∧
    (∀ bound other : Option UInt64, IsFourDigit bound → IsFourDigit other →
      (boundText bound = boundText other ↔ bound = other)) ∧
    ∀ s : TimeSegment, IsFourDigit s.startTime → IsFourDigit s.endTime →
      s.startTime.isSome ∨ s.endTime.isSome →
      (SegmentEntry.time (rewritten s.startTime) (rewritten s.endTime)).toSegment =
        .ok (some (.time s)) := by
  refine ⟨?_, fun _ _ => boundText_inj, ?_⟩
  · intro ms h
    exact TimeBound.toMillis_eq_ok_iff.mpr (tells_text h)
  · intro s hStart hEnd hSome
    refine SegmentEntry.toSegment_eq_ok_iff.mpr (.times ?_ (optionRel_rewritten hStart)
      (optionRel_rewritten hEnd))
    simpa only [rewritten, Option.isSome_map] using hSome

/-- The last day of a February with 29 days in a century, the last millisecond of the range, and a
window that begins on the former and has no end. -/
theorem toMillis_written_leap_day :
    let leapDay : UInt64 := 951868799999
    let last : UInt64 := 253402300799999
    let s : TimeSegment := ⟨some leapDay, none, by simp⟩
    boundText (some leapDay) = "2000-02-29T23:59:59.999Z" ∧
      boundText (some last) = "9999-12-31T23:59:59.999Z" ∧
      (TimeBound.text (boundText (some leapDay))).toMillis = .ok leapDay ∧
      (TimeBound.text (boundText (some last))).toMillis = .ok last ∧
      boundText s.startTime ≠ boundText s.endTime ∧
      (SegmentEntry.time (rewritten s.startTime) (rewritten s.endTime)).toSegment =
        .ok (some (.time s)) := by
  intro leapDay last s
  obtain ⟨hRead, hDistinct, hWindow⟩ := toMillis_written
  have hStart : IsFourDigit s.startTime := by
    rintro _ ⟨⟩
    decide
  have hEnd : IsFourDigit s.endTime := by
    intro ms h
    cases h
  refine ⟨by decide, by decide, hRead leapDay (by decide), hRead last (by decide), ?_,
    hWindow s hStart hEnd (.inl rfl)⟩
  intro h
  cases (hDistinct s.startTime s.endTime hStart hEnd).mp h

end TimeSegment

end FlowAudit

import WritePlan.Calendar

namespace WritePlan.Calendar

def yearLength (leap : Bool) : Nat := if leap then 366 else 365

theorem daysBeforeYear_mono {earlier later : Int} (order : earlier ≤ later) :
    daysBeforeYear earlier ≤ daysBeforeYear later := by
  unfold daysBeforeYear
  omega

/-- The parts that are taken off a day number in turn: cycles of 400 years, centuries, periods of
four years, years, and what is left. -/
private theorem yearOf_parts (dayNumber : Int) : ∃ cycle century quadrennium year day : Int,
    dayNumber = 146097 * cycle + 36524 * century + 1461 * quadrennium + 365 * year + day ∧
      yearOf dayNumber = 400 * cycle + 100 * century + 4 * quadrennium + year + 1 ∧
      (0 ≤ century ∧ century ≤ 3) ∧ (0 ≤ quadrennium ∧ quadrennium ≤ 24) ∧
      (0 ≤ year ∧ year ≤ 3) ∧ 0 ≤ day ∧ (day < 365 ∨ day = 365 ∧ year = 3 ∧ (quadrennium = 24 → century = 3)) := by
  unfold yearOf
  dsimp only
  generalize isCentury : min (dayNumber % 146097 / 36524) 3 = century
  generalize isRest : dayNumber % 146097 - 36524 * century = inCentury
  generalize isYear : min (inCentury % 1461 / 365) 3 = year
  have centuries : 0 ≤ century ∧ century ≤ 3 := by omega
  have inCenturies : 0 ≤ inCentury ∧ (inCentury < 36524 ∨ inCentury = 36524 ∧ century = 3) := by
    omega
  clear isCentury
  have years : 0 ≤ year ∧ year ≤ 3 := by omega
  have days : 0 ≤ inCentury % 1461 - 365 * year ∧
      (inCentury % 1461 - 365 * year < 365 ∨ inCentury % 1461 = 1460 ∧ year = 3) := by
    omega
  clear isYear
  exact ⟨dayNumber / 146097, century, inCentury / 1461, year, inCentury % 1461 - 365 * year,
    by omega, rfl, centuries, by omega, years, days.1, by omega⟩

/-- Only the fourth year of a period has a last day to spare, and it is a leap year. -/
private theorem isLeap_fourth {cycle century quadrennium : Int}
    (quadrennia : 0 ≤ quadrennium ∧ quadrennium ≤ 24) (full : quadrennium = 24 → century = 3) :
    isLeap (400 * cycle + 100 * century + 4 * quadrennium + 3 + 1) = true := by
  simp only [isLeap, Bool.and_eq_true, Bool.or_eq_true, beq_iff_eq, bne_iff_ne]
  refine ⟨by omega, ?_⟩
  by_cases last : quadrennium = 24
  · have latest := full last
    right
    omega
  · left
    omega

/-- The days that all full years before the year of a day leave over are days of that year. -/
private theorem dayOfYear_yearOf (dayNumber : Int) :
    0 ≤ dayNumber - daysBeforeYear (yearOf dayNumber) ∧
    dayNumber - daysBeforeYear (yearOf dayNumber) < yearLength (isLeap (yearOf dayNumber)) := by
  obtain ⟨cycle, century, quadrennium, year, day, number, isYear, centuries, quadrennia, years,
    begun, ended⟩ := yearOf_parts dayNumber
  have before : daysBeforeYear (yearOf dayNumber) =
      146097 * cycle + 36524 * century + 1461 * quadrennium + 365 * year := by
    unfold daysBeforeYear
    omega
  rcases ended with short | ⟨last, fourth, full⟩
  · have atLeast : 365 ≤ yearLength (isLeap (yearOf dayNumber)) := by
      unfold yearLength
      split <;> omega
    omega
  · have leap : isLeap (yearOf dayNumber) = true := by
      rw [isYear, fourth]
      exact isLeap_fourth quadrennia full
    rw [leap, before]
    simp only [yearLength, ↓reduceIte]
    omega

theorem daysBeforeYear_succ (year : Int) :
    daysBeforeYear (year + 1) = daysBeforeYear year + yearLength (isLeap year) := by
  by_cases leap : isLeap year = true
  · rw [leap]
    simp only [isLeap, Bool.and_eq_true, Bool.or_eq_true, beq_iff_eq, bne_iff_ne] at leap
    simp only [daysBeforeYear, yearLength, ↓reduceIte]
    omega
  · rw [Bool.not_eq_true] at leap
    rw [leap]
    simp only [isLeap, Bool.and_eq_false_iff, Bool.or_eq_false_iff, beq_eq_false_iff_ne,
      bne_eq_false_iff_eq] at leap
    simp only [daysBeforeYear, yearLength, Bool.false_eq_true, ↓reduceIte]
    omega

/-- The years from one bound to another hold exactly the days from the one bound to the other. -/
theorem yearOf_mem {dayNumber first bound : Int} (begun : daysBeforeYear first ≤ dayNumber)
    (ended : dayNumber < daysBeforeYear bound) :
    first ≤ yearOf dayNumber ∧ yearOf dayNumber < bound := by
  have next := daysBeforeYear_succ (yearOf dayNumber)
  have within := dayOfYear_yearOf dayNumber
  constructor
  · apply Int.not_lt.mp
    intro early
    have order : daysBeforeYear (yearOf dayNumber + 1) ≤ daysBeforeYear first :=
      daysBeforeYear_mono (by omega)
    omega
  · apply Int.not_le.mp
    intro late
    have order : daysBeforeYear bound ≤ daysBeforeYear (yearOf dayNumber) :=
      daysBeforeYear_mono (by omega)
    omega

private theorem monthOf_spec (leap : Bool) (dayOfYear : Nat) (within : dayOfYear < yearLength leap) :
    (1 ≤ monthOf leap dayOfYear ∧ monthOf leap dayOfYear ≤ 12) ∧
      daysBeforeMonth leap (monthOf leap dayOfYear) ≤ dayOfYear ∧
      dayOfYear < daysBeforeMonth leap (monthOf leap dayOfYear) +
        monthLength leap (monthOf leap dayOfYear) := by
  revert leap dayOfYear
  decide +kernel

theorem monthLength_le (leap : Bool) (month : Nat) : monthLength leap month ≤ 31 := by
  unfold monthLength
  split
  · cases leap <;> decide
  iterate 5 decide

theorem Date.isValid_iff (date : Date) : date.isValid = true ↔
    (1 ≤ date.month ∧ date.month ≤ 12) ∧
      1 ≤ date.day ∧ date.day ≤ monthLength (isLeap date.year) date.month := by
  simp [isValid, and_assoc]

theorem isValid_ofDayNumber (dayNumber : Int) : (Date.ofDayNumber dayNumber).isValid = true := by
  have within := dayOfYear_yearOf dayNumber
  obtain ⟨months, begun, ended⟩ := monthOf_spec (isLeap (yearOf dayNumber))
    (dayNumber - daysBeforeYear (yearOf dayNumber)).toNat (by omega)
  rw [Date.isValid_iff]
  dsimp only [Date.ofDayNumber]
  omega

theorem dayNumber_ofDayNumber (dayNumber : Int) :
    (Date.ofDayNumber dayNumber).dayNumber = dayNumber := by
  have within := dayOfYear_yearOf dayNumber
  obtain ⟨months, begun, ended⟩ := monthOf_spec (isLeap (yearOf dayNumber))
    (dayNumber - daysBeforeYear (yearOf dayNumber)).toNat (by omega)
  simp only [Date.dayNumber, Date.ofDayNumber]
  omega

end WritePlan.Calendar

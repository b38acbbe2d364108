import WritePlan.Proofs.Calendar
import WritePlan.Proofs.Numerals
import WritePlan.Timestamp.Reader

namespace WritePlan.Timestamp

open Calendar Text

variable {limit width n : Nat} {rest : List Char}

private theorem isBlank_of_isDigit {c : Char} (digit : c.isDigit = true) : isBlank c = false := by
  have range := Char.isDigit_iff_toNat.mp digit
  have outside : ∀ blank ∈ blankRanges, blank.2 < '0'.toNat ∨ '9'.toNat < blank.1 := by decide
  apply List.any_eq_false.mpr
  intro blank member
  have := outside blank member
  simp only [Bool.and_eq_true, decide_eq_true_eq]
  omega

theorem trimStart_cons {c : Char} (mark : isBlank c = false) : trimStart (c :: rest) = c :: rest := by
  simp [trimStart, mark]

theorem expect?_cons {c : Char} (mark : isBlank c = false) : expect? c (c :: rest) = some rest := by
  simp [expect?, trimStart_cons mark]

/-- A padded number begins with a digit, so no white space is taken off. -/
private theorem trimStart_padded (width n : Nat) (rest : List Char) :
    trimStart (padded width n ++ rest) = padded width n ++ rest := by
  cases digits : padded width n with
  | nil => exact absurd digits padded_ne_nil
  | cons first more =>
    have member : first ∈ padded width n := by simp [digits]
    exact trimStart_cons (isBlank_of_isDigit (isDigit_of_mem_padded member))

/-- Digits within the limit are taken as a number if the limit or another character ends them. -/
private theorem takeNumber?_padded (within : (padded width n).length ≤ limit)
    (stop : limit = (padded width n).length ∨ ∀ c, rest.head? = some c → c.isDigit = false) :
    takeNumber? limit (padded width n ++ rest) = some (n, rest) := by
  have ended : ∀ c, (rest.take (limit - (padded width n).length)).head? = some c →
      c.isDigit = false := by
    intro c first
    rcases stop with full | other
    · simp [full] at first
    · apply other
      cases rest with
      | nil => simp at first
      | cons d rest =>
        cases room : limit - (padded width n).length with
        | zero => simp [room] at first
        | succ room' => simpa [room] using first
  have digits : ∀ c ∈ padded width n, c.isDigit = true :=
    fun c member => isDigit_of_mem_padded member
  have taken := takeWhile_isDigit digits ended
  rw [takeNumber?, List.take_append, List.take_of_length_le within, taken]
  simp [padded_ne_nil]

theorem takeField?_padded (fits : n < 100) :
    takeField? (padded 2 n ++ rest) = some (n, rest) := by
  have two : (padded 2 n).length = 2 := length_padded (by decide) fits
  rw [takeField?, trimStart_padded]
  exact takeNumber?_padded (Nat.le_of_eq two) (.inl two.symm)

theorem takeYear?_yearText (year : Int) (rest : List Char) :
    takeYear? (yearText year ++ '-' :: rest) = some (year, '-' :: rest) := by
  have stop : ∀ c, ('-' :: rest).head? = some c → c.isDigit = false := by
    rintro c first
    obtain rfl := Option.some.inj first
    rfl
  have signed : takeNumber? (padded 4 year.natAbs ++ '-' :: rest).length
      (padded 4 year.natAbs ++ '-' :: rest) = some (year.natAbs, '-' :: rest) :=
    takeNumber?_padded (by simp) (.inr stop)
  by_cases plain : 0 ≤ year ∧ year ≤ 9999
  · have four : (padded 4 year.toNat).length = 4 := length_padded (by decide) (by omega)
    have taken : takeNumber? 4 (padded 4 year.toNat ++ '-' :: rest) =
        some (year.toNat, '-' :: rest) := takeNumber?_padded (Nat.le_of_eq four) (.inl four.symm)
    have trimmed := trimStart_padded 4 year.toNat ('-' :: rest)
    rw [yearText, if_pos plain, takeYear?, trimmed]
    cases digits : padded 4 year.toNat with
    | nil => exact absurd digits padded_ne_nil
    | cons first more =>
      have member : first ∈ padded 4 year.toNat := by simp [digits]
      have digit := isDigit_of_mem_padded member
      have minus : first ≠ '-' := by
        rintro rfl
        exact absurd digit (by decide)
      have plus : first ≠ '+' := by
        rintro rfl
        exact absurd digit (by decide)
      rw [digits] at taken
      simp only [List.cons_append] at taken ⊢
      simp [minus, plus, taken]
      omega
  · rw [yearText, if_neg plain]
    by_cases below : year < 0
    · have size : -(year.natAbs : Int) = year := by omega
      rw [if_pos below, List.cons_append, takeYear?, trimStart_cons rfl]
      apply (congrArg (Option.map fun taken => (-(taken.1 : Int), taken.2)) signed).trans
      rw [Option.map_some, size]
    · have size : (year.natAbs : Int) = year := by omega
      rw [if_neg below, List.cons_append, takeYear?, trimStart_cons rfl]
      apply (congrArg (Option.map fun taken => ((taken.1 : Int), taken.2)) signed).trans
      rw [Option.map_some, size]

theorem takeDate?_text (date : Date) (rest : List Char) (months : date.month < 100)
    (days : date.day < 100) :
    takeDate? (yearText date.year ++ '-' ::
        (padded 2 date.month ++ '-' :: (padded 2 date.day ++ rest))) =
      some (date, rest) := by
  simp [takeDate?, takeYear?_yearText, expect?_cons (c := '-') rfl, takeField?_padded months,
    takeField?_padded days]

/-- A fraction of up to nine digits is taken in units of its last digit. -/
private theorem takeFraction?_padded (width n : Nat) (room : width ≤ 9) (positive : 0 < width)
    (fits : n < 10 ^ width) (stop : ∀ c, rest.head? = some c → c.isDigit = false) :
    takeFraction? ('.' :: (padded width n ++ rest)) = some (n * 10 ^ (9 - width), rest) := by
  have size : (padded width n).length = width := length_padded positive fits
  have taken : takeNumber? 9 (padded width n ++ rest) = some (n, rest) :=
    takeNumber?_padded (by omega) (.inr stop)
  have ended : rest.dropWhile Char.isDigit = rest := by
    cases rest with
    | nil => rfl
    | cons c rest => simp [stop c rfl]
  have digits : (padded width n ++ rest).take width = padded width n := by
    rw [List.take_append_of_le_length (Nat.le_of_eq size.symm),
      List.take_of_length_le (Nat.le_of_eq size)]
  simp [takeFraction?, taken, ended, size, digits]

theorem takeFraction?_fractionText (nanos : Nat) (fits : nanos < 1000000000)
    (stop : ∀ c, rest.head? = some c → c.isDigit = false ∧ c ≠ '.') :
    takeFraction? (fractionText nanos ++ rest) = some (nanos, rest) := by
  have noDigit : ∀ c, rest.head? = some c → c.isDigit = false := fun c first => (stop c first).1
  unfold fractionText
  by_cases none : nanos = 0
  · cases rest with
    | nil => simp [none, takeFraction?]
    | cons c rest => simp [none, takeFraction?, (stop c rfl).2]
  · by_cases millis : nanos % 1000000 = 0
    · have value : nanos / 1000000 * 1000000 = nanos := by omega
      have taken := takeFraction?_padded 3 (nanos / 1000000) (by decide) (by decide)
        (by omega) noDigit
      simpa [none, millis, value] using taken
    · by_cases micros : nanos % 1000 = 0
      · have value : nanos / 1000 * 1000 = nanos := by omega
        have taken := takeFraction?_padded 6 (nanos / 1000) (by decide) (by decide)
          (by omega) noDigit
        simpa [none, millis, micros, value] using taken
      · have taken := takeFraction?_padded 9 nanos (by decide) (by decide)
          (by omega) noDigit
        simpa [none, millis, micros] using taken

/-- The time as it stands behind the letter T: hours, minutes, seconds and their fraction. -/
def timeText (ofDay nanos : Nat) : List Char :=
  padded 2 (ofDay / 3600) ++ ':' :: (padded 2 (ofDay / 60 % 60) ++ ':' ::
    (padded 2 (ofDay % 60 + nanos / 1000000000) ++ fractionText (nanos % 1000000000)))

/-- The time of a day is taken off the text; second 60 comes back as a leap second. -/
theorem takeTime?_timeText {ofDay nanos : Nat} (rest : List Char) (today : ofDay < 86400)
    (within : nanos < 2000000000) (leap : 1000000000 ≤ nanos → ofDay % 60 = 59)
    (stop : ∀ c, rest.head? = some c → c.isDigit = false ∧ c ≠ '.') :
    takeTime? (timeText ofDay nanos ++ rest) = some ((ofDay, nanos), rest) := by
  have fraction := takeFraction?_fractionText (nanos % 1000000000) (by omega) stop
  have hours : ¬23 < ofDay / 3600 := by omega
  have minutes : ¬59 < ofDay / 60 % 60 := by omega
  have seconds : ¬60 < ofDay % 60 + nanos / 1000000000 := by omega
  have shown : takeTime? (timeText ofDay nanos ++ rest) =
      if ofDay % 60 + nanos / 1000000000 = 60 then
        some ((3600 * (ofDay / 3600) + 60 * (ofDay / 60 % 60) + 59,
          1000000000 + nanos % 1000000000), rest)
      else some ((3600 * (ofDay / 3600) + 60 * (ofDay / 60 % 60) +
        (ofDay % 60 + nanos / 1000000000), nanos % 1000000000), rest) := by
    simp [timeText, takeTime?, expect?_cons (c := ':') rfl,
      takeField?_padded (n := ofDay / 3600) (by omega),
      takeField?_padded (n := ofDay / 60 % 60) (by omega),
      takeField?_padded (n := ofDay % 60 + nanos / 1000000000) (by omega), fraction, hours, minutes,
      seconds]
  rw [shown]
  by_cases extra : 1000000000 ≤ nanos
  · have last := leap extra
    rw [if_pos (by omega)]
    congr 3 <;> omega
  · rw [if_neg (by omega)]
    congr 3 <;> omega

theorem takeOffset?_zulu : takeOffset? (trimStart ['Z']) = some (0, []) := by
  decide

/-- The years of timestamps are the years that are read. -/
theorem reaches_year (t : Timestamp) :
    reaches (Date.ofDayNumber (t.seconds / 86400 + epochDay)).year = true := by
  have notBefore := t.not_before
  have notAfter := t.not_after
  have begun : daysBeforeYear (-262143) ≤ t.seconds / 86400 + epochDay := by
    rw [first] at notBefore
    omega
  have ended : t.seconds / 86400 + epochDay < daysBeforeYear 262143 := by
    rw [bound] at notAfter
    omega
  have within := yearOf_mem begun ended
  rw [reaches, Bool.and_eq_true, decide_eq_true_eq, decide_eq_true_eq]
  exact ⟨within.1, Int.le_of_lt_add_one within.2⟩

theorem ofUnix?_eq (t : Timestamp) : ofUnix? t.seconds t.nanos = some t := by
  rw [ofUnix?, dif_pos ⟨⟨t.not_before, t.not_after⟩, t.nanos_lt, t.leap_second⟩]

private theorem zuluText_eq (t : Timestamp) {date : Date}
    (isDate : Date.ofDayNumber (t.seconds / 86400 + epochDay) = date) :
    t.zuluText = yearText date.year ++ '-' :: (padded 2 date.month ++ '-' ::
      (padded 2 date.day ++ 'T' :: (timeText (t.seconds % 86400).toNat t.nanos ++ ['Z']))) := by
  simp [zuluText, textWith, timeText, isDate]

theorem ofText?_zuluText (t : Timestamp) : ofText? t.zuluText = some t := by
  obtain ⟨date, isDate⟩ : ∃ date, Date.ofDayNumber (t.seconds / 86400 + epochDay) = date :=
    ⟨_, rfl⟩
  have valid := isValid_ofDayNumber (t.seconds / 86400 + epochDay)
  have number := dayNumber_ofDayNumber (t.seconds / 86400 + epochDay)
  have reached := reaches_year t
  rw [isDate] at valid number reached
  obtain ⟨months, days⟩ := (Date.isValid_iff date).mp valid
  have short := monthLength_le (isLeap date.year) date.month
  have dated := takeDate?_text date ('T' :: (timeText (t.seconds % 86400).toNat t.nanos ++ ['Z']))
    (by omega) (by omega)
  have leap : 1000000000 ≤ t.nanos → (t.seconds % 86400).toNat % 60 = 59 := by
    intro extra
    have last := t.leap_second extra
    omega
  have timed := takeTime?_timeText ['Z'] (by omega) t.nanos_lt leap (by simp)
  have instant : (t.seconds / 86400 + epochDay - epochDay) * 86400 + (t.seconds % 86400).toNat - 0 =
      t.seconds := by
    omega
  rw [zuluText_eq t isDate]
  simp only [ofText?, dated, timed, takeOffset?_zulu, valid, reached, number, instant,
    Option.bind_eq_bind, Option.bind_some]
  exact ofUnix?_eq t

end WritePlan.Timestamp

import WritePlan.Calendar
import WritePlan.Text.Digits

namespace WritePlan

open Calendar Text

def Timestamp.epochDay : Int := 719162

def Timestamp.first : Int := (daysBeforeYear (-262143) - epochDay) * 86400

/-- The first second after the last year that timestamps reach. -/
def Timestamp.bound : Int := (daysBeforeYear 262143 - epochDay) * 86400

/-- Seconds since the beginning of 1970 and nanoseconds. From one thousand million
nanoseconds on, the instant lies in the leap second that follows the last second of a
minute. -/
structure Timestamp where
  seconds : Int
  nanos : Nat
  not_before : Timestamp.first ≤ seconds
  not_after : seconds < Timestamp.bound
  nanos_lt : nanos < 2000000000
  leap_second : 1000000000 ≤ nanos → seconds % 60 = 59
deriving DecidableEq

namespace Timestamp

def ofUnix? (seconds : Int) (nanos : Nat) : Option Timestamp :=
  if fits : (first ≤ seconds ∧ seconds < bound) ∧ nanos < 2000000000 ∧
      (1000000000 ≤ nanos → seconds % 60 = 59) then
    some ⟨seconds, nanos, fits.1.1, fits.1.2, fits.2.1, fits.2.2⟩
  else none

/-- Years of four digits stand alone, all others carry a sign. -/
def yearText (year : Int) : List Char :=
  if 0 ≤ year ∧ year ≤ 9999 then padded 4 year.toNat
  else (if year < 0 then '-' else '+') :: padded 4 year.natAbs

/-- The fraction of a second: nothing, or the fewest of 3, 6 and 9 digits that are exact. -/
def fractionText (nanos : Nat) : List Char :=
  if nanos = 0 then []
  else if nanos % 1000000 = 0 then '.' :: padded 3 (nanos / 1000000)
  else if nanos % 1000 = 0 then '.' :: padded 6 (nanos / 1000)
  else '.' :: padded 9 nanos

/-- Date and time in universal time; a leap second shows as second 60. -/
def textWith (zone : List Char) (t : Timestamp) : List Char :=
  let date := Date.ofDayNumber (t.seconds / 86400 + epochDay)
  let ofDay := (t.seconds % 86400).toNat
  let second := ofDay % 60 + t.nanos / 1000000000
  yearText date.year ++ '-' :: padded 2 date.month ++ '-' :: padded 2 date.day ++
    'T' :: padded 2 (ofDay / 3600) ++ ':' :: padded 2 (ofDay / 60 % 60) ++
    ':' :: padded 2 second ++ fractionText (t.nanos % 1000000000) ++ zone

def text (t : Timestamp) : List Char := t.textWith "+00:00".toList

/-- The form for data, with the letter for universal time. -/
def zuluText (t : Timestamp) : List Char := t.textWith ['Z']

end Timestamp

end WritePlan

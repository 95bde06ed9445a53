import Mathlib.Data.Nat.Find
import OpenTulpa.Library.Numerals

/-! Days of the proleptic Gregorian calendar by their ordinals, points in time with an offset, and how they are written. -/

namespace OpenTulpa.Library.Calendar

open Numerals

section Days

structure Date where
  year : Nat
  month : Nat
  day : Nat
  deriving DecidableEq

def isLeap (year : Nat) : Bool := year % 4 == 0 && (year % 100 != 0 || year % 400 == 0)

def daysBeforeYear (year : Nat) : Nat := (year - 1) * 365 + (year - 1) / 4 - (year - 1) / 100 + (year - 1) / 400

/-- The days of a year before a month; the months count from 1. -/
def daysBeforeMonth (leap : Bool) : Nat → Nat
  | 0 | 1 => 0
  | 2 => 31
  | month + 3 => [59, 90, 120, 151, 181, 212, 243, 273, 304, 334].getD month 365 + leap.toNat

def Date.toOrdinal (date : Date) : Nat :=
  daysBeforeYear date.year + daysBeforeMonth (isLeap date.year) date.month + date.day

/-- The month of a day of a year; the days count from 0. -/
def monthOf (leap : Bool) (day : Nat) : Nat := Nat.findGreatest (fun month => daysBeforeMonth leap month ≤ day) 12

/-- The date of a day that so many whole cycles of 400, 100, 4 and 1 years and so many days come before. -/
def ofCycles (quadricentennials centuries cycles years rest : Nat) : Date :=
  let year := quadricentennials * 400 + centuries * 100 + cycles * 4 + years + 1
  if years = 4 ∨ centuries = 4 then ⟨year - 1, 12, 31⟩
  else
    ⟨year, monthOf (isLeap year) rest, rest - daysBeforeMonth (isLeap year) (monthOf (isLeap year) rest) + 1⟩

/-- The date of a day; 1 is the first of January of the year 1. -/
def ofOrdinal (ordinal : Nat) : Date :=
  let quadricentennial := (ordinal - 1) % 146097
  let century := quadricentennial % 36524
  let cycle := century % 1461
  ofCycles ((ordinal - 1) / 146097) (quadricentennial / 36524) (century / 1461) (cycle / 365) (cycle % 365)

/-- `date.max.toordinal()` -/
def maxOrdinal : Nat := 3652059

theorem monthOf_before (leap : Bool) (day : Nat) : daysBeforeMonth leap (monthOf leap day) ≤ day :=
  Nat.findGreatest_spec (P := fun month => daysBeforeMonth leap month ≤ day) (Nat.zero_le 12) (Nat.zero_le day)

theorem monthOf_le (leap : Bool) (day : Nat) : monthOf leap day ≤ 12 := Nat.findGreatest_le 12

theorem isLeap_of_cycles {a b c : Nat} (cycles : c ≤ 23) : isLeap (a * 400 + b * 100 + c * 4 + 4) = true := by
  have fourth : (a * 400 + b * 100 + c * 4 + 4) % 4 = 0 := by omega
  have between : (a * 400 + b * 100 + c * 4 + 4) % 100 ≠ 0 := by omega
  simp [isLeap, fourth, between]

theorem isLeap_of_quadricentennials (a : Nat) : isLeap (a * 400 + 400) = true := by
  have whole : (a * 400 + 400) % 400 = 0 := by omega
  have fourth : (a * 400 + 400) % 4 = 0 := by omega
  simp [isLeap, fourth, whole]

theorem toOrdinal_ofCycles {a b c d rest : Nat} (centuries : b ≤ 4) (cycles : c ≤ 24) (years : d ≤ 4)
    (lastCentury : b = 4 → c = 0 ∧ d = 0 ∧ rest = 0) (lastYear : d = 4 → c ≤ 23 ∧ rest = 0) :
    (ofCycles a b c d rest).toOrdinal = a * 146097 + b * 36524 + c * 1461 + d * 365 + rest + 1 := by
  simp only [ofCycles]
  split
  next last =>
    simp only [Date.toOrdinal, Nat.add_sub_cancel]
    rcases last with rfl | rfl
    · obtain ⟨inner, rfl⟩ := lastYear rfl
      have early : b ≤ 3 := by
        by_contra fifth
        have none := (lastCentury (by omega)).2.1
        omega
      rw [isLeap_of_cycles inner, daysBeforeYear]
      simp only [daysBeforeMonth, List.getD_cons_zero, List.getD_cons_succ, Bool.toNat_true]
      omega
    · obtain ⟨rfl, rfl, rfl⟩ := lastCentury rfl
      rw [show a * 400 + 4 * 100 + 0 * 4 + 0 = a * 400 + 400 by omega, isLeap_of_quadricentennials, daysBeforeYear]
      simp only [daysBeforeMonth, List.getD_cons_zero, List.getD_cons_succ, Bool.toNat_true]
      omega
  next regular =>
    have before := monthOf_before (isLeap (a * 400 + b * 100 + c * 4 + d + 1)) rest
    simp only [Date.toOrdinal]
    have whole : daysBeforeYear (a * 400 + b * 100 + c * 4 + d + 1) = a * 146097 + b * 36524 + c * 1461 + d * 365 := by
      rw [daysBeforeYear]
      omega
    omega

/-- A day's date is its own. -/
theorem toOrdinal_ofOrdinal {ordinal : Nat} (positive : 0 < ordinal) : (ofOrdinal ordinal).toOrdinal = ordinal := by
  rw [ofOrdinal, toOrdinal_ofCycles] <;> omega

theorem year_ofOrdinal {ordinal : Nat} (within : ordinal ≤ maxOrdinal) : (ofOrdinal ordinal).year < 10000 := by
  rw [maxOrdinal] at within
  simp only [ofOrdinal, ofCycles]
  split
  · dsimp only
    omega
  · dsimp only
    omega

theorem month_ofOrdinal (ordinal : Nat) : (ofOrdinal ordinal).month ≤ 12 := by
  simp only [ofOrdinal, ofCycles]
  split
  · exact Nat.le_refl 12
  · exact monthOf_le _ _

theorem day_of_monthOf : ∀ leap, ∀ rest < 365, rest - daysBeforeMonth leap (monthOf leap rest) < 31 := by decide +kernel

theorem day_ofOrdinal (ordinal : Nat) : (ofOrdinal ordinal).day ≤ 31 := by
  simp only [ofOrdinal, ofCycles]
  split
  · exact Nat.le_refl 31
  · exact day_of_monthOf _ _ (Nat.mod_lt _ (by decide))

end Days

section Stamps

/-- A point in time on the clock of an offset, which is in minutes. -/
structure Stamp where
  date : Date
  hour : Nat
  minute : Nat
  second : Nat
  offset : Int
  deriving DecidableEq

/-- The ordinal of the first of January 1970. -/
def epochOrdinal : Nat := 719163

/-- `datetime.fromtimestamp(seconds, tz=timezone(offset))`; both days must be dates. -/
def fromTimestamp (seconds : Nat) (offset : Int) : Option Stamp :=
  let clock := ((epochOrdinal * 86400 + seconds : Nat) + offset * 60).toNat
  if epochOrdinal + seconds / 86400 ≤ maxOrdinal ∧ clock / 86400 ≤ maxOrdinal then
    some ⟨ofOrdinal (clock / 86400), clock % 86400 / 3600, clock % 3600 / 60, clock % 60, offset⟩
  else none

def Stamp.timestamp (stamp : Stamp) : Int :=
  (stamp.date.toOrdinal - epochOrdinal : Int) * 86400 + stamp.hour * 3600 + stamp.minute * 60 + stamp.second -
    stamp.offset * 60

/-- What is denoted in a clock's time is the time itself. -/
theorem timestamp_fromTimestamp {seconds : Nat} {offset : Int} {stamp : Stamp} (early : -1440 < offset)
    (made : fromTimestamp seconds offset = some stamp) : stamp.timestamp = seconds ∧ stamp.offset = offset := by
  rw [fromTimestamp] at made
  split at made
  next within =>
    cases made
    refine ⟨?_, rfl⟩
    rw [Stamp.timestamp]
    dsimp only
    rw [toOrdinal_ofOrdinal (by rw [epochOrdinal]; omega), epochOrdinal]
    omega
  · cases made

/-- A point in time whose parts are written with the digits they have. -/
structure Stamp.Written (stamp : Stamp) : Prop where
  year : stamp.date.year < 10000
  month : stamp.date.month < 100
  day : stamp.date.day < 100
  hour : stamp.hour < 100
  minute : stamp.minute < 100
  second : stamp.second < 100
  offset : stamp.offset.natAbs < 1440

theorem written_fromTimestamp {seconds : Nat} {offset : Int} {stamp : Stamp} (within : offset.natAbs < 1440)
    (made : fromTimestamp seconds offset = some stamp) : stamp.Written := by
  rw [fromTimestamp] at made
  split at made
  next days =>
    cases made
    have month := month_ofOrdinal (((epochOrdinal * 86400 + seconds : Nat) + offset * 60).toNat / 86400)
    have day := day_ofOrdinal (((epochOrdinal * 86400 + seconds : Nat) + offset * 60).toNat / 86400)
    refine ⟨year_ofOrdinal days.2, ?_, ?_, ?_, ?_, ?_, within⟩ <;> dsimp only <;> omega
  · cases made

def signOf (offset : Int) : Char := if offset < 0 then '-' else '+'

/-- `stamp.isoformat(timespec="seconds")` -/
def Stamp.isoformat (stamp : Stamp) : List Char :=
  fourDigits stamp.date.year ++ '-' :: twoDigits stamp.date.month ++ '-' :: twoDigits stamp.date.day ++
    'T' :: twoDigits stamp.hour ++ ':' :: twoDigits stamp.minute ++ ':' :: twoDigits stamp.second ++
      signOf stamp.offset :: twoDigits (stamp.offset.natAbs / 60) ++ ':' :: twoDigits (stamp.offset.natAbs % 60)

/-- The point in time that a text of that form denotes. -/
def readIso : List Char → Option Stamp
  | [y₁, y₂, y₃, y₄, dash, m₁, m₂, dash', d₁, d₂, t, h₁, h₂, colon, n₁, n₂, colon', s₁, s₂, sign, o₁, o₂, colon'', p₁, p₂] =>
    if [dash, dash', t, colon, colon', colon''] = ['-', '-', 'T', ':', ':', ':'] then
      let offset : Int := readTwo o₁ o₂ * 60 + readTwo p₁ p₂
      some ⟨⟨readTwo y₁ y₂ * 100 + readTwo y₃ y₄, readTwo m₁ m₂, readTwo d₁ d₂⟩, readTwo h₁ h₂, readTwo n₁ n₂,
        readTwo s₁ s₂, if sign = '-' then -offset else offset⟩
    else none
  | _ => none

theorem readIso_isoformat {stamp : Stamp} (written : stamp.Written) : readIso stamp.isoformat = some stamp := by
  have year : stamp.date.year / 100 % 100 * 100 + stamp.date.year % 100 = stamp.date.year := by
    have short := written.year
    omega
  have offset : (if signOf stamp.offset = '-' then
      -(((stamp.offset.natAbs / 60 % 100 : Nat) : Int) * 60 + (stamp.offset.natAbs % 60 % 100 : Nat))
      else ((stamp.offset.natAbs / 60 % 100 : Nat) : Int) * 60 + (stamp.offset.natAbs % 60 % 100 : Nat)) = stamp.offset := by
    have short := written.offset
    by_cases negative : stamp.offset < 0
    · rw [signOf, if_pos negative, if_pos rfl]
      omega
    · rw [signOf, if_neg negative, if_neg (by decide)]
      omega
  simp only [Stamp.isoformat, fourDigits, twoDigits, List.cons_append, List.nil_append, readIso, if_true,
    readTwo_twoDigits, year, offset, Nat.mod_eq_of_lt written.month, Nat.mod_eq_of_lt written.day,
    Nat.mod_eq_of_lt written.hour, Nat.mod_eq_of_lt written.minute, Nat.mod_eq_of_lt written.second]

end Stamps

end OpenTulpa.Library.Calendar

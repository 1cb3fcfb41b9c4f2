import Offside.Text.Basic

/-!
Days, times and zones. A day is counted from the first of the calendar, so that a time can be moved
over the end of a day, and times of different zones can be compared.
-/
namespace Offside.Data

/-- Why the calendar or the clock does not have a day, a time or a zone. -/
inductive CalendarError
  | year (number : Nat)
  | month
  | day
  | hour
  | minute
  | second
  /-- A clock cannot be a day or more ahead or behind. -/
  | zone (minutes : Int)
  /-- The time lies behind the last day. -/
  | beyond
deriving DecidableEq, Repr

structure Date where
  year : Nat
  month : Nat
  day : Nat
deriving DecidableEq, Repr, Inhabited

structure Time where
  hour : Nat
  minute : Nat
  second : Nat
  microsecond : Nat
deriving DecidableEq, Repr, Inhabited

/-- A zone: how many minutes its clock is ahead, and how it is written. -/
structure Zone where
  ahead : Int
  name : Text
deriving DecidableEq, Repr, Inhabited

def daysOfMonth (year month : Nat) : Nat :=
  if month == 2 then
    if year % 4 == 0 && (year % 100 != 0 || year % 400 == 0) then 29 else 28
  else if [4, 6, 9, 11].contains month then 30
  else 31

def daysBeforeYear (year : Nat) : Nat :=
  let y := year - 1
  365 * y + y / 4 - y / 100 + y / 400

def lastYear : Nat := 9999

namespace Date

/-- The day with a year, a month and a day of the month. -/
def ofParts (year month day : Nat) : Except CalendarError Date :=
  if year < 1 || lastYear < year then .error (.year year)
  else if month < 1 || 12 < month then .error .month
  else if day < 1 || daysOfMonth year month < day then .error .day
  else .ok ⟨year, month, day⟩

/-- The number of days before a day. -/
def toOrdinal (d : Date) : Nat :=
  (List.range (d.month - 1)).foldl (fun n m => n + daysOfMonth d.year (m + 1))
    (daysBeforeYear d.year + d.day - 1)

def next (d : Date) : Except CalendarError Date :=
  if d.day < daysOfMonth d.year d.month then .ok { d with day := d.day + 1 }
  else if d.month < 12 then .ok ⟨d.year, d.month + 1, 1⟩
  else if d.year < lastYear then .ok ⟨d.year + 1, 1, 1⟩
  else .error .beyond

end Date

namespace Time

/-- The time that a clock shows with these figures. -/
def ofParts (hour minute second microsecond : Nat) : Except CalendarError Time :=
  if 23 < hour then .error .hour
  else if 59 < minute then .error .minute
  else if 59 < second then .error .second
  else .ok ⟨hour, minute, second, microsecond⟩

def toMicroseconds (t : Time) : Nat :=
  ((t.hour * 60 + t.minute) * 60 + t.second) * 1000000 + t.microsecond

/-- The time one second later, on the next day if the flag says so. -/
def nextSecond (t : Time) : Time × Bool :=
  if t.second < 59 then ({ t with second := t.second + 1 }, false)
  else if t.minute < 59 then (⟨t.hour, t.minute + 1, 0, t.microsecond⟩, false)
  else if t.hour < 23 then (⟨t.hour + 1, 0, 0, t.microsecond⟩, false)
  else (⟨0, 0, 0, t.microsecond⟩, true)

end Time

def nextSecond (d : Date) (t : Time) : Except CalendarError (Date × Time) :=
  match t.nextSecond with
  | (t, false) => .ok (d, t)
  | (t, true) => d.next.map fun d => (d, t)

/-- The zone with a clock that is so many minutes ahead. -/
def Zone.ofParts (ahead : Int) (name : Text) : Except CalendarError Zone :=
  if 1440 ≤ ahead.natAbs then .error (.zone ahead) else .ok ⟨ahead, name⟩

/-- The number of microseconds from the first day of the calendar on, on a clock that is not
ahead. -/
def instant (d : Date) (t : Time) (z : Zone) : Int :=
  d.toOrdinal * 86400000000 + t.toMicroseconds - z.ahead * 60000000

/-- A length of time as days and seconds of a day; only the days can be negative. -/
def spanText (minutes : Int) : Text :=
  let days := minutes.fdiv 1440
  let seconds := minutes.fmod 1440 * 60
  let parts := (if days == 0 then [] else ["days=".toList ++ Text.ofInt days]) ++
    (if seconds == 0 then [] else ["seconds=".toList ++ Text.ofInt seconds])
  "datetime.timedelta(".toList ++
    (if parts.isEmpty then ['0'] else ", ".toList.intercalate parts) ++ [')']

def CalendarError.message : CalendarError → Text
  | year n => "year ".toList ++ Text.ofNat n ++ " is out of range".toList
  | month => "month must be in 1..12".toList
  | day => "day is out of range for month".toList
  | hour => "hour must be in 0..23".toList
  | minute => "minute must be in 0..59".toList
  | second => "second must be in 0..59".toList
  | zone minutes =>
    "offset must be a timedelta strictly between -timedelta(hours=24) and ".toList ++
      "timedelta(hours=24), not ".toList ++ spanText minutes ++ ['.']
  | beyond => "date value out of range".toList

end Offside.Data

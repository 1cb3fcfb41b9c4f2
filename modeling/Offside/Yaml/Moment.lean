import Offside.Data.Value
import Offside.Yaml.Kind
import Offside.Yaml.Place

/-!
Days and times in scalars: a day, and perhaps a time with a fraction and a zone behind a letter or
blanks.
-/
namespace Offside.Yaml

open Data

/-- The time of day that a scalar shows: its figures, those of its fraction, and its zone. -/
structure ClockText where
  hour : Nat
  minute : Nat
  second : Nat
  fraction : Text
  /-- How many minutes the clock is ahead, and how that is written. -/
  zone : Option (Int × Text)

/-- The day that a scalar shows, perhaps with a time. -/
structure MomentText where
  year : Nat
  month : Nat
  day : Nat
  time : Option ClockText

namespace MomentText

/-- Cuts a number of at least and at most so many digits off a text. -/
def cutDigits (least most : Nat) (s : Text) : Option (Nat × Text) :=
  let digits := (s.take most).takeWhile Char.isDigit
  if digits.length < least then none
  else some (Numeral.ofDigits 10 digits, s.drop digits.length)

def cutChar (c : Char) : Text → Option Text
  | d :: s => if c == d then some s else none
  | [] => none

/-- Cuts a character and two digits behind it off a text. -/
def cutPart (c : Char) (s : Text) : Option (Nat × Text) := (cutChar c s).bind (cutDigits 2 2)

/-- Reads a zone, which can be missing. -/
def readZone (s : Text) : Option (Option (Int × Text)) :=
  let written := s.dropWhile Text.isLineBlank
  match written with
  | [] => if s.isEmpty then some none else none
  | ['Z'] => some (some (0, written))
  | sign :: r =>
    if sign == '+' || sign == '-' then do
      let (hours, r) ← cutDigits 1 2 r
      let (minutes, r) ← if r.isEmpty then some (0, r) else cutPart ':' r
      let ahead : Int := hours * 60 + minutes
      if r.isEmpty then some (some (if sign == '-' then -ahead else ahead, written)) else none
    else none

/-- Cuts off what stands between a day and a time. -/
def cutJoint : Text → Option Text
  | [] => none
  | c :: s =>
    if c == 'T' || c == 't' then some s
    else if Text.isLineBlank c then some (s.dropWhile Text.isLineBlank)
    else none

/-- Reads the time of day behind a day. -/
def readClock (s : Text) : Option ClockText := do
  let (hour, s) ← (cutJoint s).bind (cutDigits 1 2)
  let (minute, s) ← cutPart ':' s
  let (second, s) ← cutPart ':' s
  let (fraction, s) := match s with
    | '.' :: s => (s.takeWhile Char.isDigit, s.dropWhile Char.isDigit)
    | s => ([], s)
  let zone ← readZone s
  some ⟨hour, minute, second, fraction, zone⟩

def ofText? (s : Text) : Option MomentText := do
  let (year, r) ← cutDigits 4 4 s
  let (month, r) ← (cutChar '-' r).bind (cutDigits 1 2)
  let (day, r) ← (cutChar '-' r).bind (cutDigits 1 2)
  if r.isEmpty then some ⟨year, month, day, none⟩
  else (readClock r).map fun t => ⟨year, month, day, some t⟩

/-- The microseconds that the figures of a fraction show, and whether they round up to a second. The
seventh figure decides on rounding. -/
def microseconds (fraction : Text) : Nat × Bool :=
  let figures := Numeral.ofDigits 10 ((fraction ++ List.replicate 6 '0').take 6)
  let up := (fraction[6]?.bind (Numeral.digit? 10)).any (4 < ·)
  if !up then (figures, false)
  else if figures == 999999 then (0, true)
  else (figures + 1, false)

/-- The value of a day and a time, if the calendar and the clock have them. -/
def value (m : MomentText) : Except CalendarError Value :=
  match m.time with
  | none => (Date.ofParts m.year m.month m.day).map .date
  | some t => do
    let zone ← match t.zone with
      | none => pure none
      | some (ahead, name) => (Zone.ofParts ahead name).map some
    let (figures, carries) := microseconds t.fraction
    let date ← Date.ofParts m.year m.month m.day
    let time ← Time.ofParts t.hour t.minute t.second figures
    let (date, time) ← if carries then nextSecond date time else pure (date, time)
    return .moment date time zone

end MomentText

/-- Whether a scalar looks like a day or a time. A day alone has two figures for its month and its
day. -/
def Kind.isMoment (s : Text) : Bool :=
  match MomentText.ofText? s with
  | none => false
  | some m => m.time.isSome || s.length == 10

/-- The kind that a plain scalar shows by its form. A line feed at its end does not count. Only the
two versions that are known say what forms mean. -/
def Kind.ofPlain (v : Version) (s : Text) : Except Fault Kind :=
  let body := if 1 < s.length then (Text.dropEnding? ['\n'] s).getD s else s
  if v != .current && v != .old then .error .unknownVersion
  else if Kind.truthWords.contains body || (v.isOld && Kind.oldTruthWords.contains body) then
    .ok .boolean
  else if Kind.isDouble v body then .ok .double
  else if Kind.isInteger v body then .ok .integer
  else if body == ['<', '<'] then .ok .merge
  else if Kind.nullWords.contains body then .ok .null
  else if Kind.isMoment body then .ok .moment
  else if body == ['='] then .ok .standIn
  else .ok .text

end Offside.Yaml

import QueryJournal.Time.Calendar
import QueryJournal.Value.Number

/-!
# Timestamps

The times of log records, made from the seconds and the milliseconds of a clock.
Seconds may have a fraction, and everything before the second that they lie in
is dropped with it. Milliseconds may be any value that stands for a number.
-/

namespace QueryJournal.Timestamp

/-- Whether a number of seconds can be represented by the system. -/
def isRepresentable (seconds : Int) : Bool :=
  -(Nat.pow 2 63 : Int) ≤ seconds && seconds < Nat.pow 2 63

/-- Whether a year can be represented by the system, which counts from 1900. -/
def isKnownYear (year : Int) : Bool :=
  -(Nat.pow 2 31 : Int) ≤ year - 1900 && year - 1900 < Nat.pow 2 31

/-- Date and time to the second in universal time, from seconds since
1970-01-01T00:00. -/
def dateText (seconds : Int) : Except Failure String := do
  let date := Calendar.Date.ofDays (seconds / 86400)
  let clock := (seconds % 86400).toNat
  if !isRepresentable seconds then throw .timeOverflow
  if !isKnownYear date.year then throw .unknownYear
  if Nat.pow 2 31 ≤ date.year then throw .timeOverflow
  return Number.text date.year ++ "-" ++ Number.padded 2 date.month ++ "-" ++
    Number.padded 2 date.day ++ " " ++ Number.padded 2 (clock / 3600) ++ ":" ++
    Number.padded 2 (clock / 60 % 60) ++ ":" ++ Number.padded 2 (clock % 60)

/-- Whole seconds, of a number that is an integer or has a binary fraction. -/
def seconds : Value → Except Failure Int
  | .float x => x.whole Int.fdiv
  | v =>
    match v.asInt? with
    | some n => .ok n
    | none => .error .notANumber

/-- The timestamp of a number of seconds and one of milliseconds, which are
shown with three digits at least. -/
def text (created msecs : Value) : Except Failure String := do
  let date ← dateText (← seconds created)
  return date ++ "," ++ Number.paddedText 3 (← msecs.whole)

end QueryJournal.Timestamp

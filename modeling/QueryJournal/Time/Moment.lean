import QueryJournal.Number.Rounding
import QueryJournal.Time.Calendar

/-!
# Moments

A moment is a date and a time of day to the microsecond, with or without an
offset from universal time. One without an offset is taken to be universal.
-/

namespace QueryJournal

/-- A date with a time of day. -/
structure Moment where
  /-- The date. -/
  date : Calendar.Date
  /-- The hour, from 0 to 23. -/
  hour : Nat
  /-- The minute, from 0 to 59. -/
  minute : Nat
  /-- The second, from 0 to 59. -/
  second : Nat
  /-- The microsecond, below a million. -/
  microsecond : Nat
  /-- Minutes by which the clock is ahead of universal time, if known. -/
  offset : Option Int
  deriving DecidableEq

namespace Moment

/-- Microseconds in a day. -/
def dayLength : Int :=
  86400000000

/-- Microseconds since midnight on the moment's own clock. -/
def clock (t : Moment) : Int :=
  ((t.hour * 60 + t.minute) * 60 + t.second) * 1000000 + t.microsecond

/-- Microseconds since 1970-01-01T00:00 in universal time. -/
def toMicros (t : Moment) : Int :=
  t.date.toDays * dayLength + t.clock - t.offset.getD 0 * 60000000

/-- The moment in universal time that lies a number of microseconds after
1970-01-01T00:00. -/
def ofMicros (n : Int) : Moment :=
  let clock := (n % dayLength).toNat
  { date := Calendar.Date.ofDays (n / dayLength)
    hour := clock / 3600000000
    minute := clock / 60000000 % 60
    second := clock / 1000000 % 60
    microsecond := clock % 1000000
    offset := some 0 }

/-- The milliseconds since 1970-01-01T00:00, rounded down. -/
def toMillis (t : Moment) : Int :=
  t.toMicros / 1000

/-- The first millisecond of year 1. -/
def firstMillis : Int :=
  -62135596800000

/-- The last millisecond of year 9999. -/
def lastMillis : Int :=
  253402300799999

/-- The moment a number of milliseconds after 1970-01-01T00:00, if its year has
at most four digits. -/
def ofMillis? (n : Int) : Option Moment :=
  if firstMillis ≤ n ∧ n ≤ lastMillis then some (ofMicros (n * 1000)) else none

/-- The date as year, month and day. -/
def dateText (t : Moment) : String :=
  Number.paddedText 4 t.date.year ++ "-" ++
  Number.padded 2 t.date.month ++ "-" ++
    Number.padded 2 t.date.day

/-- The time of day to the second. -/
def timeText (t : Moment) : String :=
  Number.padded 2 t.hour ++ ":" ++ Number.padded 2 t.minute ++ ":" ++
    Number.padded 2 t.second

/-- Six places of a second, unless all are zero. -/
def fractionText (t : Moment) : String :=
  if t.microsecond = 0 then "" else "." ++ Number.padded 6 t.microsecond

/-- An offset in signed hours and minutes. -/
def offsetText (minutes : Int) : String :=
  let n := minutes.natAbs
  (if minutes < 0 then "-" else "+") ++ Number.padded 2 (n / 60) ++ ":" ++
    Number.padded 2 (n % 60)

/-- The offset, if there is one. -/
def zoneText (t : Moment) : String :=
  (t.offset.map offsetText).getD ""

/-- The text in which date and time are separated by a space. -/
def text (t : Moment) : String :=
  t.dateText ++ " " ++ t.timeText ++ t.fractionText ++ t.zoneText

/-- The text with exactly three places of a second. -/
def millisText (t : Moment) : String :=
  t.dateText ++ "T" ++ t.timeText ++ "." ++
  Number.padded 3 (t.microsecond / 1000) ++
    t.zoneText

/-- The interchange text, in which a zero offset is a letter. -/
def interchangeText (t : Moment) : String :=
  let zone := if t.offset = some 0 then "Z" else t.zoneText
  t.dateText ++ "T" ++ t.timeText ++ t.fractionText ++ zone

/-- The length of an offset in days and seconds. -/
def spanLiteral (minutes : Int) : String :=
  let days := minutes / 1440
  let seconds := minutes % 1440 * 60
  let parts :=
    (if days = 0 then [] else ["days=" ++ Number.text days]) ++
      (if seconds = 0 then [] else ["seconds=" ++ Number.text seconds])
  "datetime.timedelta(" ++ ", ".intercalate parts ++ ")"

/-- The offset as an argument, universal time by its name. -/
def zoneLiteral (minutes : Int) : String :=
  if minutes = 0 then "datetime.timezone.utc"
  else "datetime.timezone(" ++ spanLiteral minutes ++ ")"

/-- The moment as a constructor with its fields; zero microseconds are left
out, and zero seconds with them. -/
def literal (t : Moment) : String :=
  let tail :=
    if t.microsecond ≠ 0 then [t.second, t.microsecond]
    else if t.second ≠ 0 then [t.second]
    else []
  let fields := [t.date.month, t.date.day, t.hour, t.minute] ++ tail
  let zone := (t.offset.map fun n => ["tzinfo=" ++ zoneLiteral n]).getD []
  let parts :=
    Number.text t.date.year :: fields.map (fun n : Nat => Number.text n) ++ zone
  "datetime.datetime(" ++ ", ".intercalate parts ++ ")"

end Moment

end QueryJournal

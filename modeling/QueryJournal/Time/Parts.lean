import QueryJournal.Time.Moment
import QueryJournal.Wire.BigEndian

/-!
# Moments from their parts

A moment is told by its year, month and day, by as many parts of the time of day
as are needed, and by its offset. All of them are integers within their ranges.
-/

namespace QueryJournal.Moment

/-- Why some parts are no moment. -/
inductive Fault where
  /-- There are too few parts, or too many. -/
  | wrongCount
  /-- A part or the offset is no integer. -/
  | notAnInteger
  /-- A part or the offset is beyond what can be held. -/
  | overflow
  /-- A part or the offset is out of its range. -/
  | outOfRange
  deriving DecidableEq

/-- The most days that a span of time can have. -/
def longestSpan : Int :=
  999999999

/-- Reads an offset in minutes, which is less than a day. -/
def readOffset : Option Int → Except Fault Int
  | none => .error .notAnInteger
  | some minutes =>
    if longestSpan < (minutes / 1440).natAbs then .error .overflow
    else if minutes.natAbs < 1440 then .ok minutes
    else .error .outOfRange

/-- Reads a part, which is held in four bytes. -/
def readPart : Option Int → Except Fault Int
  | none => .error .notAnInteger
  | some n => if BigEndian.fits 4 n then .ok n else .error .overflow

/-- Whether all fields of a moment are in their ranges; years have at most four
digits. -/
def isReal (t : Moment) : Bool :=
  1 ≤ t.date.year && t.date.year ≤ 9999 && t.date.isReal && t.hour < 24 &&
    t.minute < 60 &&
    t.second < 60 && t.microsecond < 1000000

/-- The moment with the numbers of its parts in their order; parts of the time
of day that are missing are zero. -/
def ofNumbers (ns : List Int) (offset : Option Int) : Except Fault Moment :=
  let place (i : Nat) : Nat := (ns.getD i 0).toNat
  let t : Moment := ⟨⟨ns.getD 0 0, place 1, place 2⟩, place 3, place 4, place 5,
    place 6, offset⟩
  if ns.any (· < 0) ∨ !t.isReal then .error .outOfRange else .ok t

/-- Reads a moment from its parts, of which there are three to seven, and its
offset, if there is one. A part that is no integer is none. -/
def ofParts
    (parts : List (Option Int)) (offset : Option (Option Int)) :
    Except Fault Moment := do
  let offset ← offset.mapM readOffset
  if 8 < parts.length then throw .wrongCount
  let ns ← (parts.take 7).mapM readPart
  if ns.length < 3 ∨ parts.length = 8 then throw .wrongCount
  ofNumbers ns offset

end QueryJournal.Moment

import QueryJournal.Number.Shortest

/-!
# The text of single-precision numbers

A single-precision number is printed by the fewest digits whose correct
rounding reads back as it. The text goes through double precision, the format
of all other numbers here.
-/

namespace QueryJournal.Binary

/-- Rounds to `count` significant digits in double precision. -/
def roundedDouble
    (negative : Bool) (m : Nat) (q : Int) (count : Nat) : Binary :=
  let d := roundedTo m q count
  ofDecimal .double negative d.coefficient d.exponent

/-- What rounding to some number of digits shows about a number. -/
inductive Trial where
  /-- The rounded number exceeds every single-precision one. -/
  | overflow
  /-- The rounded number reads back as the number itself. -/
  | found (x : Binary)
  deriving DecidableEq

/-- Tries `count` significant digits. -/
def tryDigits?
    (negative : Bool) (m : Nat) (q : Int) (count : Nat) : Option Trial :=
  let x := roundedDouble negative m q count
  let y := x.convert .single
  if y = .infinity negative then some .overflow
  else if y = .finite negative m q then some (.found x)
  else none

/-- The text of a single-precision number, tried with one to nine digits; none
where a rounded number on the way exceeds the format. -/
def singleText? : Binary → Option String
  | .finite negative m q =>
    match (List.range' 1 9).findSome? (tryDigits? negative m q) with
    | some .overflow => none
    | some (.found x) => some x.text
    | none => some ((Binary.finite negative m q).convert .double).text
  | x => some x.text

end QueryJournal.Binary

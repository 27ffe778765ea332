/-!
# Rounding and digits

Integer quotients rounded to the nearest integer, ties to the even one, and
the decimal digits of integers.
-/

namespace QueryJournal.Number

/-- The integer nearest to `num / den`; of two equally near ones the even. -/
def divRound (num den : Nat) : Nat :=
  let q := num / den
  let r := num % den
  if 2 * r < den then q
  else if den < 2 * r then q + 1
  else q + q % 2

/-- The decimal digits of a number; zero has one. -/
def digits (n : Nat) : List Char :=
  Nat.toDigits 10 n

/-- How many decimal digits a number has. -/
def digitCount (n : Nat) : Nat :=
  (digits n).length

/-- The most digits of an integer that is read from text or written as text. -/
def longestText : Nat :=
  4300

/-- An integer in decimal, negative ones after a minus sign. -/
def text : Int → String
  | .ofNat n => String.ofList (digits n)
  | .negSucc n => String.ofList ('-' :: digits (n + 1))

/-- At least `width` decimal digits, filled with zeros on the left. -/
def padded (width n : Nat) : String :=
  let ds := digits n
  String.ofList (List.replicate (width - ds.length) '0' ++ ds)

/-- At least `width` characters of decimal text, filled with zeros between the
sign and the digits. -/
def paddedText (width : Nat) : Int → String
  | .ofNat n => padded width n
  | .negSucc n => "-" ++ padded (width - 1) (n + 1)

end QueryJournal.Number

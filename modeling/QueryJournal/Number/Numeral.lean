/-!
# Decimal numerals

The grammar of numbers written in decimal: digits, an optional fraction after
a point, an optional exponent. A numeral denotes its sign, an integer
coefficient and a power of ten.
-/

namespace QueryJournal.Number

/-- The number `± coefficient · 10 ^ exponent`. -/
structure Numeral where
  /-- Whether a minus sign stands in front. -/
  negative : Bool
  /-- All digits before the exponent, read as one integer. -/
  coefficient : Nat
  /-- The written exponent less the number of digits after the point. -/
  exponent : Int
  deriving DecidableEq

/-- An optional sign; the answer is whether the number is negative. -/
def takeSign : List Char → Bool × List Char
  | '-' :: rest => (true, rest)
  | '+' :: rest => (false, rest)
  | cs => (false, cs)

/-- The digits at the front and what follows them. -/
def takeDigits (cs : List Char) : List Char × List Char :=
  (cs.takeWhile Char.isDigit, cs.dropWhile Char.isDigit)

/-- The written exponent, if the rest of the text is one: nothing at all, or a
letter `e` with an optional sign and digits. -/
def exponent? : List Char → Option Int
  | [] => some 0
  | c :: rest =>
    if c = 'e' ∨ c = 'E' then
      let (negative, rest) := takeSign rest
      let (ds, rest) := takeDigits rest
      if ds.isEmpty ∨ !rest.isEmpty then none
      else
        let n : Int := Nat.ofDigitChars 10 ds 0
        some (if negative then -n else n)
    else none

/-- The digits after a point, if one comes first, and what follows. -/
def takeFraction : List Char → List Char × List Char
  | '.' :: rest => takeDigits rest
  | cs => ([], cs)

/-- Reads a whole numeral. Digits may be missing on one side of the point. -/
def Numeral.read? (cs : List Char) : Option Numeral :=
  let (negative, cs) := takeSign cs
  let (whole, cs) := takeDigits cs
  let (fraction, cs) := takeFraction cs
  if whole.isEmpty ∧ fraction.isEmpty then none
  else
    (exponent? cs).map fun e =>
      { negative
        coefficient := Nat.ofDigitChars 10 (whole ++ fraction) 0
        exponent := e - fraction.length }

end QueryJournal.Number

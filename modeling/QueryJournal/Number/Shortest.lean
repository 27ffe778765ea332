import QueryJournal.Number.Binary

/-!
# Decimal forms of floating-point numbers

Two ways to choose the digits: rounding to a given number of them, and the
fewest that read back as the same number. How the chosen digits are laid out
is a matter of a `Layout`.
-/

namespace QueryJournal

/-- The positive decimal `coefficient · 10 ^ exponent`. -/
structure Scientific where
  /-- The digits as one integer. -/
  coefficient : Nat
  /-- The place of the last digit. -/
  exponent : Int
  deriving DecidableEq

namespace Binary

/-- The exact value `m · 2 ^ q` in decimal. -/
def exactScientific (m : Nat) (q : Int) : Scientific :=
  let (c, places) := exactDecimal m q
  ⟨c, -(places : Int)⟩

/-- The value `m · 2 ^ q` rounded to `count` significant digits, ties to the
even digit. -/
def roundedTo (m : Nat) (q : Int) (count : Nat) : Scientific :=
  let x := exactScientific m q
  let excess := Number.digitCount x.coefficient - count
  ⟨Number.divRound x.coefficient (Nat.pow 10 excess), x.exponent + excess⟩

/-- Whether a decimal rounds to the positive number `m · 2 ^ q` of the
format. -/
def readsAs
    (f : Format) (m : Nat) (q : Int) (d : Scientific) : Bool :=
  ofDecimal f false d.coefficient d.exponent = .finite false m q

/-- The decimal of at most `count` digits that reads back as `m · 2 ^ q`, if
one of the value's two neighbours among them does: the nearer, of two equally
near ones the even. -/
def shortestAt?
    (f : Format) (m : Nat) (q : Int) (count : Nat) : Option Scientific :=
  let x := exactScientific m q
  let unit := Nat.pow 10 (Number.digitCount x.coefficient - count)
  let place := x.exponent + (Number.digitCount x.coefficient - count : Nat)
  let nearest := Number.divRound x.coefficient unit
  let other :=
    if nearest * unit ≤ x.coefficient then nearest + 1 else nearest - 1
  ([nearest, other].map fun c => Scientific.mk c place).find? (readsAs f m q)

/-- The fewest digits that read back as the number `m · 2 ^ q` of the format,
and of those the nearest to it. Seventeen always suffice. -/
def shortest
    (f : Format) (m : Nat) (q : Int) : Scientific :=
  ((List.range' 1 17).findSome? (shortestAt? f m q)).getD (exactScientific m q)

/-- How the digits of a number are laid out. -/
structure Layout where
  /-- The least number of digits before the point, negative for zeros after
  it, that is still written without an exponent. -/
  leastPoint : Int
  /-- The greatest number of digits before the point that is still written
  without an exponent. -/
  greatestPoint : Int
  /-- Whether a positive exponent has a plus sign. -/
  plusSign : Bool
  /-- The least number of digits of an exponent. -/
  exponentDigits : Nat

/-- Digits without the zeros at their end. -/
def significantDigits (n : Nat) : List Char :=
  ((Number.digits n).reverse.dropWhile (· == '0')).reverse

/-- The digits `ds` with the point after the first `point` of them; a missing
place is filled by a zero and there is always a digit on either side. -/
def withPoint (ds : List Char) (point : Int) : List Char :=
  if point ≤ 0 then '0' :: '.' :: List.replicate (-point).toNat '0' ++ ds
  else
    let whole := ds.take point.toNat
    let fraction := ds.drop point.toNat
    whole ++ List.replicate (point.toNat - whole.length) '0' ++ '.' ::
      (if fraction.isEmpty then ['0'] else fraction)

/-- The exponent after its letter, signed and padded as the layout says. -/
def Layout.exponentText (l : Layout) (e : Int) : String :=
  let sign := if e < 0 then "-" else if l.plusSign then "+" else ""
  "e" ++ sign ++ Number.padded l.exponentDigits e.natAbs

/-- The digits `ds` with the point after the first `point` of them, or with
one digit before the point and an exponent. -/
def Layout.write
    (l : Layout) (ds : List Char) (point : Int) : String :=
  if l.leastPoint ≤ point ∧ point ≤ l.greatestPoint then
    String.ofList (withPoint ds point)
  else
    let mantissa :=
      ds.take 1 ++ (if ds.length ≤ 1 then [] else '.' :: ds.drop 1)
    String.ofList mantissa ++ l.exponentText (point - 1)

/-- The shortest text of a finite number of the format. -/
def Layout.finiteText
    (l : Layout) (f : Format) (negative : Bool) (m : Nat) (q : Int) : String :=
  let sign := if negative then "-" else ""
  if m = 0 then sign ++ l.write ['0'] 1
  else
    let d := shortest f m q
    let point := Number.digitCount d.coefficient + d.exponent
    sign ++ l.write (significantDigits d.coefficient) point

/-- In readable text a number is written without an exponent from 0.0001 up to
sixteen digits before the point. -/
def readable : Layout :=
  ⟨-3, 16, true, 2⟩

/-- The readable text of a number. -/
def text : Binary → String
  | .nan _ => "nan"
  | .infinity negative => if negative then "-inf" else "inf"
  | .finite negative m q => readable.finiteText .double negative m q

end Binary

end QueryJournal

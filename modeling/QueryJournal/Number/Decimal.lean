import QueryJournal.Number.Binary
import QueryJournal.Number.Numeral
import QueryJournal.Text.Blank
import QueryJournal.Text.Digit

/-!
# Decimal numbers

Decimal floating-point numbers that keep their trailing zeros, with signed
infinities and NaNs, their scientific text, and rounding to a precision.
-/

namespace QueryJournal

/-- A decimal number. -/
inductive Decimal where
  /-- The number `± coefficient · 10 ^ exponent`. -/
  | finite (negative : Bool) (coefficient : Nat) (exponent : Int)
  /-- Larger in size than every finite number. -/
  | infinity (negative : Bool)
  /-- No number. A signalling one refuses to be used; the payload is printed
  unless it is zero. -/
  | nan (signalling negative : Bool) (payload : Nat)
  deriving DecidableEq

namespace Decimal

/-- An integer, written without places. -/
def ofInt (n : Int) : Decimal :=
  .finite (n < 0) n.natAbs 0

/-- The exact value of a floating-point number. -/
def ofBinary : Binary → Decimal
  | .nan negative => .nan false negative 0
  | .infinity negative => .infinity negative
  | .finite negative m q =>
    let (c, places) := Binary.exactDecimal m q
    .finite negative c (-(places : Int))

/-- The place of the first digit. -/
def adjusted (coefficient : Nat) (exponent : Int) : Int :=
  exponent + Number.digitCount coefficient - 1

/-- The number of digits before the point. -/
def wholeDigits (coefficient : Nat) (exponent : Int) : Nat :=
  if coefficient = 0 then 0 else (adjusted coefficient exponent + 1).toNat

/-- The number before the point. -/
def wholePart (coefficient : Nat) (exponent : Int) : Nat :=
  if wholeDigits coefficient exponent = 0 then 0
  else if exponent < 0 then coefficient / Nat.pow 10 (-exponent).toNat
  else coefficient * Nat.pow 10 exponent.toNat

/-- The most digits that memory holds of a number. -/
def greatestSize : Nat :=
  100000000000

/-- The digits of a coefficient with the point `point` places from the left. -/
def placed (ds : List Char) (point : Int) : List Char :=
  if point ≤ 0 then '0' :: '.' :: List.replicate (-point).toNat '0' ++ ds
  else if ds.length ≤ point.toNat then
    ds ++ List.replicate (point.toNat - ds.length) '0'
  else ds.take point.toNat ++ '.' :: ds.drop point.toNat

/-- The text of a finite number's size: without an exponent as long as no
zeros have to be filled in after the digits and at most five after the point. -/
def finiteText (coefficient : Nat) (exponent : Int) : String :=
  let ds := Number.digits coefficient
  let point := exponent + ds.length
  if exponent ≤ 0 ∧ -6 < point then String.ofList (placed ds point)
  else
    let sign := if point - 1 < 0 then "-" else "+"
    String.ofList (placed ds 1) ++ "E" ++ sign ++ Number.text (point - 1).natAbs

/-- The scientific text of a number. -/
def text : Decimal → String
  | .finite negative c e => (if negative then "-" else "") ++ finiteText c e
  | .infinity negative => (if negative then "-" else "") ++ "Infinity"
  | .nan signalling negative payload =>
    (if negative then "-" else "") ++ (if signalling then "sNaN" else "NaN") ++
      (if payload = 0 then "" else Number.text payload)

/-- Zero of either sign and any exponent. -/
def isZero : Decimal → Bool
  | .finite _ c _ => c == 0
  | _ => false

/-- Whether the exponents of an exact number can be represented. -/
def representable (coefficient : Nat) (exponent : Int) : Bool :=
  adjusted coefficient exponent ≤ 999999999999999999 &&
    -1999999999999999997 ≤ exponent

/-- The part of the text after the name of a special number. -/
def payload? (ds : List Char) : Option Nat :=
  if ds.all Char.isDigit then some (Nat.ofDigitChars 10 ds 0) else none

/-- Reads the size of a special number from letters in lower case. -/
def special? (negative : Bool) : List Char → Option Decimal
  | 'n' :: 'a' :: 'n' :: ds => (payload? ds).map (.nan false negative)
  | 's' :: 'n' :: 'a' :: 'n' :: ds => (payload? ds).map (.nan true negative)
  | ['i', 'n', 'f'] => some (.infinity negative)
  | ['i', 'n', 'f', 'i', 'n', 'i', 't', 'y'] => some (.infinity negative)
  | _ => none

/-- The characters of a number's text that count: blanks at the ends and all
underscores are left out, digits of other scripts stand for plain ones. -/
def normalise (s : String) : List Char :=
  ((Text.trimWhere Text.isBlank s.toList).filter (· ≠ '_')).map Text.plainDigit

/-- Reads a number from its text. -/
def ofText? (s : String) : Option Decimal :=
  let cs := normalise s
  let (negative, size) := Number.takeSign cs
  (special? negative (size.map Char.toLower)).or <| do
    let n ← Number.Numeral.read? cs
    if representable n.coefficient n.exponent then
      some (.finite n.negative n.coefficient n.exponent)
    else none

/-- The bounds of decimal arithmetic. -/
structure Context where
  /-- The most digits of a result. -/
  precision : Nat
  /-- The greatest place of a first digit; the least is its negative. -/
  greatest : Int

/-- Twenty-eight digits and exponents of six digits. -/
def standard : Context :=
  ⟨28, 999999⟩

/-- The place of the last digit of the numbers nearest to zero. -/
def Context.tiny (ctx : Context) : Int :=
  1 - ctx.greatest - ctx.precision

/-- The greatest exponent by which a number may be scaled. -/
def Context.scaleLimit (ctx : Context) : Int :=
  2 * (ctx.greatest + ctx.precision)

/-- The place of the last digit after rounding `coefficient · 10 ^ exponent`. -/
def Context.lastPlace
    (ctx : Context) (coefficient : Nat) (exponent : Int) : Int :=
  max exponent
    (max ctx.tiny (adjusted coefficient exponent - ctx.precision + 1))

/-- Rounds to the nearest number of the context, ties to the even digit; fails
where that has a first digit beyond the greatest place. -/
def Context.round?
    (ctx : Context) (negative : Bool) (coefficient : Nat) (exponent : Int) :
    Option Decimal :=
  if coefficient = 0 then
    some (.finite negative 0 (max ctx.tiny (min ctx.greatest exponent)))
  else if ctx.greatest < adjusted coefficient exponent then none
  else
    let place := ctx.lastPlace coefficient exponent
    let c := Number.divRound coefficient (Nat.pow 10 (place - exponent).toNat)
    let (c, place) :=
      if c = Nat.pow 10 ctx.precision then
        (Nat.pow 10 (ctx.precision - 1), place + 1)
      else (c, place)
    if ctx.greatest < adjusted c place then none
    else some (.finite negative c place)

/-- The floating-point number nearest to a decimal; a signalling NaN has
none. -/
def toBinary? (f : Binary.Format) : Decimal → Option Binary
  | .finite negative c e => some (Binary.ofDecimal f negative c e)
  | .infinity negative => some (.infinity negative)
  | .nan true _ _ => none
  | .nan false negative _ => some (.nan negative)

end Decimal

end QueryJournal

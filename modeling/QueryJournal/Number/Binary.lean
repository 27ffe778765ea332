import QueryJournal.Number.Rounding

/-!
# Binary floating-point numbers

Numbers of the form `± m · 2 ^ q`, signed infinities and signed NaNs, in the
two standard widths. Every number is rounded to the nearest one of its format,
ties to the even significand, in exact integer arithmetic.
-/

namespace QueryJournal

/-- A width of floating-point numbers. -/
structure Binary.Format where
  /-- Bits of the significand. -/
  precision : Nat
  /-- The power of two that all finite numbers are multiples of. -/
  leastExponent : Int
  /-- The power of two that the largest finite number is a multiple of. -/
  greatestExponent : Int
  /-- Bytes of the encoded number. -/
  width : Nat

/-- Four bytes with twenty-four bits of precision. -/
def Binary.Format.single : Binary.Format :=
  ⟨24, -149, 104, 4⟩

/-- Eight bytes with fifty-three bits of precision. -/
def Binary.Format.double : Binary.Format :=
  ⟨53, -1074, 971, 8⟩

/-- A floating-point number. A finite one of a format has either a significand
of full precision or the least exponent of the format. -/
inductive Binary where
  /-- No number. -/
  | nan (negative : Bool)
  /-- Larger in size than every finite number. -/
  | infinity (negative : Bool)
  /-- The number `± significand · 2 ^ exponent`. -/
  | finite (negative : Bool) (significand : Nat) (exponent : Int)
  deriving DecidableEq

namespace Binary

/-- The two terms of the fraction `num / den / 2 ^ q`. -/
def scaleDown (num den : Nat) (q : Int) : Nat × Nat :=
  (num * Nat.pow 2 (-q).toNat, den * Nat.pow 2 q.toNat)

/-- The exponent whose multiples have full precision near `num / den`, or the
least one of the format. -/
def Format.exponentNear
    (f : Format) (num den : Nat) : Int :=
  let guess : Int := num.log2 - den.log2 - f.precision
  let (n, d) := scaleDown num den guess
  max f.leastExponent
    (if n < Nat.pow 2 f.precision * d then guess else guess + 1)

/-- The number of the format nearest to `± num / den`. -/
def ofRatio
    (f : Format) (negative : Bool) (num den : Nat) : Binary :=
  if num = 0 then .finite negative 0 f.leastExponent
  else
    let q := f.exponentNear num den
    let (n, d) := scaleDown num den q
    let m := Number.divRound n d
    let (m, q) :=
      if m = Nat.pow 2 f.precision then
        (Nat.pow 2 (f.precision - 1), q + 1) else (m, q)
    if f.greatestExponent < q then .infinity negative
    else .finite negative m q

/-- The number of the format nearest to `± coefficient · 10 ^ exponent`. Sizes
that no format reaches are settled before the power of ten is formed. -/
def ofDecimal
    (f : Format) (negative : Bool) (coefficient : Nat)
    (exponent : Int) : Binary :=
  let magnitude := Number.digitCount coefficient + exponent
  if coefficient = 0 ∨ magnitude < -330 then .finite negative 0 f.leastExponent
  else if 310 < magnitude then .infinity negative
  else ofRatio f negative (coefficient * Nat.pow 10 exponent.toNat)
    (Nat.pow 10 (-exponent).toNat)

/-- The number of the format nearest to an integer. -/
def ofInt (f : Format) (n : Int) : Binary :=
  ofRatio f (n < 0) n.natAbs 1

/-- The number of another format nearest to this one. -/
def convert (f : Format) : Binary → Binary
  | .finite negative m q =>
    ofRatio f negative (m * Nat.pow 2 q.toNat) (Nat.pow 2 (-q).toNat)
  | x => x

/-- The two terms of the fraction `m · 2 ^ q`. -/
def fraction (m : Nat) (q : Int) : Nat × Nat :=
  (m * Nat.pow 2 q.toNat, Nat.pow 2 (-q).toNat)

/-- Whether the number is a zero of either sign. -/
def isZero : Binary → Bool
  | .finite _ m _ => m == 0
  | _ => false

/-- The exponent field of infinities and NaNs, one more than that of the
largest finite number. -/
def Format.topField (f : Format) : Nat :=
  (f.greatestExponent - f.leastExponent + 2).toNat

/-- The sign, the exponent field and the fraction field as one number. -/
def Format.assemble
    (f : Format) (negative : Bool) (field fraction : Nat) : Nat :=
  (if negative then Nat.pow 2 (8 * f.width - 1) else 0) +
    field * Nat.pow 2 (f.precision - 1) + fraction

/-- The encoded number. Of the NaNs the quiet one without payload is chosen. -/
def toBits (f : Format) : Binary → Nat
  | .nan negative =>
    f.assemble negative f.topField (Nat.pow 2 (f.precision - 2))
  | .infinity negative => f.assemble negative f.topField 0
  | .finite negative m q =>
    let hidden := Nat.pow 2 (f.precision - 1)
    if m < hidden then f.assemble negative 0 m
    else f.assemble negative (q - f.leastExponent + 1).toNat (m - hidden)

/-- The number that a code stands for; of a NaN only its sign is kept. -/
def ofBits (f : Format) (bits : Nat) : Binary :=
  let hidden := Nat.pow 2 (f.precision - 1)
  let negative := bits / Nat.pow 2 (8 * f.width - 1) % 2 = 1
  let field := bits % Nat.pow 2 (8 * f.width - 1) / hidden
  let fraction := bits % hidden
  if field = f.topField then
    if fraction = 0 then .infinity negative else .nan negative
  else if field = 0 then .finite negative fraction f.leastExponent
  else .finite negative (fraction + hidden) (f.leastExponent + field - 1)

/-- Halves `m` while it is even, at most `steps` times; the second answer is
the number of steps left. -/
def halve : Nat → Nat → Nat × Nat
  | m, 0 => (m, 0)
  | m, steps + 1 => if m % 2 = 0 then halve (m / 2) steps else (m, steps + 1)

/-- The exact value `m · 2 ^ q` as an integer coefficient and the least number
of decimal places that hold it. -/
def exactDecimal (m : Nat) (q : Int) : Nat × Nat :=
  let (m, places) := halve (m * Nat.pow 2 q.toNat) (-q).toNat
  (m * Nat.pow 5 places, places)

end Binary

end QueryJournal

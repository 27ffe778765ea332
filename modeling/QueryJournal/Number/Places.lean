import QueryJournal.Number.Shortest

/-!
# Numbers with given places

The size of a floating-point number with as many digits after the point, or as
many digits in all, as are asked for. It is rounded to the nearest number with
so many digits, ties to the even one.
-/

namespace QueryJournal.Binary

/-- Digits before and after a point. The point is written before nothing only if
it is to be kept. -/
def pointed (keep : Bool) (whole fraction : List Char) : List Char :=
  whole ++ if fraction.isEmpty && !keep then [] else '.' :: fraction

/-- An exponent with a sign and two digits at least. -/
def withExponent (mantissa : List Char) (e : Int) : List Char :=
  mantissa ++ (readable.exponentText e).toList

/-- The number `m · 2 ^ q` with some places after the point. -/
def fixed (keep : Bool) (places m : Nat) (q : Int) : List Char :=
  let (num, den) := fraction m q
  let ds := (Number.padded (places + 1)
    (Number.divRound (num * Nat.pow 10 places) den)).toList
  pointed keep (ds.take (ds.length - places)) (ds.drop (ds.length - places))

/-- Some digits of the number `m · 2 ^ q`, and the place of the first of
them. -/
def leading (count m : Nat) (q : Int) : List Char × Int :=
  let x := roundedTo m q count
  let ds := Number.digits x.coefficient
  ((ds ++ List.replicate count '0').take count, x.exponent + ds.length - 1)

/-- The number `m · 2 ^ q` with one digit before the point, some places after
it, and an exponent. -/
def scientific (keep : Bool) (places m : Nat) (q : Int) : List Char :=
  let (ds, place) := leading (places + 1) m q
  withExponent (pointed keep (ds.take 1) (ds.drop 1)) place

/-- The number `m · 2 ^ q` with some digits, and with an exponent only if it is
large or small. Zeros at the end are left out, unless they are to be kept. -/
def general (keep : Bool) (count m : Nat) (q : Int) : List Char :=
  let (ds, place) := leading (max count 1) m q
  let ds := if keep then ds else (ds.reverse.dropWhile (· == '0')).reverse
  if place < -4 ∨ (max count 1 : Nat) ≤ place then
    withExponent (pointed keep (ds.take 1) (ds.drop 1)) place
  else if place < 0 then
    pointed keep ['0'] (List.replicate (-place - 1).toNat '0' ++ ds)
  else
    let before := place.toNat + 1
    pointed keep (ds.take before ++ List.replicate (before - ds.length) '0')
      (ds.drop before)

end QueryJournal.Binary

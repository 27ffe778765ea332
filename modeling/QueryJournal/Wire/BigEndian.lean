/-!
# Integers as bytes

Bytes as digits to the base 256, most significant first, of natural numbers
and of integers in two's complement.
-/

namespace QueryJournal

/-- A row of bytes. -/
abbrev Bytes :=
  List UInt8

namespace BigEndian

/-- The number with the given digits. -/
def toNat (bytes : Bytes) : Nat :=
  bytes.foldl (fun n b => n * 256 + b.toNat) 0

/-- The `width` low digits of a number. -/
def ofNat : Nat → Nat → Bytes
  | 0, _ => []
  | width + 1, n => ofNat width (n / 256) ++ [UInt8.ofNat (n % 256)]

/-- The integer in two's complement; no bytes at all mean zero. -/
def toInt (bytes : Bytes) : Int :=
  let n := toNat bytes
  if 2 * n < Nat.pow 256 bytes.length ∨ bytes = [] then n
  else (n : Int) - Nat.pow 256 bytes.length

/-- The two's complement of an integer in `width` bytes. -/
def ofInt (width : Nat) (v : Int) : Bytes :=
  ofNat width (v % Nat.pow 256 width).toNat

/-- Whether an integer has a two's complement in `width` bytes. -/
def fits (width : Nat) (v : Int) : Bool :=
  -(Nat.pow 256 width : Int) ≤ 2 * v && 2 * v < Nat.pow 256 width

/-- The number of bits of an integer without its sign. -/
def bitLength (v : Int) : Nat :=
  if v = 0 then 0 else v.natAbs.log2 + 1

/-- The two's complement of any integer, in one byte more than the whole
bytes of its size. -/
def ofIntAny (v : Int) : Bytes :=
  ofInt (bitLength v / 8 + 1) v

end BigEndian

end QueryJournal

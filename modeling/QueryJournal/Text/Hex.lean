/-!
# Hexadecimal digits

Numbers and bytes written with sixteen digits, in lower case; digits are read
in either case.
-/

namespace QueryJournal.Text.Hex

/-- The last `width` hexadecimal digits of `n`, most significant first. -/
def digits : Nat → Nat → List Char
  | 0, _ => []
  | width + 1, n => digits width (n / 16) ++ [Nat.digitChar (n % 16)]

/-- Two digits for each byte. -/
def ofBytes (bytes : List UInt8) : String :=
  String.ofList (bytes.flatMap fun b => digits 2 b.toNat)

/-- The value of a digit of either case. -/
def value? (c : Char) : Option Nat :=
  if '0' ≤ c ∧ c ≤ '9' then some (c.toNat - '0'.toNat)
  else if 'a' ≤ c ∧ c ≤ 'f' then some (c.toNat - 'a'.toNat + 10)
  else if 'A' ≤ c ∧ c ≤ 'F' then some (c.toNat - 'A'.toNat + 10)
  else none

/-- The number that a row of digits continues from `start`; fails at the first
character that is no digit. -/
def read? : Nat → List Char → Option Nat
  | start, [] => some start
  | start, c :: rest => do
    let v ← value? c
    read? (start * 16 + v) rest

/-- Whether a character may stand between two bytes. -/
def isGap (c : Char) : Bool :=
  c == ' ' || (9 ≤ c.toNat && c.toNat ≤ 13)

/-- Reads pairs of digits as bytes. -/
def toBytes? : List Char → Option (List UInt8)
  | [] => some []
  | [c] => if isGap c then some [] else none
  | high :: low :: rest =>
    if isGap high then toBytes? (low :: rest)
    else do
      let h ← value? high
      let l ← value? low
      let bytes ← toBytes? rest
      return UInt8.ofNat (h * 16 + l) :: bytes

end QueryJournal.Text.Hex

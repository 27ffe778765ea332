import QueryJournal.Number.Rounding
import QueryJournal.Text.Hex
import QueryJournal.Wire.BigEndian

/-!
# Internet addresses

Addresses of versions 4 and 6 with their texts. A version 6 address may name
the zone that it belongs to, which is printed but not part of its bytes.
-/

namespace QueryJournal

/-- An internet address. -/
inductive Address where
  /-- A version 4 address of four bytes. -/
  | v4 (value : BitVec 32)
  /-- A version 6 address of sixteen bytes, possibly in a zone. -/
  | v6 (value : BitVec 128) (zone : Option String)
  deriving DecidableEq

namespace Address

/-- Four bytes are a version 4 address, sixteen one of version 6. -/
def ofBytes? (bytes : Bytes) : Option Address :=
  if bytes.length = 4 then some (.v4 (BitVec.ofNat 32 (BigEndian.toNat bytes)))
  else if bytes.length = 16 then
    some (.v6 (BitVec.ofNat 128 (BigEndian.toNat bytes)) none)
  else none

/-- The bytes of an address. -/
def toBytes : Address → Bytes
  | .v4 n => BigEndian.ofNat 4 n.toNat
  | .v6 n _ => BigEndian.ofNat 16 n.toNat

/-- The address with a number, of the earlier version that has it. -/
def ofInt? (n : Int) : Option Address :=
  if n < 0 then none
  else if n < Nat.pow 2 32 then some (.v4 (BitVec.ofNat 32 n.toNat))
  else if n < Nat.pow 2 128 then some (.v6 (BitVec.ofNat 128 n.toNat) none)
  else none

/-- The sixteen-bit groups of pairs of bytes. -/
def groups : Bytes → List Nat
  | a :: b :: rest => (a.toNat * 256 + b.toNat) :: groups rest
  | _ => []

/-- The pairs of bytes of sixteen-bit groups. -/
def bytesOfGroups (gs : List Nat) : Bytes :=
  gs.flatMap (BigEndian.ofNat 2)

/-- The length of the run of zeros at the front. -/
def zeroRun (gs : List Nat) : Nat :=
  (gs.takeWhile (· == 0)).length

/-- The start and the length of the longest run of zeros, the first of several
equally long ones. -/
def longestZeroRun : List Nat → Nat × Nat
  | [] => (0, 0)
  | g :: rest =>
    let (start, length) := longestZeroRun rest
    let here := zeroRun (g :: rest)
    if length ≤ here then (0, here) else (start + 1, length)

/-- Groups in hexadecimal without leading zeros, separated by colons. -/
def groupsText (gs : List Nat) : String :=
  ":".intercalate (gs.map fun g => String.ofList (Nat.toDigits 16 g))

/-- Groups with the longest run of at least two zeros left out. -/
def compressedText (gs : List Nat) : String :=
  let (start, length) := longestZeroRun gs
  if length < 2 then groupsText gs
  else groupsText (gs.take start) ++ "::" ++
    groupsText (gs.drop (start + length))

/-- Bytes in decimal, separated by points. -/
def octetsText (bytes : Bytes) : String :=
  ".".intercalate (bytes.map fun b => String.ofList (Number.digits b.toNat))

/-- The text of an address. -/
def text : Address → String
  | .v4 n => octetsText (BigEndian.ofNat 4 n.toNat)
  | .v6 n zone =>
    compressedText (groups (BigEndian.ofNat 16 n.toNat)) ++
      (zone.map ("%" ++ ·)).getD ""

/-- Splits at every occurrence of a character. -/
def splitAt (separator : Char) : List Char → List (List Char)
  | [] => [[]]
  | c :: rest =>
    if c = separator then [] :: splitAt separator rest
    else
      match splitAt separator rest with
      | [] => [[c]]
      | part :: parts => (c :: part) :: parts

/-- Reads a byte: one to three plain digits without a leading zero. -/
def octet? (cs : List Char) : Option UInt8 :=
  if cs.isEmpty ∨ 3 < cs.length ∨ !cs.all Char.isDigit then none
  else if cs.head? = some '0' ∧ cs ≠ ['0'] then none
  else
    let n := Nat.ofDigitChars 10 cs 0
    if n < 256 then some (UInt8.ofNat n) else none

/-- Reads four bytes separated by points. -/
def octets? (cs : List Char) : Option Bytes := do
  let parts := splitAt '.' cs
  if parts.length ≠ 4 then none else parts.mapM octet?

/-- Reads a group of one to four hexadecimal digits. -/
def group? (cs : List Char) : Option Nat :=
  if cs.isEmpty ∨ 4 < cs.length then none else Text.Hex.read? 0 cs

/-- Reads the groups of a part; where `tail` says so the last of them may be a
version 4 address. No text at all has no groups. -/
def groups? (tail : Bool) (parts : List (List Char)) : Option (List Nat) :=
  match parts.reverse with
  | [] => some []
  | [[]] => some []
  | last :: before =>
    if tail ∧ '.' ∈ last then do
      let bytes ← octets? last
      let gs ← before.reverse.mapM group?
      return gs ++ groups bytes
    else parts.mapM group?

/-- The parts before and after the first empty part that has parts on both of
its sides. The first part may be empty only if it is the whole left side. -/
def splitGap? : List (List Char) → Option (List (List Char) × List (List Char))
  | [] => none
  | first :: rest =>
    match rest.dropLast.findIdx? List.isEmpty with
    | some i => some (first :: rest.take i, rest.drop (i + 1))
    | none => none

/-- Reads the eight groups of an address; two colons in a row stand for the
groups that are missing, at least one. -/
def allGroups? (cs : List Char) : Option (List Nat) :=
  let parts := splitAt ':' cs
  match splitGap? parts with
  | none =>
    do
      let gs ← groups? true parts
      if gs.length = 8 then some gs else none
  | some (left, right) => do
    let gs ← groups? false left
    let hs ← groups? true right
    let missing := 8 - (gs.length + hs.length)
    if missing = 0 then none
    else some (gs ++ List.replicate missing 0 ++ hs)

/-- Splits off a zone, which is not empty and holds no second percent sign. -/
def splitZone? (cs : List Char) : Option (List Char × Option String) :=
  let front := cs.takeWhile (· ≠ '%')
  match cs.dropWhile (· ≠ '%') with
  | [] => some (front, none)
  | _ :: zone =>
    if zone.isEmpty ∨ '%' ∈ zone then none
    else some (front, some (String.ofList zone))

/-- Reads a version 6 address. -/
def v6? (cs : List Char) : Option Address := do
  let (front, zone) ← splitZone? cs
  let gs ← allGroups? front
  return .v6 (BitVec.ofNat 128 (BigEndian.toNat (bytesOfGroups gs))) zone

/-- Reads an address of either version. -/
def ofText? (s : String) : Option Address :=
  let cs := s.toList
  if '/' ∈ cs then none
  else
    match octets? cs with
    | some bytes => some (.v4 (BitVec.ofNat 32 (BigEndian.toNat bytes)))
    | none => v6? cs

end Address

end QueryJournal

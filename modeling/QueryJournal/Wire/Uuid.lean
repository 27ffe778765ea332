import QueryJournal.Text.Blank
import QueryJournal.Text.Digit
import QueryJournal.Text.Hex
import QueryJournal.Wire.BigEndian

/-!
# UUIDs

Numbers of 128 bits, printed as thirty-two hexadecimal digits in five groups.
Reading is lenient: scheme names, braces and dashes are left out, and what
remains may be any hexadecimal integer of thirty-two characters.
-/

namespace QueryJournal

/-- A number of 128 bits. -/
structure Uuid where
  /-- The number. -/
  value : BitVec 128
  deriving DecidableEq

namespace Uuid

/-- Sixteen bytes as a number. -/
def ofBytes? (bytes : Bytes) : Option Uuid :=
  if bytes.length = 16 then
    some ⟨BitVec.ofNat 128 (BigEndian.toNat bytes)⟩ else none

/-- The number as sixteen bytes. -/
def toBytes (u : Uuid) : Bytes :=
  BigEndian.ofNat 16 u.value.toNat

/-- Groups of eight, four, four, four and twelve digits. -/
def text (u : Uuid) : String :=
  let ds := Text.Hex.digits 32 u.value.toNat
  String.ofList <|
    ds.take 8 ++ '-' :: (ds.drop 8).take 4 ++ '-' :: (ds.drop 12).take 4 ++
      '-' :: (ds.drop 16).take 4 ++ '-' :: ds.drop 20

/-- Leaves out every occurrence of a word, read from the left; the first number
counts the characters of a found one that are still to be passed. -/
def withoutFrom (word : List Char) : Nat → List Char → List Char
  | _, [] => []
  | skip + 1, _ :: rest => withoutFrom word skip rest
  | 0, c :: rest =>
    if word.isPrefixOf (c :: rest) then withoutFrom word (word.length - 1) rest
    else c :: withoutFrom word 0 rest

/-- Leaves out every occurrence of a word. -/
def without (word : String) (cs : List Char) : List Char :=
  withoutFrom word.toList 0 cs

/-- Digits of which each may have one underscore in front. -/
def readSpaced? : Nat → List Char → Option Nat
  | n, [] => some n
  | n, '_' :: c :: rest => do
    let v ← Text.Hex.value? c
    readSpaced? (n * 16 + v) rest
  | n, c :: rest => do
    let v ← Text.Hex.value? c
    readSpaced? (n * 16 + v) rest

/-- Digits after an optional `0x`; only after that may the first one have an
underscore in front. -/
def readUnsigned? : List Char → Option Nat
  | '0' :: 'x' :: c :: rest => readSpaced? 0 (c :: rest)
  | '0' :: 'X' :: c :: rest => readSpaced? 0 (c :: rest)
  | c :: rest => do
    let v ← Text.Hex.value? c
    readSpaced? v rest
  | [] => none

/-- Reads a hexadecimal integer: blanks around it, an optional sign, digits of
any script. -/
def readInteger? (cs : List Char) : Option Int :=
  match Text.trimWhere Text.isNumberBlank (cs.map Text.plainDigit) with
  | '-' :: rest => (readUnsigned? rest).map fun n => -(n : Int)
  | '+' :: rest => (readUnsigned? rest).map fun n => (n : Int)
  | cs => (readUnsigned? cs).map fun n => (n : Int)

/-- Reads a number of 128 bits from its text. -/
def ofText? (s : String) : Option Uuid := do
  let cs := without "uuid:" (without "urn:" s.toList)
  let cs :=
    (Text.trimWhere (fun c => c == '\x7b' || c == '\x7d') cs).filter (· ≠ '-')
  if cs.length ≠ 32 then none
  else
    let n ← readInteger? cs
    if 0 ≤ n ∧ n < Nat.pow 2 128 then some ⟨BitVec.ofNat 128 n.toNat⟩ else none

end Uuid

end QueryJournal

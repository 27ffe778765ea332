/-!
# UTF-8

Text as bytes. Besides the strict reading, which refuses any malformed
sequence, `symbols` reads bytes leniently: each byte that belongs to no
well-formed sequence stays visible as a gap.
-/

namespace QueryJournal.Text.Utf8

/-- The bytes of a row of characters. -/
def encode (cs : List Char) : List UInt8 :=
  cs.flatMap String.utf8EncodeChar

/-- A byte that continues a sequence gives its six low bits. -/
def tail? (b : UInt8) : Option Nat :=
  if 0x80 ≤ b ∧ b ≤ 0xBF then some (b.toNat - 0x80) else none

/-- The character of a code point, which must be at least `least` and no
surrogate. -/
def scalar? (least n : Nat) : Option Char :=
  if h : n.isValidChar ∧ least ≤ n then some (Char.ofNatAux n h.1) else none

/-- The character that starts at the byte `a`, and the number of bytes of
`rest` that belong to it. -/
def charAt? (a : UInt8) (rest : List UInt8) : Option (Char × Nat) :=
  if a < 0x80 then some (Char.ofNat a.toNat, 0)
  else if 0xC2 ≤ a ∧ a ≤ 0xDF then
    match rest with
    | b :: _ => do
      let b ← tail? b
      let c ← scalar? 0x80 ((a.toNat - 0xC0) * 64 + b)
      return (c, 1)
    | _ => none
  else if 0xE0 ≤ a ∧ a ≤ 0xEF then
    match rest with
    | b :: c :: _ => do
      let b ← tail? b
      let c ← tail? c
      let c ← scalar? 0x800 (((a.toNat - 0xE0) * 64 + b) * 64 + c)
      return (c, 2)
    | _ => none
  else if 0xF0 ≤ a ∧ a ≤ 0xF4 then
    match rest with
    | b :: c :: d :: _ => do
      let b ← tail? b
      let c ← tail? c
      let d ← tail? d
      let c ← scalar? 0x10000 ((((a.toNat - 0xF0) * 64 + b) * 64 + c) * 64 + d)
      return (c, 3)
    | _ => none
  else none

/-- Reads bytes leniently after skipping those that belong to the character
before them. -/
def symbolsAfter : Nat → List UInt8 → List (Option Char)
  | _, [] => []
  | skip + 1, _ :: rest => symbolsAfter skip rest
  | 0, a :: rest =>
    match charAt? a rest with
    | some (c, skip) => some c :: symbolsAfter skip rest
    | none => none :: symbolsAfter 0 rest

/-- The characters of the bytes, with a gap for each malformed byte. -/
def symbols (bytes : List UInt8) : List (Option Char) :=
  symbolsAfter 0 bytes

/-- The characters of well-formed bytes. -/
def decode? (bytes : List UInt8) : Option (List Char) :=
  (symbols bytes).mapM id

end QueryJournal.Text.Utf8

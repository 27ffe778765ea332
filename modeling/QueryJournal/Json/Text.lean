import QueryJournal.Text.Hex
import QueryJournal.Text.Utf8

/-!
# Pieces of JSON text

JSON is read from symbols: characters, and gaps for bytes that belong to none.
A gap may stand inside a string only, and such a string is no text. This
module reads strings and the digits of numbers.
-/

namespace QueryJournal.Json

/-- Symbols that are still to be read. -/
abbrev Symbols :=
  List (Option Char)

/-- Spaces, tabs and line ends may stand between the pieces. -/
def isBlank (c : Char) : Bool :=
  c == ' ' || c == '\t' || c == '\n' || c == '\r'

/-- The symbols after the blanks at the start. -/
def skipBlanks : Symbols → Symbols
  | some c :: rest => if isBlank c then skipBlanks rest else some c :: rest
  | rest => rest

/-- The symbols after a word, if it stands at the start. -/
def dropWord? : List Char → Symbols → Option Symbols
  | [], rest => some rest
  | c :: cs, some d :: rest => if c = d then dropWord? cs rest else none
  | _ :: _, _ => none

/-- The decimal digits at the start, and the symbols after them. -/
def takeDigits : Symbols → List Char × Symbols
  | some c :: rest =>
    if c.isDigit then
      let (ds, rest) := takeDigits rest
      (c :: ds, rest)
    else ([], some c :: rest)
  | rest => ([], rest)

/-- A part of a string. -/
inductive Part where
  /-- A symbol, written as it is or by a short escape. -/
  | symbol (s : Option Char)
  /-- A number of sixteen bits written by four digits. -/
  | code (n : Nat)

/-- The letters of short escapes with the characters that they stand for. -/
def shortEscapes : List (Char × Char) :=
  [('"', '"'), ('\\', '\\'), ('/', '/'), ('b', '\x08'),
    ('f', '\x0c'), ('n', '\n'), ('r', '\r'), ('t', '\t')]

/-- The character that a short escape stands for. -/
def shortEscape? (letter : Char) : Option Char :=
  shortEscapes.lookup letter

/-- The parts of a string up to its closing quote, and the symbols after it. -/
def takeParts? : Symbols → Option (List Part × Symbols)
  | some '"' :: rest => some ([], rest)
  | some '\\' :: some 'u' :: some a :: some b :: some c :: some d :: rest => do
    let n ← Text.Hex.read? 0 [a, b, c, d]
    let (parts, rest) ← takeParts? rest
    return (.code n :: parts, rest)
  | some '\\' :: some c :: rest => do
    let c ← shortEscape? c
    let (parts, rest) ← takeParts? rest
    return (.symbol (some c) :: parts, rest)
  | some '\\' :: _ => none
  | some c :: rest =>
    if c.toNat < 0x20 then none
    else do
      let (parts, rest) ← takeParts? rest
      return (.symbol (some c) :: parts, rest)
  | none :: rest => do
    let (parts, rest) ← takeParts? rest
    return (.symbol none :: parts, rest)
  | [] => none

/-- Whether a number is the first half of a pair. -/
def isHigh (n : Nat) : Bool :=
  0xD800 ≤ n && n < 0xDC00

/-- Whether a number is the second half of a pair. -/
def isLow (n : Nat) : Bool :=
  0xDC00 ≤ n && n < 0xE000

/-- The character of a pair. -/
def joinPair (high low : Nat) : Char :=
  Char.ofNat (0x10000 + (high - 0xD800) * 0x400 + (low - 0xDC00))

/-- The symbols of a string. The two halves of a pair make one character, and
halves on their own are refused. -/
def joinParts? : List Part → Option Symbols
  | [] => some []
  | .symbol s :: parts => (joinParts? parts).map (s :: ·)
  | .code n :: .code m :: parts =>
    if isHigh n then
      if isLow m then (joinParts? parts).map
        (some (joinPair n m) :: ·) else none
    else if isLow n then none
    else (joinParts? (.code m :: parts)).map (some (Char.ofNat n) :: ·)
  | .code n :: parts =>
    if isHigh n || isLow n then none
    else (joinParts? parts).map (some (Char.ofNat n) :: ·)

end QueryJournal.Json

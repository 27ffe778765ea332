import QueryJournal.Number.Places
import QueryJournal.Value.Item
import QueryJournal.Value.Number

/-!
# Messages

A message may hold placeholders for its arguments, which are given as one value.
They are filled only when that value counts as something, and then every
argument must be used. A container that stands by itself is the one that may be
left over, and a mapping may also be asked for what is under its keys.

A placeholder is a percent sign, a key in parentheses, flags, a width, a
precision, a letter that is ignored, and a letter for how the argument is
written; all but the first and the last may be missing. A message is read
character by character.
-/

namespace QueryJournal.Message

/-- How a placeholder lays out its argument. -/
structure Layout where
  /-- Blanks are filled in after the argument and not before it. -/
  left : Bool
  /-- Numbers that are not negative get a plus sign. -/
  plus : Bool
  /-- Numbers that are not negative get a blank for a sign. -/
  blank : Bool
  /-- Numbers show their base or their point. -/
  alternate : Bool
  /-- Numbers are filled up with zeros. -/
  zero : Bool
  /-- The least number of characters. -/
  width : Nat
  /-- How many characters of a text are kept, how many digits an integer has at
  least, or how many places a number has. -/
  precision : Option Nat

/-- How an argument is laid out if nothing is said about it. -/
def Layout.standard : Layout :=
  ⟨false, false, false, false, false, 0, none⟩

/-- The layout with a flag. -/
def Layout.flagged? (l : Layout) : Char → Option Layout
  | '-' => some { l with left := true }
  | '+' => some { l with plus := true }
  | ' ' => some { l with blank := true }
  | '#' => some { l with alternate := true }
  | '0' => some { l with zero := true }
  | _ => none

/-- The greatest width. -/
def greatestWidth : Nat :=
  Nat.pow 2 63 - 1

/-- The greatest precision. -/
def greatestPrecision : Nat :=
  Nat.pow 2 31 - 1

/-- A number with another digit, within a bound. -/
def grow (bound n : Nat) (c : Char) : Except Failure Nat :=
  let n := n * 10 + (c.toNat - '0'.toNat)
  if bound < n then .error .brokenPlaceholder else .ok n

/-- The integer that an argument gives for the layout, within a bound. -/
def given (bound : Nat) (v : Value) : Except Failure Int :=
  match v.asInt? with
  | none => .error .argumentMismatch
  | some n =>
    if n < -(bound : Int) - 1 ∨ bound < n then .error .outOfRange else .ok n

/-- The parts of an argument that is written. -/
structure Parts where
  /-- Whether it is a number, and if so, whether that is negative. -/
  negative? : Option Bool
  /-- What shows its base. -/
  base : List Char
  /-- Its text. -/
  body : List Char

/-- The sign of an argument that is a number. -/
def Layout.sign (l : Layout) : Option Bool → List Char
  | some true => ['-']
  | some false => if l.plus then ['+'] else if l.blank then [' '] else []
  | none => []

/-- An argument with what is filled in around it. -/
def Layout.pad (l : Layout) (p : Parts) : List Char :=
  let lead := l.sign p.negative? ++ p.base
  let fill (c : Char) := List.replicate (l.width - (lead ++ p.body).length) c
  if l.left then lead ++ p.body ++ fill ' '
  else if l.zero && p.negative?.isSome then lead ++ fill '0' ++ p.body
  else fill ' ' ++ lead ++ p.body

/-- A text, cut to the precision. -/
def Layout.textParts (l : Layout) (s : String) : Parts :=
  ⟨none, [], l.precision.elim s.toList s.toList.take⟩

/-- A literal in which characters that are not ASCII are escaped. -/
def ascii (s : String) : String :=
  String.ofList (s.toList.flatMap fun c =>
    if c.toNat < 128 then [c] else Text.escapeCode c.toNat)

/-- An integer in a base. -/
def Layout.integerParts
    (l : Layout) (base : Nat) (mark : Char) (n : Int) : Except Failure Parts :=
  let ds := Nat.toDigits base n.natAbs
  if base = 10 ∧ Number.longestText < ds.length then .error .tooManyDigits
  else if greatestPrecision - 3 < l.precision.getD 0 then .error .outOfRange
  else
    let filled := List.replicate (l.precision.getD 0 - ds.length) '0' ++ ds
    .ok ⟨some (n < 0),
      if base ≠ 10 ∧ l.alternate then ['0', mark] else [], filled⟩

/-- A floating-point number, where `write` writes finite ones with some
places. -/
def Layout.floatParts
    (l : Layout) (write : Bool → Nat → Nat → Int → List Char) : Binary → Parts
  | .nan _ => ⟨some false, [], "nan".toList⟩
  | .infinity negative => ⟨some negative, [], "inf".toList⟩
  | .finite negative m q =>
    ⟨some negative, [], write l.alternate (l.precision.getD 6) m q⟩

/-- Parts in capital letters. -/
def Parts.upper (p : Parts) : Parts :=
  ⟨p.negative?, p.base.map Char.toUpper, p.body.map Char.toUpper⟩

/-- A single character: a text that is one, or the one with a number.
Surrogates, which are no characters of a text, are refused like numbers that are
too large. -/
def character : Value → Except Failure Char
  | .text s =>
    match s.toList with
    | [c] => .ok c
    | _ => .error .argumentMismatch
  | v =>
    match v.asInt? with
    | none => .error .argumentMismatch
    | some n =>
      if n < 0 ∨ !n.toNat.isValidChar then .error .outOfRange
      else .ok (Char.ofNat n.toNat)

/-- The integer that an argument in a base other than ten must be. -/
def exactInteger (v : Value) : Except Failure Int :=
  match v.asInt? with
  | some n => .ok n
  | none => .error .argumentMismatch

/-- The parts of an argument at a placeholder that ends with a letter. -/
def Layout.parts (l : Layout) (letter : Char) (v : Value) :
    Except Failure Parts :=
  match letter with
  | 's' => return l.textParts (← v.plain.orFail)
  | 'r' => return l.textParts (← v.literal.orFail)
  | 'a' => return l.textParts (ascii (← v.literal.orFail))
  | 'd' | 'i' | 'u' => do l.integerParts 10 'd' (← v.whole)
  | 'o' => do l.integerParts 8 'o' (← exactInteger v)
  | 'x' => do l.integerParts 16 'x' (← exactInteger v)
  | 'X' => do return (← l.integerParts 16 'x' (← exactInteger v)).upper
  | 'e' => return l.floatParts Binary.scientific (← v.real)
  | 'E' => return (l.floatParts Binary.scientific (← v.real)).upper
  | 'f' => return l.floatParts Binary.fixed (← v.real)
  | 'F' => return (l.floatParts Binary.fixed (← v.real)).upper
  | 'g' => return l.floatParts Binary.general (← v.real)
  | 'G' => return (l.floatParts Binary.general (← v.real)).upper
  | 'c' => return ⟨none, [], [← character v]⟩
  | _ => .error .brokenPlaceholder

/-- How much of a placeholder has been read. -/
inductive Progress where
  /-- The percent sign. -/
  | opened
  /-- A part of the key, inside of some parentheses. -/
  | key (depth : Nat) (name : List Char)
  /-- The key, and some flags. -/
  | flags
  /-- Digits of the width. -/
  | width
  /-- The width, which was an argument. -/
  | givenWidth
  /-- The point before the precision. -/
  | point
  /-- Digits of the precision. -/
  | precision
  /-- The precision, which was an argument. -/
  | givenPrecision
  /-- The letter that is ignored. -/
  | size

/-- A message that has been read in part. -/
structure State where
  /-- What has been written. -/
  written : List Char
  /-- The arguments that are not used yet. -/
  args : List Value
  /-- The value whose keys may be asked for. -/
  source : Option Value
  /-- The placeholder that is being read. -/
  reading : Option (Progress × Layout)

namespace State

/-- The next argument, and the state after it. -/
def next (s : State) : Except Failure (Value × State) :=
  match s.args with
  | v :: args => .ok (v, { s with args })
  | [] => .error .argumentMismatch

/-- Goes on with a placeholder. -/
def reads (s : State) (p : Progress) (l : Layout) : State :=
  { s with reading := some (p, l) }

/-- Leaves the placeholder with something written. -/
def writes (s : State) (cs : List Char) : State :=
  { s with written := s.written ++ cs, reading := none }

/-- The value under a key. Only mappings have keys that are texts. -/
def lookup (s : State) (name : String) : Except Failure Value :=
  match s.source with
  | some (.mapping entries) =>
    match Value.lookup? (.text name) entries with
    | some v => .ok v
    | none => .error (.unknownName name)
  | _ => .error .argumentMismatch

/-- Reads a character of a key. -/
def readKey
    (s : State) (depth : Nat) (name : List Char) (l : Layout) (c : Char) :
    Except Failure State :=
  if c = '(' then .ok (s.reads (.key (depth + 1) (name ++ [c])) l)
  else if c = ')' then
    match depth with
    | 0 => do
      let v ← s.lookup (String.ofList name)
      return { s with args := [v] }.reads .flags l
    | depth + 1 => .ok (s.reads (.key depth (name ++ [c])) l)
  else .ok (s.reads (.key depth (name ++ [c])) l)

/-- Reads the letter at the end of a placeholder, and writes the next
argument. -/
def readLetter (s : State) (l : Layout) (c : Char) : Except Failure State := do
  let (v, s) ← s.next
  return s.writes (l.pad (← l.parts c v))

/-- Reads the letter that is ignored, or goes on. -/
def readSize (s : State) (l : Layout) (c : Char) : Except Failure State :=
  if c = 'h' ∨ c = 'l' ∨ c = 'L' then .ok (s.reads .size l)
  else s.readLetter l c

/-- Reads the point before a precision, or goes on. -/
def readPoint (s : State) (l : Layout) (c : Char) : Except Failure State :=
  if c = '.' then .ok (s.reads .point { l with precision := some 0 })
  else s.readSize l c

/-- Reads a digit of the width, or goes on. -/
def readWidth (s : State) (l : Layout) (c : Char) : Except Failure State :=
  if c.isDigit then do
    return s.reads .width { l with width := ← grow greatestWidth l.width c }
  else s.readPoint l c

/-- Reads a flag or the start of the width, or goes on. -/
def readFlag (s : State) (l : Layout) (c : Char) : Except Failure State :=
  match l.flagged? c with
  | some l => .ok (s.reads .flags l)
  | none =>
    if c = '*' then do
      let (v, s) ← s.next
      let n ← given greatestWidth v
      return s.reads .givenWidth
        { l with left := l.left || n < 0, width := n.natAbs }
    else s.readWidth l c

/-- Reads a digit of the precision, or goes on. -/
def readPrecision (s : State) (l : Layout) (c : Char) : Except Failure State :=
  if c.isDigit then do
    let n ← grow greatestPrecision (l.precision.getD 0) c
    return s.reads .precision { l with precision := some n }
  else s.readSize l c

/-- Reads the start of the precision. -/
def readPlaces (s : State) (l : Layout) (c : Char) : Except Failure State :=
  if c = '*' then do
    let (v, s) ← s.next
    let n ← given greatestPrecision v
    return s.reads .givenPrecision { l with precision := some n.toNat }
  else s.readPrecision l c

/-- Reads a character after a percent sign. Two percent signs stand for one. -/
def readOpened (s : State) (l : Layout) (c : Char) : Except Failure State :=
  if c = '%' then .ok (s.writes ['%'])
  else if c = '(' then
    if s.source.isSome then .ok (s.reads (.key 0 []) l)
    else .error .argumentMismatch
  else s.readFlag l c

/-- Reads a character. -/
def step (s : State) (c : Char) : Except Failure State :=
  match s.reading with
  | none => .ok (if c = '%' then s.reads .opened .standard else s.writes [c])
  | some (.opened, l) => s.readOpened l c
  | some (.key depth name, l) => s.readKey depth name l c
  | some (.flags, l) => s.readFlag l c
  | some (.width, l) => s.readWidth l c
  | some (.givenWidth, l) => s.readPoint l c
  | some (.point, l) => s.readPlaces l c
  | some (.precision, l) => s.readPrecision l c
  | some (.givenPrecision, l) => s.readSize l c
  | some (.size, l) => s.readLetter l c

/-- Reads some characters. -/
def readAll (s : State) (cs : List Char) : Except Failure State :=
  cs.foldlM step s

/-- What has been written, if no placeholder and no argument is left. -/
def finish (s : State) : Except Failure String :=
  if s.reading.isSome then .error .brokenPlaceholder
  else if s.args.isEmpty ∨ s.source.isSome then .ok (String.ofList s.written)
  else .error .argumentMismatch

end State

/-- Some arguments as one value: a row, or a single container with entries by
itself. -/
def pack : List Value → Value
  | [.mapping (entry :: entries)] => .mapping (entry :: entries)
  | args => .tuple args

/-- The arguments that a value holds: those of a row, or the value itself. -/
def unpack : Value → List Value
  | .tuple args => args
  | v => [v]

/-- Whether a value may be asked for something under a key, and may be left
over. -/
def isKeyed : Value → Bool
  | .mapping _ | .list _ | .bytes _ => true
  | _ => false

/-- Before a message is read. -/
def start (args : Value) : State :=
  ⟨[], unpack args, if isKeyed args then some args else none, none⟩

/-- The message with its arguments. -/
def fill (message : String) (args : Value) : Except Failure String :=
  if !args.isTruthy then .ok message
  else do (← (start args).readAll message.toList).finish

end QueryJournal.Message

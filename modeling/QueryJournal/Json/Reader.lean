import QueryJournal.Json.Engine
import QueryJournal.Json.Text
import QueryJournal.Value.Key

/-!
# Reading JSON

Values from JSON text. Integers of up to 4300 characters stay integers, numbers
with a fraction or an exponent become floating-point numbers and must be finite.
A key that is repeated keeps its first place and its last value. Lists and
objects may be nested up to a depth.
-/

namespace QueryJournal.Json

/-- What is read, unless there is none. -/
def expect {α : Type} : Option α → Except Fault α
  | some a => .ok a
  | none => .error .refused

/-- A string whose opening quote has been read. -/
def readString (s : Symbols) : Except Fault (String × Symbols) := do
  let (parts, rest) ← expect (takeParts? s)
  let symbols ← expect (joinParts? parts)
  match symbols.mapM id with
  | some cs => return (String.ofList cs, rest)
  | none => throw (.thrown .malformedText)

/-- The digits before the point: a zero, or digits that do not start with
one. -/
def takeWhole? (s : Symbols) : Option (List Char × Symbols) :=
  match takeDigits s with
  | ('0' :: more, rest) => some (['0'], more.map some ++ rest)
  | ([], _) => none
  | (ds, rest) => some (ds, rest)

/-- The digits after the point, if there is one. -/
def takeFraction? : Symbols → Option (Option (List Char) × Symbols)
  | some '.' :: rest =>
    match takeDigits rest with
    | ([], _) => none
    | (ds, rest) => some (some ds, rest)
  | rest => some (none, rest)

/-- The sign of an exponent: whether it is negative. -/
def takeSign : Symbols → Bool × Symbols
  | some '-' :: rest => (true, rest)
  | some '+' :: rest => (false, rest)
  | rest => (false, rest)

/-- The exponent, if there is one. -/
def takeExponent? : Symbols → Option (Option Int × Symbols)
  | some 'e' :: rest | some 'E' :: rest =>
    let (negative, rest) := takeSign rest
    match takeDigits rest with
    | ([], _) => none
    | (ds, rest) =>
      let n : Int := Nat.ofDigitChars 10 ds 0
      some (some (if negative then -n else n), rest)
  | rest => some (none, rest)

/-- A number whose sign has been read. -/
def readNumber (negative : Bool) (s : Symbols) :
    Except Fault (Value × Symbols) := do
  let (whole, rest) ← expect (takeWhole? s)
  let (fraction, rest) ← expect (takeFraction? rest)
  let (exponent, rest) ← expect (takeExponent? rest)
  if fraction.isNone ∧ exponent.isNone then
    if Number.longestText < whole.length + (if negative then 1 else 0) then
      throw .refused
    let n : Int := Nat.ofDigitChars 10 whole 0
    return (.int (if negative then -n else n), rest)
  else
    let places := fraction.getD []
    let coefficient := Nat.ofDigitChars 10 (whole ++ places) 0
    match Binary.ofDecimal .double negative coefficient
      (exponent.getD 0 - places.length) with
    | .finite negative m q => return (.float (.finite negative m q), rest)
    | _ => throw .refused

/-- A word or a number. -/
def readScalar (s : Symbols) : Except Fault (Value × Symbols) :=
  match s with
  | some 'n' :: rest => return (.null, ← expect (dropWord? "ull".toList rest))
  | some 't' :: rest =>
    return (.truth true, ← expect (dropWord? "rue".toList rest))
  | some 'f' :: rest =>
    return (.truth false, ← expect (dropWord? "alse".toList rest))
  | some '-' :: rest => readNumber true rest
  | _ => readNumber false s

/-- What follows an element or a member: whether there is another one. -/
def readSeparator (closing : Char) (s : Symbols) :
    Except Fault (Bool × Symbols) :=
  match skipBlanks s with
  | some c :: rest =>
    if c = ',' then .ok (true, rest)
    else if c = closing then .ok (false, rest)
    else .error .refused
  | _ => .error .refused

/-- A key with the colon after it. -/
def readKey (s : Symbols) : Except Fault (String × Symbols) := do
  let some '"' :: rest := skipBlanks s | throw .refused
  let (key, rest) ← readString rest
  let some ':' :: rest := skipBlanks rest | throw .refused
  return (key, rest)

/-- The object with some members. -/
def ofMembers (members : List (String × Value)) : Value :=
  .mapping (members.foldl
    (fun entries m => Value.insertEntry (.text m.1) m.2 entries) [])

mutual

/-- A value, with blanks before it. Every call uses up one unit of fuel, and
each list or object one of the depth that is left for what it holds. -/
def readValue : Nat → Nat → Symbols → Except Fault (Value × Symbols)
  | 0, _, _ => .error .refused
  | fuel + 1, depth, s =>
    match skipBlanks s, depth with
    | some '"' :: rest, _ => do
      let (text, rest) ← readString rest
      return (.text text, rest)
    | some '[' :: _, 0 | some '\x7b' :: _, 0 => .error (.thrown .tooDeep)
    | some '[' :: rest, depth + 1 =>
      match skipBlanks rest with
      | some ']' :: rest => .ok (.list [], rest)
      | rest => do
        let (items, rest) ← readElements fuel depth rest
        return (.list items, rest)
    | some '\x7b' :: rest, depth + 1 =>
      match skipBlanks rest with
      | some '\x7d' :: rest => .ok (.mapping [], rest)
      | rest => do
        let (members, rest) ← readMembers fuel depth rest
        return (ofMembers members, rest)
    | rest, _ => readScalar rest

/-- One or more elements of a list, and the closing bracket. -/
def readElements : Nat → Nat → Symbols → Except Fault (List Value × Symbols)
  | 0, _, _ => .error .refused
  | fuel + 1, depth, s => do
    let (item, rest) ← readValue fuel depth s
    let (more, rest) ← readSeparator ']' rest
    if more then
      let (items, rest) ← readElements fuel depth rest
      return (item :: items, rest)
    else return ([item], rest)

/-- One or more members of an object, and the closing brace. -/
def readMembers :
    Nat → Nat → Symbols → Except Fault (List (String × Value) × Symbols)
  | 0, _, _ => .error .refused
  | fuel + 1, depth, s => do
    let (key, rest) ← readKey s
    let (value, rest) ← readValue fuel depth rest
    let (more, rest) ← readSeparator '\x7d' rest
    if more then
      let (members, rest) ← readMembers fuel depth rest
      return ((key, value) :: members, rest)
    else return ([(key, value)], rest)

end

/-- The value of a whole document that may be nested up to a depth. Every two
calls in a row read at least one symbol, so the fuel is enough. -/
def readDocument (depth : Nat) (s : Symbols) : Except Fault Value := do
  let (v, rest) ← readValue (2 * s.length + 2) depth s
  if (skipBlanks rest).isEmpty then return v else throw .refused

/-- The character with a number, unless it is half of a pair. -/
def character? (code : Nat) : Option Char :=
  if h : code.isValidChar then some (Char.ofNatAux code h) else none

/-- The symbols of a payload. Text is turned into bytes first, which halves of
pairs have none of. -/
def Payload.symbols : Payload → Except Fault Symbols
  | .text codes =>
    match codes.mapM character? with
    | some cs => .ok (cs.map some)
    | none => .error (.thrown .loneHalf)
  | .bytes bs => .ok (Text.Utf8.symbols bs)

/-- The value of a payload that may be nested up to a depth, if there is a
limit. No text is nested more deeply than it is long. -/
def read (room : Option Nat) (payload : Payload) : Except Fault Value := do
  let s ← payload.symbols
  readDocument (room.getD s.length) s

end QueryJournal.Json

import QueryJournal.Json.Engine
import QueryJournal.Text.Base64
import QueryJournal.Value.Item

/-!
# Writing JSON

Values as compact JSON text. What JSON has no form for is written as text:
bytes in Base64, moments in their interchange text, and whatever is unknown here
by the text that the hook gives. Lists and mappings may be nested up to a depth.
The first fault is that of the whole.
-/

namespace QueryJournal.Json

/-- Numbers are written without an exponent from 0.00001 up to sixteen digits
before the point, and exponents without a plus sign. -/
def numberLayout : Binary.Layout :=
  ⟨-4, 16, false, 1⟩

/-- A character inside a string: the quote, the backslash and controls are
escaped. -/
def escapeChar (c : Char) : List Char :=
  if c = '"' ∨ c = '\\' then ['\\', c]
  else if c = '\n' then ['\\', 'n']
  else if c = '\r' then ['\\', 'r']
  else if c = '\t' then ['\\', 't']
  else if c.toNat = 8 then ['\\', 'b']
  else if c.toNat = 12 then ['\\', 'f']
  else if c.toNat < 0x20 then '\\' :: 'u' :: Text.Hex.digits 4 c.toNat
  else [c]

/-- A text as a string. -/
def quote (s : String) : String :=
  "\"" ++ String.ofList (s.toList.flatMap escapeChar) ++ "\""

/-- A floating-point number; infinities and NaNs have no JSON text. -/
def number? : Binary → Option String
  | .finite negative m q => some (numberLayout.finiteText .double negative m q)
  | _ => none

/-- A row of texts in brackets. -/
def array (items : List String) : String :=
  "[" ++ ",".intercalate items ++ "]"

/-- Keys with texts in braces. -/
def object (members : List (String × String)) : String :=
  "\x7b" ++ ",".intercalate (members.map fun m => m.1 ++ ":" ++ m.2) ++ "\x7d"

/-- The text of a floating-point number as a key. -/
def floatKey (x : Binary) : String :=
  (number? x).getD x.text

/-- An integer; it must not have too many digits. -/
def integer (n : Int) : Except Failure String :=
  if Number.longestText < Number.digitCount n.natAbs then .error .tooManyDigits
  else .ok (Number.text n)

/-- The text that a value has as a key. -/
def keyText (hook : Hook) : Value → Except Fault String
  | .text s => .ok s
  | .int n => (integer n).mapError .thrown
  | .float x => .ok (floatKey x)
  | .bytes bs => .ok (String.ofList (Text.Base64.encode bs))
  | .decimal d => .ok d.text
  | .uuid u => .ok u.text
  | .moment t => .ok t.interchangeText
  | .outcome o => .ok o.name
  | v => (hook v).mapError .thrown

/-- The JSON text of a value without items: a word, a number, or else a string
of the text that it has as a key. -/
def scalar (hook : Hook) : Value → Except Fault String
  | .null => .ok "null"
  | .truth b => .ok (if b then "true" else "false")
  | .int n => (integer n).mapError .thrown
  | .float x => .ok ((number? x).getD "null")
  | v => (keyText hook v).map quote

mutual

/-- The JSON text of a value, unless there is a fault. Each list or mapping uses
up one of the depth that is left for what it holds. -/
def write (hook : Hook) : Nat → Value → Except Fault String
  | 0, .list _ | 0, .tuple _ | 0, .mapping _ => .error (.thrown .tooDeep)
  | depth + 1, .list xs | depth + 1, .tuple xs =>
    (writeAll hook depth xs).map array
  | depth + 1, .mapping entries => (writeEntries hook depth entries).map object
  | _, v => scalar hook v

/-- The JSON texts of some values, in order. -/
def writeAll (hook : Hook) : Nat → List Value → Except Fault (List String)
  | _, [] => .ok []
  | depth, x :: xs => do
    let item ← write hook depth x
    return item :: (← writeAll hook depth xs)

/-- The JSON texts of keys and their values, in order. -/
def writeEntries (hook : Hook) :
    Nat → List (Value × Value) → Except Fault (List (String × String))
  | _, [] => .ok []
  | depth, (k, v) :: entries => do
    let key ← keyText hook k
    let value ← write hook depth v
    return (quote key, value) :: (← writeEntries hook depth entries)

end

end QueryJournal.Json

import QueryJournal.Number.Shortest
import QueryJournal.Text.Quoted
import QueryJournal.Value.Basic

/-!
# The texts of values

Every value has a plain text and a literal, which differ in that the literal
shows the type: text stands between quotes, for instance. Inside containers
literals are used. Objects that refuse to be printed make both fail.
-/

namespace QueryJournal

/-- An object refused to be printed by failing with an error of a class. -/
structure Unprintable where
  /-- The class of the error. -/
  cls : FailureClass
  deriving DecidableEq

/-- A text, unless some object refused to be printed. -/
abbrev Printed :=
  Except Unprintable String

namespace Value

/-- The elements of a row in parentheses, a single one followed by a comma. -/
def inParentheses : List String → String
  | [item] => "(" ++ item ++ ",)"
  | items => "(" ++ ", ".intercalate items ++ ")"

/-- A truth value as text. -/
def truthText (b : Bool) : String :=
  if b then "True" else "False"

mutual

/-- The literal of a value. -/
def literal : Value → Printed
  | .null => .ok "None"
  | .truth b => .ok (truthText b)
  | .int n => .ok (Number.text n)
  | .text s => .ok (Text.quoted s)
  | .float x => .ok x.text
  | .bytes bs => .ok (Text.quotedBytes bs)
  | .decimal d => .ok ("Decimal('" ++ d.text ++ "')")
  | .uuid u => .ok ("UUID('" ++ u.text ++ "')")
  | .moment t => .ok t.literal
  | .address a => .ok ((Value.address a).className ++ "('" ++ a.text ++ "')")
  | .outcome o => .ok o.literal
  | .list xs => do return "[" ++ ", ".intercalate (← literals xs) ++ "]"
  | .tuple xs => do return inParentheses (← literals xs)
  | .mapping entries => do
    return "\x7b" ++ ", ".intercalate (← entryLiterals entries) ++ "\x7d"
  | .fault cls args _ => do
    return cls.ownName ++ "(" ++ ", ".intercalate (← literals args) ++ ")"
  | .journalError e => .ok e.literal
  | .object _ shown => .ok shown
  | .unprintable cls => .error ⟨cls⟩

/-- The literals of some values, in order. -/
def literals : List Value → Except Unprintable (List String)
  | [] => .ok []
  | x :: xs => do return (← literal x) :: (← literals xs)

/-- The literals of keys with their values, in order. -/
def entryLiterals : List (Value × Value) → Except Unprintable (List String)
  | [] => .ok []
  | (k, v) :: entries => do
    let key ← literal k
    let value ← literal v
    return (key ++ ": " ++ value) :: (← entryLiterals entries)

end

/-- The paths that a refusal of the system is about. -/
def pathsText : List String → String
  | [] => ""
  | paths => ": " ++ " -> ".intercalate paths

/-- Whether a refusal of the system with some arguments after its number and its
meaning tells these two. -/
def tellsReason (cls : FailureClass) (more : List Value) : Bool :=
  cls.isSystem && more.length ≤ 3

/-- What an error of an encoding is about: a single element, shown if it is
there, or else the places of the first and the last one. -/
def troubleText
    (element : String) (shown? : Nat → Option String)
    (start stop : Int) : String :=
  match if 0 ≤ start ∧ stop = start + 1 then shown? start.toNat else none with
  | some shown =>
    element ++ " " ++ shown ++ " in position " ++ Number.text start
  | none =>
    element ++ "s in position " ++ Number.text start ++ "-" ++
      Number.text (stop - 1)

/-- A byte of some bytes as an error of an encoding shows it. -/
def troubledByte? (bs : Bytes) (place : Nat) : Option String :=
  bs[place]?.map fun b => "0x" ++ Text.Hex.ofBytes [b]

/-- A character of a text as an error of an encoding shows it. -/
def troubledChar? (s : String) (place : Nat) : Option String :=
  s.toList[place]?.map fun c =>
    "'" ++ String.ofList (Text.escapeCode c.toNat) ++ "'"

/-- The text of an error of an encoding that is made from all that it tells: the
encoding, what was read or written, the places of the trouble, and the
reason. -/
def encodingText? (cls : FailureClass) : List Value → Option String
  | [.text encoding, .bytes bs, start, stop, .text reason] => do
    guard (cls.inherits (· == .unicodeDecode))
    let trouble :=
      troubleText "byte" (troubledByte? bs) (← start.asInt?) (← stop.asInt?)
    return "'" ++ encoding ++ "' codec can't decode " ++ trouble ++
      ": " ++ reason
  | [.text encoding, .text s, start, stop, .text reason] => do
    guard (cls.inherits (· == .unicodeEncode))
    let trouble :=
      troubleText "character" (troubledChar? s) (← start.asInt?) (← stop.asInt?)
    return "'" ++ encoding ++ "' codec can't encode " ++ trouble ++
      ": " ++ reason
  | [.text s, start, stop, .text reason] => do
    guard (cls.inherits (· == .unicodeMapping))
    let trouble :=
      troubleText "character" (troubledChar? s) (← start.asInt?) (← stop.asInt?)
    return "can't translate " ++ trouble ++ ": " ++ reason
  | _ => none

/-- The plain text of a value. An error of a common class shows its argument, if
it has just one, and a missing key shows it as a literal. A refusal of the
system shows its number, what it means, and the paths that it is about. -/
def plain : Value → Printed
  | .text s => .ok s
  | .decimal d => .ok d.text
  | .uuid u => .ok u.text
  | .moment t => .ok t.text
  | .address a => .ok a.text
  | .outcome o => .ok o.name
  | .fault _ [] _ => .ok ""
  | .fault cls [arg] _ => if cls.isKey then literal arg else plain arg
  | .fault cls (number :: meaning :: more) paths =>
    if tellsReason cls more then do
      let reason := "[Errno " ++ (← plain number) ++ "] " ++ (← plain meaning)
      return reason ++ pathsText (← literals paths)
    else
      match encodingText? cls (number :: meaning :: more) with
      | some s => .ok s
      | none => do return inParentheses (← literals (number :: meaning :: more))
  | .journalError e => .ok e.text
  | v => literal v

end Value

end QueryJournal

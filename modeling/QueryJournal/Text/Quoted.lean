import QueryJournal.Text.Hex
import QueryJournal.Text.Printable

/-!
# Quoted text

Text and bytes written between quotes so that every character of them is
visible. Single quotes are used, double ones when the content holds a single
quote and no double one.
-/

namespace QueryJournal.Text

/-- The quote to put around content that holds the characters `cs`. -/
def quoteFor (cs : List Char) : Char :=
  if '\'' ∈ cs ∧ '"' ∉ cs then '"' else '\''

/-- The escape by the shortest of the forms with two, four or eight digits. -/
def escapeCode (n : Nat) : List Char :=
  if n ≤ 0xFF then '\\' :: 'x' :: Hex.digits 2 n
  else if n ≤ 0xFFFF then '\\' :: 'u' :: Hex.digits 4 n
  else '\\' :: 'U' :: Hex.digits 8 n

/-- One character inside `quote`: the quote and the backslash are escaped, so
are the characters that `keep` refuses. -/
def escapeChar
    (keep : Char → Bool) (quote c : Char) : List Char :=
  if c = quote ∨ c = '\\' then ['\\', c]
  else if c = '\n' then ['\\', 'n']
  else if c = '\r' then ['\\', 'r']
  else if c = '\t' then ['\\', 't']
  else if keep c then [c]
  else escapeCode c.toNat

/-- Content between the quotes that suit it. -/
def quoteWhere
    (keep : Char → Bool) (cs : List Char) : List Char :=
  let quote := quoteFor cs
  quote :: cs.flatMap (escapeChar keep quote) ++ [quote]

/-- Text between quotes, with printable characters as they are. -/
def quoted (s : String) : String :=
  String.ofList (quoteWhere isPrintable s.toList)

/-- Bytes between quotes after a `b`, with printable ASCII as it is. -/
def quotedBytes (bytes : List UInt8) : String :=
  let visible (c : Char) : Bool := 0x20 ≤ c.toNat && c.toNat < 0x7F
  String.ofList
    ('b' :: quoteWhere visible (bytes.map fun b => Char.ofNat b.toNat))

end QueryJournal.Text

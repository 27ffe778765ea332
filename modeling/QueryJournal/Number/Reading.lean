import QueryJournal.Number.Shortest
import QueryJournal.Number.Numeral
import QueryJournal.Text.Blank
import QueryJournal.Text.Digit

/-!
# Reading floating-point numbers

The text of a floating-point number: a decimal numeral, or the name of an
infinity or a NaN in any case, with an optional sign and blanks around it.
Digits may be of any script, and an underscore may stand between two of them.
-/

namespace QueryJournal.Binary

/-- Reads the name of a number without digits. -/
def named? (negative : Bool) (name : List Char) : Option Binary :=
  if name = "nan".toList then some (.nan negative)
  else if name = "inf".toList ∨
    name = "infinity".toList then some (.infinity negative)
  else none

/-- Drops underscores between digits; `afterDigit` tells whether a digit stands
before the text. -/
def joinDigits (afterDigit : Bool) : List Char → List Char
  | '_' :: c :: rest =>
    if afterDigit && c.isDigit then c :: joinDigits true rest
    else '_' :: c :: joinDigits c.isDigit rest
  | c :: rest => c :: joinDigits c.isDigit rest
  | [] => []

/-- Reads a number and rounds it to the format. -/
def ofText? (f : Format) (s : String) : Option Binary :=
  let cs := joinDigits false
    ((Text.trimWhere Text.isNumberBlank s.toList).map Text.plainDigit)
  let (negative, size) := Number.takeSign cs
  (named? negative (size.map Char.toLower)).or <|
    (Number.Numeral.read? cs).map fun n =>
      ofDecimal f n.negative n.coefficient n.exponent

end QueryJournal.Binary

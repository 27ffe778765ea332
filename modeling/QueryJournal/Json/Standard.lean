import QueryJournal.Json.Reader
import QueryJournal.Json.Writer

/-!
# The standard platform

A platform with an engine that is written out. Its room for lists and mappings
that lie inside of each other may be limited, as that of a stack is, and it has
no texts of integers with too many digits.
-/

namespace QueryJournal.Json

mutual

/-- A value as it is printed: an integer with too many digits refuses. -/
def printable : Value → Value
  | .int n =>
    if Number.longestText < Number.digitCount n.natAbs then
      .unprintable .value else .int n
  | .list xs => .list (printableAll xs)
  | .tuple xs => .tuple (printableAll xs)
  | .mapping entries => .mapping (printableEntries entries)
  | .fault cls args paths => .fault cls (printableAll args) (printableAll paths)
  | v => v

/-- Some values as they are printed. -/
def printableAll : List Value → List Value
  | [] => []
  | x :: xs => printable x :: printableAll xs

/-- Keys and their values as they are printed. -/
def printableEntries : List (Value × Value) → List (Value × Value)
  | [] => []
  | (k, v) :: entries => (printable k, printable v) :: printableEntries entries

end

/-- The engine that is written out, with room for a nesting, or for any. -/
def Engine.standard (room : Option Nat) : Engine where
  write hook v :=
    (Json.write hook (room.getD v.depth) v).map fun s =>
      Text.Utf8.encode s.toList
  read := Json.read room

/-- The platform with this engine. -/
def Platform.standard (room : Option Nat) : Platform where
  plain v := (printable v).plain.orFail
  literal v := (printable v).literal.orFail
  engine := .standard room

end QueryJournal.Json

/-!
# Fields of the settings

What can be set about the journal, under which name, and what a value of each
field must satisfy.
-/

namespace QueryJournal

/-- A field of the settings. -/
inductive Setting where
  /-- The milliseconds beyond which a query is slow. -/
  | slowThreshold
  /-- The characters of a statement that are shown. -/
  | queryLength
  /-- The characters of a bound value that are shown. -/
  | valueLength
  deriving DecidableEq

namespace Setting

/-- All fields in their fixed order. -/
def all : List Setting :=
  [.slowThreshold, .queryLength, .valueLength]

/-- The name of a field. -/
def name : Setting → String
  | .slowThreshold => "slow_query_threshold_ms"
  | .queryLength => "max_query_string_length"
  | .valueLength => "max_parameter_value_length"

/-- The field with a name. -/
def ofName? (s : String) : Option Setting :=
  all.find? (·.name == s)

/-- The condition on the values of a field, in words. -/
def condition : Setting → String
  | .slowThreshold => "should be >= 0"
  | .queryLength | .valueLength => "should be > 0 or -1"

/-- The condition on the values of a field. A length may be unlimited. -/
def accepts : Setting → Int → Bool
  | .slowThreshold, n => 0 ≤ n
  | .queryLength, n | .valueLength, n => 0 < n || n == -1

end Setting

end QueryJournal

/-!
# Outcomes of queries

How a query can complete: with a failure, which may report a timeout, or without
one, and then within the threshold of slow queries or beyond it.
-/

namespace QueryJournal

/-- How a query completed. -/
inductive Outcome where
  /-- Without failure, within the threshold. -/
  | normal
  /-- Without failure, beyond the threshold. -/
  | slow
  /-- With a failure that reports a timeout. -/
  | timeout
  /-- With any other failure. -/
  | error
  deriving DecidableEq

namespace Outcome

/-- All outcomes in their fixed order. -/
def all : List Outcome :=
  [.normal, .slow, .timeout, .error]

/-- The name of an outcome, which is also that of its channel. -/
def name : Outcome → String
  | .normal => "normal"
  | .slow => "slow"
  | .timeout => "timeout"
  | .error => "error"

/-- The outcome with a name. -/
def ofName? (s : String) : Option Outcome :=
  all.find? (·.name == s)

/-- The outcome as a member of its enumeration. -/
def literal (o : Outcome) : String :=
  let member := String.ofList (o.name.toList.map Char.toUpper)
  "<QueryOutcome." ++ member ++ ": '" ++ o.name ++ "'>"

end Outcome

end QueryJournal

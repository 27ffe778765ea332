import QueryJournal.Host
import QueryJournal.Query.Latency
import QueryJournal.Statement.Basic

/-!
# Completed queries

What is known about a query once it has completed.
-/

namespace QueryJournal

/-- Whether a failure reports a timeout. -/
def ErrorValue.isTimeout (e : ErrorValue) : Bool :=
  e.cls.isTimeout

/-- A completed query. -/
structure Query where
  /-- What it ran on. -/
  target : Target
  /-- What it executed. -/
  statement : Statement
  /-- The error that it failed with, if it failed. -/
  failure : Option ErrorValue
  /-- How many nanoseconds it took, or whatever was measured instead. -/
  latency : Value

namespace Query

/-- How many milliseconds the query took, and how it completed. -/
def assess
    (q : Query) (timedOut : Bool) (threshold : Int) :
    Except Failure (Millis × Outcome) := do
  let millis ← Millis.ofLatency q.latency
  return (millis, ← Outcome.classify millis q.failure.isSome timedOut threshold)

/-- Whether the failure of the query, if there is one, reports a timeout. -/
def failedByTimeout (q : Query) : Bool :=
  q.failure.any ErrorValue.isTimeout

/-- Whether the query is one of the driver's own. -/
def isInternal (q : Query) : Bool :=
  match q.statement with
  | .internal => true
  | _ => false

end Query

end QueryJournal

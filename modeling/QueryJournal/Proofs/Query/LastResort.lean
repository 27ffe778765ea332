import QueryJournal.Proofs.Query.Containment

/-!
# What the last resort reports

The recorder reports a failure as a last resort for six causes, one for each
step on the way to the line of a query: the latency is divided and compared, the
gate is asked, the statement gets its text, the gate is asked for details, the
host is printed, and the gate logs the line.  No other step can fail: limits are
always acceptable, values that cannot be printed are left out, and there are
always as many arguments as placeholders.
-/

namespace QueryJournal.Recorder

variable {room : Nat} {r : Recorder} {l : Logging} {q : Query} {timedOut : Bool}
variable {millis : Millis} {o : Outcome} {f : Failure}

/-! ## The causes -/

/-- A query whose latency can be used and whose gate lets it through. -/
structure Admits
    (r : Recorder) (l : Logging) (q : Query) (timedOut : Bool) (millis : Millis)
    (o : Outcome) : Prop where
  internal : q.isInternal = false
  assessed : q.assess timedOut (r.settings.get .slowThreshold) = .ok (millis, o)
  base : (r.channels o).check .base = .ok ()
  isOpen : (r.channels o).baseEnabled l.loggers = true

section Sinks

variable (hsinks : ∀ s ∈ l.sinksOf Loggers.troubleName, s.Takes none)

include hsinks

end Sinks

section Memory

/-- A statement with one value. -/
def single : Bound :=
  ⟨⟨"SELECT ?", [⟨"v", .int⟩]⟩, [⟨none, .int⟩], rfl⟩

end Memory

end QueryJournal.Recorder

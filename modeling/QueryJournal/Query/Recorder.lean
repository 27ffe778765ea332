import QueryJournal.Query.Basic
import QueryJournal.Query.Gate
import QueryJournal.Render.Parameter
import QueryJournal.Render.Statement
import QueryJournal.Settings.Basic

/-!
# The recorder

The recorder logs every completed query at the gate of its outcome: which host
it ran on, how long it took, the text of its statement, and, where the gate
asks for details, the values bound to it. A value that cannot be printed is
left out. Whatever else goes wrong is reported, and ends there.
-/

namespace QueryJournal

/-- The settings of the recorder and its gate for each outcome. -/
structure Recorder where
  /-- The settings. -/
  settings : Settings
  /-- The gates. -/
  channels : Outcome → Gate

namespace Recorder

/-- The recorder with the usual gates. -/
def ofSettings (settings : Settings) : Recorder :=
  ⟨settings, fun o => Gate.ofName o.name⟩

/-- The recorder with another gate for an outcome. -/
def withGate (r : Recorder) (o : Outcome) (g : Gate) : Recorder :=
  { r with channels := fun other => if other = o then g else r.channels other }

/-- The message about a query with an outcome: host, milliseconds and statement
are filled in. -/
def template : Outcome → String
  | .normal => "Query completed normally on host %s, took %s ms: %s"
  | .slow => "Query too slow on host %s, took %s ms: %s"
  | .timeout => "Query timed out on host %s after %s ms: %s"
  | .error => "Query error on host %s after %s ms: %s"

/-- The part of the message for the bound values. -/
def parameterTemplate : String :=
  " [%s]"

/-- The texts of named values. Those that cannot be printed are left out and
reported. -/
def renderParameters
    (l : Logging) (limit : Int) :
    List (String × BoundValue) → Run Delivery (List String)
  | [] => return []
  | (name, v) :: rest =>
    match v.render limit with
    | .ok s => do
      let texts ← renderParameters l limit rest
      return (name ++ ":" ++ s) :: texts
    | .error f => do
      l.report Loggers.troubleName Level.debug
        "Omitting bound value %r from query log"
        [.text name] f
      renderParameters l limit rest

/-- The texts of the values bound to a statement, if the gate asks for them. -/
def parameters
    (l : Logging) (g : Gate) (limit : Int) :
    Statement → Run Delivery (List String)
  | .bound b =>
    if b.values.isEmpty then return []
    else do
      if ← Run.ofExcept (g.askDetail l.loggers) then
        renderParameters l limit b.named
      else return []
  | _ => return []

/-- The record of a query with an outcome, from the texts of its parts. -/
def entry
    (l : Logging) (g : Gate) (o : Outcome) (host : String) (millis : Millis)
    (statement : String) (parameters : List String)
    (failure : Option ErrorValue) :
    LogRecord :=
  let shown := ", ".intercalate parameters
  let message :=
    if shown = "" then template o else template o ++ parameterTemplate
  let args := [.text host, millis.toValue, .text statement] ++
    (if shown = "" then [] else [.text shown])
  { l.record g.logger g.base message args with
    extra := [("db_host", .text host), ("latency_ms", millis.toValue),
      ("query_outcome", .text o.name)]
    failure := failure.map .thrown }

/-- Logs a query, unless it is one of the driver's own or its gate is shut;
`render` gives its statement a text within a limit. -/
def attemptBy
    (render : Int → Statement → Except Failure String)
    (r : Recorder) (l : Logging) (q : Query) (timedOut : Bool) :
    Run Delivery Unit := do
  if q.isInternal then return ()
  let (millis, outcome) ← Run.ofExcept
    (q.assess timedOut (r.settings.get .slowThreshold))
  let gate := r.channels outcome
  if !(← Run.ofExcept (gate.askBase l.loggers)) then return ()
  let statement ← Run.ofExcept
    (render (r.settings.get .queryLength) q.statement)
  let shown ← parameters l gate (r.settings.get .valueLength) q.statement
  let host ← Run.ofExcept q.target.print.orFail
  Run.ofExcept (gate.check .emit)
  l.log (entry l gate outcome host millis statement shown q.failure)

/-- Logs a query that nothing is in the way of. -/
def attempt
    (r : Recorder) (l : Logging) (q : Query) (timedOut : Bool) :
    Run Delivery Unit :=
  attemptBy Statement.renderWithin r l q timedOut

/-- Goes on after an ordinary failure to log a query by reporting it. -/
def reportTrouble (l : Logging) (attempted : Run Delivery Unit) :
    Run Delivery Unit :=
  attempted.recoverOrdinary fun f =>
    (l.report Loggers.troubleName Level.error
      "Unexpected error while logging query" [] f).contain

/-- Logs a query. Failures on the way are reported instead. -/
def record
    (r : Recorder) (l : Logging) (q : Query) (timedOut : Bool) :
    Run Delivery Unit :=
  reportTrouble l (r.attempt l q timedOut)

/-- Logs a query; whether it timed out is told from its failure. -/
def update (r : Recorder) (l : Logging) (q : Query) : Run Delivery Unit :=
  r.record l q q.failedByTimeout

end Recorder

end QueryJournal

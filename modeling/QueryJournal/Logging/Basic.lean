import QueryJournal.Logging.Loggers
import QueryJournal.Logging.Sink

/-!
# Logging

The loggers with their sinks. Sinks are attached to the root and to the logger
of the journal. A record that its logger takes goes to the sinks of all
loggers from there to the root, unless the journal keeps its records for
itself.
-/

namespace QueryJournal

/-- Loggers with their sinks. -/
structure Logging where
  /-- The loggers. -/
  loggers : Loggers
  /-- The sinks of the root. -/
  rootSinks : List Sink
  /-- The sinks of the journal's logger. -/
  journalSinks : List Sink
  /-- Whether records of the journal reach the root. -/
  propagates : Bool
  /-- Where records come from. -/
  source : LogRecord.Source
  /-- When records are made. -/
  clock : LogRecord.Time
  /-- What is told around the line of a failure. -/
  trace : LogRecord.Trace

namespace Logging

/-- Before anything is configured the journal has no sinks of its own. -/
def initial
    (rootSinks : List Sink) (source : LogRecord.Source)
    (clock : LogRecord.Time) : Logging :=
  ⟨.initial, rootSinks, [], true, source, clock, .empty⟩

/-- The sinks that the records of a logger reach. -/
def sinksOf (l : Logging) (logger : String) : List Sink :=
  if Loggers.journalName ∈ l.loggers.lineage logger then
    l.journalSinks ++ (if l.propagates then l.rootSinks else [])
  else l.rootSinks

/-- A record that is made now. -/
def record
    (l : Logging) (logger : String) (level : Int) (message : String)
    (args : List Value) :
    LogRecord where
  logger := logger
  level := level
  message := message
  args := args
  source := l.source
  time := l.clock
  extra := []
  fields := none
  failure := none
  trace := l.trace

/-- Logs a record, if its logger takes it. -/
def log (l : Logging) (r : LogRecord) : Run Delivery Unit :=
  if l.loggers.isEnabled r.logger r.level then
    Sink.receiveAll r (l.sinksOf r.logger)
  else return ()

/-- Reports a failure with a message. -/
def report
    (l : Logging) (logger : String) (level : Int) (message : String)
    (args : List Value) (f : Failure) : Run Delivery Unit :=
  l.log { l.record logger level message args with failure := some f }

/-- Sets the level of a logger. -/
def setLevel (l : Logging) (name : String) (level : Int) : Logging :=
  { l with loggers := l.loggers.setLevel name level }

/-- The logger exists afterwards; nothing else changes. -/
def touch (l : Logging) (name : String) : Logging :=
  { l with loggers := l.loggers.touch name }

end Logging

end QueryJournal

import QueryJournal.Logging.Format
import QueryJournal.Logging.Run

/-!
# Sinks

Where log records end up. A capturing sink keeps them, and may fail after it
has kept one. The console and files get lines; a record that cannot be laid
out is dropped there, and its arguments are shown to whoever maintains the
program instead.
-/

namespace QueryJournal

/-- A sink that keeps records. -/
structure Capture where
  /-- Its name, which it shares with no other. -/
  name : String
  /-- The error that it throws after each record, if any. -/
  fault : Option ErrorValue

/-- A place where log records end up. -/
inductive Sink where
  /-- Keeps records. -/
  | capture (c : Capture)
  /-- Prints lines. -/
  | console (layout : RecordLayout)
  /-- Adds JSON lines to a file, known by its number. -/
  | file (index : Nat)

/-- What a sink did with a record. -/
inductive Delivery where
  /-- It kept the record, whose message was formed. -/
  | captured (sink : String) (message : String) (r : LogRecord)
  /-- It printed a text. -/
  | printed (s : String)
  /-- It added a text to a file. -/
  | appended (index : Nat) (s : String)

/-- Whether a failure passes a sink that contains the ordinary ones: it stops
the program, or something is nested too deeply. -/
def Failure.passesSinks (f : Failure) : Bool :=
  !f.isOrdinary || f.cls.isNesting

/-- Shows the arguments of a record that could not be laid out. Only failures
that pass every sink are noticed. -/
def LogRecord.showArguments (r : LogRecord) : Run Delivery Unit :=
  (Run.ofExcept (r.arguments.plain.orFail.map fun _ => ())).recover fun f =>
    if f.passesSinks then Run.fail f else return ()

/-- Lays a record out as a line and passes it on. -/
def LogRecord.writeLine
    (r : LogRecord) (layout : RecordLayout) (deliver : String → Delivery) :
    Run Delivery Unit :=
  (do
    let s ← Run.ofExcept (r.format layout)
    Run.emit (deliver (s ++ "\n"))).recover fun f =>
      if f.passesSinks then Run.fail f else r.showArguments

/-- Hands a record to a sink. -/
def Sink.receive (r : LogRecord) : Sink → Run Delivery Unit
  | .capture c => do
    let message ← Run.ofExcept r.text
    Run.ofExcept (r.failure.toList.forM Failure.ensurePrinted)
    Run.emit (.captured c.name message r)
    match c.fault with
    | some e => Run.fail (.thrown e)
    | none => return ()
  | .console layout => r.writeLine layout .printed
  | .file index => r.writeLine .structured (.appended index)

/-- Hands a record to some sinks in turn, until one fails. -/
def Sink.receiveAll (r : LogRecord) : List Sink → Run Delivery Unit
  | [] => return ()
  | s :: sinks => do
    s.receive r
    receiveAll r sinks

end QueryJournal

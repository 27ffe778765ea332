import QueryJournal.Logging.Basic

/-!
# Configuring the journal's log

A configuration gives the journal a level and sinks of its own, in place of
those that it had, and keeps its records from the root. A level with an unknown
name is refused before anything is changed.
-/

namespace QueryJournal.Logging

/-- How a level is told. -/
inductive LevelChoice where
  /-- By number. -/
  | number (n : Int)
  /-- By name. -/
  | name (s : String)
  /-- By something that is neither. -/
  | other

/-- The level of a logger that is told to it directly, with its name in upper
case. -/
def LevelChoice.direct : LevelChoice → Except Failure Int
  | .number n => .ok n
  | .name s =>
    match Level.ofUpperName? s with
    | some n => .ok n
    | none => .error .notAMember
  | .other => .error .notANumber

/-- The chosen level of a configuration. -/
def LevelChoice.resolve : LevelChoice → Except Failure Int
  | .number n => .ok n
  | .name s =>
    match Level.ofName? s with
    | some n => .ok n
    | none => .error (.unknownLevel s)
  | .other => .error .notANumber

/-- How the journal's log is to be. -/
structure Configuration where
  /-- The level of the journal. -/
  level : LevelChoice
  /-- The name of the layout on the console, or anything else for the usual
  text. -/
  style : Value
  /-- The file to write to, if any. -/
  file : Option Nat
  /-- Further sinks. -/
  extras : List Capture

namespace Configuration

/-- The usual level. -/
def standardLevel : LevelChoice :=
  .name "INFO"

/-- The usual layout. -/
def standardStyle : Value :=
  .text "structured"

/-- The further sinks without repetitions, each at its first place. -/
def distinctExtras (c : Configuration) : List Capture :=
  c.extras.foldl (fun kept e =>
    if kept.any (·.name == e.name) then kept else kept ++ [e]) []

/-- The sinks in their order: the console, the file, the further ones. -/
def sinks (c : Configuration) : List Sink :=
  .console (.ofStyle c.style) :: c.file.toList.map Sink.file ++
    c.distinctExtras.map Sink.capture

/-- What is told about a configuration once it is in force. -/
def summary (c : Configuration) (level : Int) : Value :=
  .mapping [(.text "level", .text (Level.text level)),
    (.text "format_style", c.style),
    (.text "handlers_count", .int c.sinks.length)]

end Configuration

/-- The logging with the journal at a level and with the configured sinks. -/
def apply (l : Logging) (c : Configuration) (level : Int) : Logging :=
  { l.setLevel Loggers.journalName level with
    journalSinks := c.sinks
    propagates := false }

/-- Configures the journal's log and tells so in it. -/
def configure (l : Logging) (c : Configuration) : Logging × Run Delivery Unit :=
  match c.level.resolve with
  | .error f => (l, Run.fail f)
  | .ok level =>
    let configured := l.apply c level
    let told := configured.record Loggers.journalName Level.debug
      "querylog logging configured" []
    (configured, configured.log { told with fields := some (c.summary level) })

end QueryJournal.Logging

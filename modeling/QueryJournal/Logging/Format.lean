import QueryJournal.Json.Standard
import QueryJournal.Logging.Record

/-!
# Layouts of log records

A record is laid out as one JSON object, or as a line of text that is followed
by a line for its failure.
-/

namespace QueryJournal

/-- How records are laid out. -/
inductive RecordLayout where
  /-- As JSON. -/
  | structured
  /-- As text. -/
  | simple
  deriving DecidableEq

namespace LogRecord

/-- The record as a JSON object. -/
def structured (p : Json.Platform) (r : LogRecord) : Except Failure String := do
  p.encode (.mapping (← r.entries))

/-- A text with a line after it. -/
def withLine (s line : String) : String :=
  if s.toList.getLast? = some '\n' then s ++ line else s ++ "\n" ++ line

/-- The record as text. -/
def simple (r : LogRecord) : Except Failure String := do
  let message ← r.text
  let timestamp ← r.timestamp
  let logger ← r.loggerName.plain.orFail
  let level ← r.levelName.plain.orFail
  let s := " - ".intercalate [timestamp, logger, level, message]
  match ← r.reported with
  | some line => return withLine s line
  | none => return s

/-- The record in a layout. For JSON there is as much room as it takes. -/
def format (r : LogRecord) : RecordLayout → Except Failure String
  | .structured => r.structured (.standard none)
  | .simple => r.simple

end LogRecord

/-- The layout with a name; everything else means text. -/
def RecordLayout.ofStyle : Value → RecordLayout
  | .text "structured" => .structured
  | _ => .simple

end QueryJournal

import QueryJournal.Value.Text

/-!
# Error objects

Errors as objects: queries fail with them, trackers and sinks throw them, and
they are attached to log records.
-/

namespace QueryJournal

/-- An error object. -/
inductive ErrorValue where
  /-- An error of a common class. -/
  | common (cls : FailureClass) (args paths : List Value)
  /-- An error of this library. -/
  | journal (e : JournalError)

namespace ErrorValue

/-- An error of a class that carries nothing but a message. -/
def ofMessage (cls : FailureClass) (message : String) : ErrorValue :=
  match cls with
  | .journal own => .journal (.ofDetail own message)
  | cls => .common cls [.text message] []

/-- The error as a value. -/
def toValue : ErrorValue → Value
  | .common cls args paths => .fault cls args paths
  | .journal e => .journalError e

/-- The error that a value is, if it is one. -/
def ofValue? : Value → Option ErrorValue
  | .fault cls args paths => some (.common cls args paths)
  | .journalError e => some (.journal e)
  | _ => none

/-- The class of an error. -/
def cls : ErrorValue → FailureClass
  | .common cls _ _ => cls
  | .journal e => .journal e.kind.cls

/-- The text shown for an error that refuses to be printed. -/
def hiddenText : String :=
  "<exception str() failed>"

/-- The text of an error, even if something in it refuses to be printed. -/
def text (e : ErrorValue) : String :=
  match e.toValue.plain with
  | .ok s => s
  | .error _ => hiddenText

end ErrorValue

end QueryJournal

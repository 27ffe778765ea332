import QueryJournal.Logging.Level
import QueryJournal.Logging.Message
import QueryJournal.Logging.Timestamp
import QueryJournal.Value.Item

/-!
# Log records

What is known about one logged event: where it comes from, how urgent it is,
its message, the time, a failure, and whatever the application adds. A record
is laid out as named entries in a fixed order.
-/

namespace QueryJournal

/-- The place in the program that a record comes from. -/
structure LogRecord.Source where
  /-- The module. -/
  module : String
  /-- The function. -/
  function : String
  /-- The line. -/
  line : Int

/-- A time of the system's clock. -/
structure LogRecord.Time where
  /-- Whole seconds since 1970-01-01T00:00. -/
  seconds : Int
  /-- The milliseconds that are shown. -/
  millis : Int

/-- What a platform tells about a failure besides the line of the failure
itself. -/
structure LogRecord.Trace where
  /-- The lines before it: the way to it, and the failures that it comes
  from. -/
  before : List String
  /-- The lines after it, such as notes. -/
  after : List String

/-- A logged event. -/
structure LogRecord where
  /-- The name of the logger. -/
  logger : String
  /-- The level. -/
  level : Int
  /-- The message, with placeholders. -/
  message : String
  /-- The arguments of the message. -/
  args : List Value
  /-- Where the record comes from. -/
  source : LogRecord.Source
  /-- When the record was made. -/
  time : LogRecord.Time
  /-- What the application adds, by name. -/
  extra : List (String × Value)
  /-- Entries that the application adds as one value. -/
  fields : Option Value
  /-- The failure that the record reports, if any. -/
  failure : Option Failure
  /-- What is told around the line of that failure. -/
  trace : LogRecord.Trace

namespace LogRecord

/-- Nothing but the line of a failure is told. -/
def Trace.empty : Trace :=
  ⟨[], []⟩

/-- The line of a failure among those that are told with it. -/
def Trace.around (t : Trace) (line : String) : String :=
  "\n".intercalate (t.before ++ line :: t.after)

/-- The part of a file name before its last extension. Dots at its start are no
extension. -/
def stem (file : List Char) : List Char :=
  let body := file.dropWhile (· == '.')
  match body.reverse.dropWhile (· != '.') with
  | [] => file
  | _ :: before => file.takeWhile (· == '.') ++ before.reverse

/-- The module that a file is. -/
def moduleOfPath (path : String) : String :=
  String.ofList (stem (path.toList.reverse.takeWhile (· != '/')).reverse)

/-- The last value that the application adds under a name. -/
def added? (r : LogRecord) (name : String) : Option Value :=
  (r.extra.reverse.find? (·.1 == name)).map (·.2)

/-- A property of the record: what the application adds under its name takes the
place of its own value. -/
def property (r : LogRecord) (name : String) (own : Value) : Value :=
  (r.added? name).getD own

/-- The arguments of the message. -/
def arguments (r : LogRecord) : Value :=
  r.property "args" (Message.pack r.args)

/-- The message with its arguments. The application must not take the place of
the operation that forms it. -/
def text (r : LogRecord) : Except Failure String := do
  if (r.added? "getMessage").isSome then throw .notAnOperation
  let template ← (r.property "msg" (.text r.message)).plain.orFail
  Message.fill template r.arguments

/-- The time of the record to the millisecond. -/
def timestamp (r : LogRecord) : Except Failure String :=
  Timestamp.text (r.property "created" (.int r.time.seconds))
    (r.property "msecs" (.int r.time.millis))

/-- The names that belong to every record, which are never copied. -/
def reservedNames : List String :=
  ["name", "msg", "args", "levelname", "levelno", "pathname", "filename",
    "module", "exc_info",
    "exc_text", "stack_info", "lineno", "funcName", "created", "msecs",
    "relativeCreated",
    "thread", "threadName", "processName", "process", "message", "asctime",
    "extra_fields"]

/-- Whether a name is copied into the entries: it is neither reserved nor
private. -/
def isCopied (name : String) : Bool :=
  !reservedNames.contains name && name.toList.head? != some '_'

/-- The two items of a value as a key and its value. -/
def pair (v : Value) : Except Failure (Value × Value) :=
  match v.items? with
  | some [key, value] =>
    if key.isKey then .ok (key, value) else .error .notEntries
  | some _ => .error .notPairs
  | none => .error .notEntries

/-- The entries that a value stands for. -/
def entriesOf : Value → Except Failure (List (Value × Value))
  | .mapping entries => .ok entries
  | v =>
    match v.items? with
    | some items => items.mapM pair
    | none => .error .notEntries

/-- The entries that the application adds as one value. -/
def addedEntries (r : LogRecord) : Except Failure (List (Value × Value)) :=
  match r.fields.or (r.added? "extra_fields") with
  | some v => entriesOf v
  | none => .ok []

/-- The name of the record's level. -/
def levelName (r : LogRecord) : Value :=
  r.property "levelname" (.text (Level.text r.level))

/-- The name of the record's logger. -/
def loggerName (r : LogRecord) : Value :=
  r.property "name" (.text r.logger)

/-- Whether a value is the way to a failure, or says that there is none. -/
def isWay : Value → Bool
  | .null | .object "traceback" _ => true
  | _ => false

/-- The line of a value that stands in the place of a failure: it is a row of
the failure's class, the failure, and the way to it. Such a row may also report
that there is no failure. -/
def report (v : Value) : Except Failure String := do
  let way ← v.itemAt 2
  let _ ← v.itemAt 0
  let reason ← v.itemAt 1
  if !isWay way then throw .noSuchProperty
  match reason, ErrorValue.ofValue? reason with
  | .null, _ => return Value.className .null ++ ": None"
  | _, some e => return (Failure.thrown e).line
  | _, none => throw .noSuchProperty

/-- The text that reports the record's failure, or what the application adds in
its place and counts as something. -/
def reported (r : LogRecord) : Except Failure (Option String) :=
  match r.added? "exc_info" with
  | none => .ok (r.failure.map fun f => r.trace.around f.line)
  | some v =>
    if v.isTruthy then (report v).map fun line =>
      some (r.trace.around line) else .ok none

/-- Stores some entries one after the other. -/
def merge (entries more : List (Value × Value)) : List (Value × Value) :=
  more.foldl (fun es e => Value.insertEntry e.1 e.2 es) entries

/-- The entries of a record in their order: the fixed ones, what the application
adds by name and as one value, and the failure. A later entry replaces the
value of an earlier one of the same name and keeps its place. -/
def entries (r : LogRecord) : Except Failure (List (Value × Value)) := do
  let timestamp ← r.timestamp
  let message ← r.text
  let fixed := [("timestamp", Value.text timestamp), ("level", r.levelName),
    ("logger", r.loggerName), ("message", .text message),
    ("module", r.property "module" (.text r.source.module)),
    ("function", r.property "funcName" (.text r.source.function)),
    ("line", r.property "lineno" (.int r.source.line))]
  let copied := r.extra.filter fun e => isCopied e.1
  let named := (fixed ++ copied).map fun e => (Value.text e.1, e.2)
  let more ← r.addedEntries
  let reported ← r.reported
  let last :=
    reported.toList.map fun line => (Value.text "exception", Value.text line)
  return merge (merge (merge [] named) more) last

end LogRecord

end QueryJournal

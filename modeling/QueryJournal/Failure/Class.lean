import QueryJournal.Failure.System

/-!
# Classes of failures

The kinds of errors that may end a query, a callback or an operation of this
library. Five classes are the library's own and share a base; the others are
common to all programs. Most are ordinary and can be contained; a few demand
that the program stops.
-/

namespace QueryJournal

/-- The library's own classes. -/
inductive JournalClass where
  /-- The base of the others. -/
  | base
  /-- A setting was rejected. -/
  | configuration
  /-- A query missed its deadline. -/
  | timeout
  /-- A bound value could not be printed. -/
  | rendering
  /-- A value could not be written as text or read from it. -/
  | serialization
  deriving DecidableEq

/-- The name of one of the library's classes. -/
def JournalClass.name : JournalClass → String
  | .base => "QueryLogError"
  | .configuration => "ImproperConfigurationError"
  | .timeout => "QueryTimeoutError"
  | .rendering => "RenderingError"
  | .serialization => "SerializationError"

/-- A class of failures. -/
inductive FailureClass where
  /-- One of the library's own. -/
  | journal (cls : JournalClass)
  /-- A value of the right type that cannot be used. -/
  | value
  /-- A value of the wrong type. -/
  | type
  /-- A name that nothing is stored under. -/
  | key
  /-- A property that the value does not have. -/
  | attribute
  /-- A number beyond what its representation can hold. -/
  | overflow
  /-- A refusal of the operating system. -/
  | system (cls : SystemClass)
  /-- A place that a row does not have. -/
  | index
  /-- An error of no special kind. -/
  | runtime
  /-- Something is nested too deeply. -/
  | nesting
  /-- A sequence has no more elements. -/
  | exhaustion
  /-- A text that some encoding cannot hold. -/
  | unicode
  /-- Bytes that are no text of their encoding. -/
  | unicodeDecode
  /-- Characters that an encoding does not have. -/
  | unicodeEncode
  /-- Characters that have no counterpart. -/
  | unicodeMapping
  /-- A packed field of the wrong size, type or range. -/
  | packing
  /-- A decimal operation without a result. -/
  | decimalInvalid
  /-- A decimal result that is too large. -/
  | decimalOverflow
  /-- The user asks the program to stop. -/
  | interrupt
  /-- The program asks itself to stop. -/
  | exit
  /-- A suspended computation is given up. -/
  | abandonment
  /-- The base of all classes. -/
  | root
  /-- Any other ordinary class. -/
  | other (name : String)
  /-- A class that an application derives from another one, or from two; `place`
  is where it is defined. -/
  | derived (place name : String) (base second : FailureClass)
  deriving DecidableEq

namespace FailureClass

/-- The classes with a fixed name, apart from the library's own and those of the
system. -/
def named : List (String × FailureClass) :=
  [("ValueError", .value), ("TypeError", .type), ("KeyError", .key),
    ("AttributeError", .attribute), ("OverflowError", .overflow),
    ("IndexError", .index),
    ("RuntimeError", .runtime), ("RecursionError", .nesting),
    ("StopIteration", .exhaustion),
    ("UnicodeError", .unicode), ("UnicodeDecodeError", .unicodeDecode),
    ("UnicodeEncodeError", .unicodeEncode),
    ("UnicodeTranslateError", .unicodeMapping),
    ("struct.error", .packing), ("InvalidOperation", .decimalInvalid),
    ("Overflow", .decimalOverflow), ("KeyboardInterrupt", .interrupt),
    ("SystemExit", .exit), ("GeneratorExit", .abandonment),
    ("BaseException", .root)]

/-- The library's own classes by name. -/
def journalNamed : List (String × JournalClass) :=
  [JournalClass.base, .configuration, .timeout, .rendering, .serialization].map
    fun c => (c.name, c)

/-- The class with a name. -/
def ofName (s : String) : FailureClass :=
  match journalNamed.lookup s, SystemClass.ofName? s with
  | some c, _ => .journal c
  | none, some c => .system c
  | none, none => (named.lookup s).getD (.other s)

/-- The name of a class. -/
def name : FailureClass → String
  | .journal c => c.name
  | .system c => c.name
  | .other s | .derived _ s _ _ => s
  | c => ((named.find? fun entry => entry.2 == c).map (·.1)).getD ""

/-- The name of a class without the place that it is defined in. -/
def ownName : FailureClass → String
  | .packing => "error"
  | c => c.name

/-- The name by which a class is reported: the library's own and derived ones
with the place that they are defined in. -/
def qualifiedName : FailureClass → String
  | .journal c => "querylog.exceptions." ++ c.name
  | .decimalInvalid => "decimal.InvalidOperation"
  | .decimalOverflow => "decimal.Overflow"
  | .derived place s _ _ => if place = "" then s else place ++ "." ++ s
  | c => c.name

/-- Whether a class is one of some classes or is derived from one. -/
def inherits (among : FailureClass → Bool) : FailureClass → Bool
  | .derived _ _ base second => inherits among base || inherits among second
  | c => among c

/-- Whether failures of a class may be contained. The others stop the
program. -/
def isOrdinary : FailureClass → Bool :=
  inherits fun
    | .interrupt | .exit | .abandonment | .root => false
    | _ => true

/-- Whether a class reports a timeout. -/
def isTimeout : FailureClass → Bool :=
  inherits fun
    | .system .timeout | .journal .timeout => true
    | _ => false

/-- Whether a class blames the value or its type. -/
def blamesValue : FailureClass → Bool :=
  inherits fun
    | .value | .type | .unicode | .unicodeDecode | .unicodeEncode
      | .unicodeMapping => true
    | .journal .configuration => true
    | _ => false

/-- Whether a class reports that something is nested too deeply. -/
def isNesting : FailureClass → Bool :=
  inherits (· == .nesting)

/-- Whether a class reports a key that is missing. -/
def isKey : FailureClass → Bool :=
  inherits (· == .key)

/-- Whether a class reports a refusal of the operating system. -/
def isSystem : FailureClass → Bool :=
  inherits fun
    | .system _ => true
    | _ => false

/-- Whether a class signals the end of a sequence. -/
def isExhaustion : FailureClass → Bool :=
  inherits (· == .exhaustion)

/-- The number of values that errors of a class are made from, where a message
is not enough. -/
def arity? : FailureClass → Option Nat
  | .unicodeDecode | .unicodeEncode => some 5
  | .unicodeMapping => some 4
  | .derived _ _ base second => (arity? base).or (arity? second)
  | _ => none

/-- The class of the error that is thrown by throwing one of a class with just a
message. Where a message is not enough, making the error fails. -/
def thrown (c : FailureClass) : FailureClass :=
  if c.arity?.isSome then .type else c

end FailureClass

end QueryJournal

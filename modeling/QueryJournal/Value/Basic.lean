import QueryJournal.Failure.JournalError
import QueryJournal.Number.Decimal
import QueryJournal.Outcome
import QueryJournal.Time.Moment
import QueryJournal.Wire.Address
import QueryJournal.Wire.Uuid

/-!
# Values

The values that applications bind to statements and attach to log records:
scalars of the column types, containers, outcomes and errors.
-/

namespace QueryJournal

/-- A value of an application. -/
inductive Value where
  /-- No value. -/
  | null
  /-- A truth value. -/
  | truth (b : Bool)
  /-- An integer of any size. -/
  | int (n : Int)
  /-- Text. -/
  | text (s : String)
  /-- A double-precision number. -/
  | float (x : Binary)
  /-- Bytes. -/
  | bytes (bs : Bytes)
  /-- A decimal number. -/
  | decimal (d : Decimal)
  /-- A UUID. -/
  | uuid (u : Uuid)
  /-- A moment. -/
  | moment (t : Moment)
  /-- An internet address. -/
  | address (a : Address)
  /-- The outcome of a query. -/
  | outcome (o : Outcome)
  /-- A list. -/
  | list (xs : List Value)
  /-- A row of fixed length. -/
  | tuple (xs : List Value)
  /-- Keys with their values, in the order of their first appearance. -/
  | mapping (entries : List (Value × Value))
  /-- An error of a common class. A refusal of the system may name the paths
  that it is about. -/
  | fault (cls : FailureClass) (args paths : List Value)
  /-- An error of this library. -/
  | journalError (e : JournalError)
  /-- An object of a class of the application, which is shown by a text. -/
  | object (cls shown : String)
  /-- An object that fails when it is asked for its text. -/
  | unprintable (cls : FailureClass)

namespace Value

/-- The name of a value's class. -/
def className : Value → String
  | .null => "NoneType"
  | .truth _ => "bool"
  | .int _ => "int"
  | .text _ => "str"
  | .float _ => "float"
  | .bytes _ => "bytes"
  | .decimal _ => "Decimal"
  | .uuid _ => "UUID"
  | .moment _ => "datetime"
  | .address (.v4 _) => "IPv4Address"
  | .address (.v6 _ _) => "IPv6Address"
  | .outcome _ => "QueryOutcome"
  | .list _ => "list"
  | .tuple _ => "tuple"
  | .mapping _ => "dict"
  | .fault cls _ _ => cls.ownName
  | .journalError e => e.kind.name
  | .object cls _ => cls
  | .unprintable _ => "Unprintable"

/-- Whether a value counts as something: zeros, empty containers, empty text
and no value do not. -/
def isTruthy : Value → Bool
  | .null => false
  | .truth b => b
  | .int n => n != 0
  | .text s => s != ""
  | .float x => !x.isZero
  | .bytes bs => !bs.isEmpty
  | .decimal d => !d.isZero
  | .list xs => !xs.isEmpty
  | .tuple xs => !xs.isEmpty
  | .mapping entries => !entries.isEmpty
  | _ => true

/-- Whether a value is a number or stands for one. -/
def isNumeric : Value → Bool
  | .truth _ | .int _ | .float _ | .decimal _ | .uuid _ | .address _ => true
  | _ => false

/-- The number that a truth value or an integer stands for. -/
def asInt? : Value → Option Int
  | .truth b => some (if b then 1 else 0)
  | .int n => some n
  | _ => none

end Value

end QueryJournal

import QueryJournal.Column.Type
import QueryJournal.Wire.BigEndian

/-!
# Statements

What a query executes: plain text, a prepared text with a value for each of
its variables, or a batch of further statements. The driver marks queries of
its own, and objects of other kinds may be passed as well.
-/

namespace QueryJournal

/-- A variable of a prepared statement. -/
structure Column where
  /-- Its name. -/
  name : String
  /-- The type of its values. -/
  type : ColumnType
  deriving DecidableEq

/-- A value of a column type as bytes, or no value. -/
structure BoundValue where
  /-- The bytes, if there is a value. -/
  raw : Option Bytes
  /-- The type of the value. -/
  type : ColumnType
  deriving DecidableEq

namespace BoundValue

/-- The bytes of a value, none if there is no value. -/
def bytes (v : BoundValue) : Bytes :=
  v.raw.getD []

/-- A value without bytes counts as no value. -/
def isNull (v : BoundValue) : Bool :=
  v.bytes.isEmpty

end BoundValue

/-- A query text with its variables. -/
structure Prepared where
  /-- The text. -/
  query : String
  /-- The variables in their order. Names may be repeated. -/
  columns : List Column
  deriving DecidableEq

/-- A prepared statement with a value for each variable. -/
structure Bound where
  /-- The prepared statement. -/
  prepared : Prepared
  /-- The values in the order of the variables. -/
  values : List BoundValue
  /-- There are as many values as variables. -/
  length_eq : values.length = prepared.columns.length
  deriving DecidableEq

/-- The values with the names of their variables. -/
def Bound.named (b : Bound) : List (String × BoundValue) :=
  (b.prepared.columns.map Column.name).zip b.values

/-- The kinds of batches. -/
inductive BatchType where
  /-- Applied as a whole, by means of a log. -/
  | logged
  /-- Applied without a log. -/
  | unlogged
  /-- Changing counters only. -/
  | counter
  deriving DecidableEq

namespace BatchType

/-- All kinds in their fixed order. -/
def all : List BatchType :=
  [.logged, .unlogged, .counter]

/-- The name of a kind. -/
def name : BatchType → String
  | .logged => "LOGGED"
  | .unlogged => "UNLOGGED"
  | .counter => "COUNTER"

/-- The kind with a name. -/
def ofName? (s : String) : Option BatchType :=
  all.find? (·.name == s)

/-- The word by which the text of a batch tells its kind, none for the common
one. -/
def qualifier : BatchType → String
  | .logged => ""
  | .unlogged => " UNLOGGED"
  | .counter => " COUNTER"

end BatchType

/-- A statement. -/
inductive Statement where
  /-- A query text that is sent as it is. -/
  | plain (query : String)
  /-- A prepared statement without values, which cannot be executed. -/
  | prepared (p : Prepared)
  /-- A prepared statement with its values. -/
  | bound (b : Bound)
  /-- A group of statements that is applied as one. -/
  | batch (type : BatchType) (members : List Statement)
  /-- A query of the driver's own. -/
  | internal
  /-- An object that is no statement. -/
  | foreign

/-- A group of statements that is applied as one. -/
structure Batch where
  /-- The kind of the batch. -/
  type : BatchType
  /-- The statements in their order. -/
  members : List Statement

namespace Batch

/-- The batch as a statement. -/
def toStatement (b : Batch) : Statement :=
  .batch b.type b.members

/-- The batch that a statement is, if it is one. -/
def ofStatement? : Statement → Option Batch
  | .batch type members => some ⟨type, members⟩
  | _ => none

/-- The batch with some more members at its end. -/
def addAll (b : Batch) (statements : List Statement) : Batch :=
  { b with members := b.members ++ statements }

/-- The batch with one more member at its end. -/
def add (b : Batch) (s : Statement) : Batch :=
  b.addAll [s]

/-- The number of members. -/
def size (b : Batch) : Nat :=
  b.members.length

end Batch

end QueryJournal

/-!
# Column types

The primitive types of columns, with their names.
-/

namespace QueryJournal

/-- A primitive column type. -/
inductive ColumnType where
  /-- Text of seven-bit characters. -/
  | ascii
  /-- Text. -/
  | text
  /-- Text, by another name. -/
  | varchar
  /-- Integers of four bytes. -/
  | int
  /-- Integers of eight bytes. -/
  | bigint
  /-- Counters of eight bytes. -/
  | counter
  /-- Integers of two bytes. -/
  | smallint
  /-- Integers of one byte. -/
  | tinyint
  /-- Floating-point numbers of four bytes. -/
  | float
  /-- Floating-point numbers of eight bytes. -/
  | double
  /-- Integers of any size. -/
  | varint
  /-- Decimal numbers of any size. -/
  | decimal
  /-- Truth values. -/
  | boolean
  /-- Bytes. -/
  | blob
  /-- UUIDs. -/
  | uuid
  /-- UUIDs that are made from the time. -/
  | timeuuid
  /-- Moments to the millisecond. -/
  | timestamp
  /-- Internet addresses. -/
  | inet
  deriving DecidableEq

namespace ColumnType

/-- All types, in the order of their registration. -/
def all : List ColumnType :=
  [.ascii, .text, .varchar, .int, .bigint, .counter, .smallint, .tinyint,
    .float, .double,
    .varint, .decimal, .boolean, .blob, .uuid, .timeuuid, .timestamp, .inet]

/-- The name of a type. -/
def name : ColumnType → String
  | .ascii => "ascii"
  | .text => "text"
  | .varchar => "varchar"
  | .int => "int"
  | .bigint => "bigint"
  | .counter => "counter"
  | .smallint => "smallint"
  | .tinyint => "tinyint"
  | .float => "float"
  | .double => "double"
  | .varint => "varint"
  | .decimal => "decimal"
  | .boolean => "boolean"
  | .blob => "blob"
  | .uuid => "uuid"
  | .timeuuid => "timeuuid"
  | .timestamp => "timestamp"
  | .inet => "inet"

/-- The type with a name, which may be written in any case. Type names hold
plain letters only, and no other letter becomes one of theirs in lower case. -/
def ofName? (s : String) : Option ColumnType :=
  let lower := String.ofList (s.toList.map Char.toLower)
  all.find? (·.name == lower)

/-- A type as a constructor with its name. -/
def literal (t : ColumnType) : String :=
  "DataType(name='" ++ t.name ++ "')"

end ColumnType

end QueryJournal

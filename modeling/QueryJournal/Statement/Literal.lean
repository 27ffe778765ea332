import QueryJournal.Host
import QueryJournal.Statement.Basic
import QueryJournal.Text.Quoted

/-!
# Literals of statements

Statements and their parts as constructors with their fields, and when two of
them are equal: when they are of the same kind with equal fields.
-/

namespace QueryJournal

/-- A variable as a constructor with its fields. -/
def Column.literal (c : Column) : String :=
  "ColumnDefinition(name=" ++ Text.quoted c.name ++ ", type=" ++
  c.type.literal ++ ")"

/-- A bound value as a constructor with its fields. -/
def BoundValue.literal (v : BoundValue) : String :=
  "BoundValue(raw=" ++ (v.raw.map Text.quotedBytes).getD "None" ++
  ", data_type=" ++
    v.type.literal ++ ")"

/-- A prepared statement as a constructor with its fields. -/
def Prepared.literal (p : Prepared) : String :=
  "PreparedStatement(query_string=" ++ Text.quoted p.query ++ ", variables=" ++
    Value.inParentheses (p.columns.map Column.literal) ++ ")"

/-- A bound statement as a constructor with its fields. -/
def Bound.literal (b : Bound) : String :=
  "BoundStatement(prepared=" ++ b.prepared.literal ++ ", values=" ++
    Value.inParentheses (b.values.map BoundValue.literal) ++ ")"

/-- The kind of a batch as a member of its enumeration, numbered from one. -/
def BatchType.literal (t : BatchType) : String :=
  "<BatchType." ++ t.name ++ ": " ++
  Number.text ((all.idxOf t : Nat) + 1) ++ ">"

namespace Statement

mutual

/-- A statement as a constructor with its fields. -/
def literal : Statement → String
  | .plain query => "SimpleStatement(query_string=" ++ Text.quoted query ++ ")"
  | .prepared p => p.literal
  | .bound b => b.literal
  | .batch type members =>
    "BatchStatement(statements=" ++ Value.inParentheses (literals members) ++
      ", batch_type=" ++ type.literal ++ ")"
  | .internal => "INTERNAL_STATEMENT"
  | .foreign => "<object>"

/-- The literals of some statements, in order. -/
def literals : List Statement → List String
  | [] => []
  | s :: ss => literal s :: literals ss

end

mutual

/-- Whether two statements are equal. Objects that are no statements never
are. -/
def same : Statement → Statement → Bool
  | .plain q, .plain r => q == r
  | .prepared p, .prepared q => p == q
  | .bound b, .bound c => b == c
  | .batch t ms, .batch u ns => t == u && sameAll ms ns
  | .internal, .internal => true
  | _, _ => false

/-- Whether two rows hold equal statements. -/
def sameAll : List Statement → List Statement → Bool
  | [], [] => true
  | s :: ss, t :: ts => same s t && sameAll ss ts
  | _, _ => false

end

end Statement

/-- A thing with a literal that can be compared with others. -/
inductive Item where
  /-- A statement. -/
  | statement (s : Statement)
  /-- A host. -/
  | host (h : Host)
  /-- A bound value. -/
  | value (v : BoundValue)
  /-- A variable. -/
  | column (c : Column)
  /-- A column type. -/
  | type (t : ColumnType)

namespace Item

/-- The literal of a thing. -/
def literal : Item → String
  | .statement s => s.literal
  | .host h => h.literal
  | .value v => v.literal
  | .column c => c.literal
  | .type t => t.literal

/-- Whether two things are equal; things of different kinds are not. -/
def same : Item → Item → Bool
  | .statement s, .statement t => s.same t
  | .host h, .host i => h == i
  | .value v, .value w => v == w
  | .column c, .column d => c == d
  | .type t, .type u => t == u
  | _, _ => false

end Item

end QueryJournal

import QueryJournal.Column.Encode
import QueryJournal.Failure.Basic
import QueryJournal.Statement.Basic

/-!
# Binding values

Values are given to the variables of a prepared statement in their order, by
name, or both. A named value goes to the first variable of its name and
replaces a value given by order. Variables without a value hold none.
-/

namespace QueryJournal

/-- The bytes of a value for a column of a type. -/
def BoundValue.ofValue
    (type : ColumnType) : Value → Except CodecFault BoundValue
  | .null => .ok ⟨none, type⟩
  | v => do return ⟨some (← type.encode v), type⟩

namespace Prepared

/-- Whether a statement has a variable of a name. -/
def hasVariable (p : Prepared) (name : String) : Bool :=
  p.columns.any (·.name == name)

/-- Puts a named value in the place of the first variable of its name. -/
def place
    (p : Prepared) (slots : List Value) (entry : String × Value) : List Value :=
  slots.set (p.columns.findIdx (·.name == entry.1)) entry.2

/-- The values in the order of the variables, none where none is given. -/
def slots
    (p : Prepared) (positional : List Value)
    (named : List (String × Value)) : List Value :=
  let missing := p.columns.length - positional.length
  named.foldl p.place (positional ++ List.replicate missing .null)

/-- Pairs the statement with its values. -/
def withValues (p : Prepared) (values : List BoundValue) :
    Except Failure Bound :=
  if h : values.length = p.columns.length then .ok ⟨p, values, h⟩
  else .error (.wrongValueCount p.columns.length values.length)

/-- The bytes of the values for some variables. -/
def encodeAll : List Column → List Value → Except CodecFault (List BoundValue)
  | c :: cs, v :: vs => do
    let b ← BoundValue.ofValue c.type v
    return b :: (← encodeAll cs vs)
  | _, _ => .ok []

/-- The failure of a conversion in a row of them. An object that signals the end
of a sequence there breaks the row. -/
def conversionFailure (fault : CodecFault) : Failure :=
  if fault.cls.isExhaustion then .strayEnd else fault.toFailure

/-- Binds values by order and by name. Whether they fit the variables is settled
before any of them is written as bytes. -/
def bind
    (p : Prepared) (positional : List Value) (named : List (String × Value)) :
    Except Failure Bound := do
  if named.any (·.1 == ownName) then throw .badArguments
  if p.columns.length < positional.length then
    throw (.tooManyValues p.columns.length positional.length)
  if let some (name, _) := named.find? fun entry => !p.hasVariable entry.1 then
    throw (.notAVariable name)
  let values ← (encodeAll p.columns (p.slots positional named)).mapError
    conversionFailure
  p.withValues values

end Prepared

end QueryJournal

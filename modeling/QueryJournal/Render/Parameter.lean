import QueryJournal.Column.Decode
import QueryJournal.Render.Budget
import QueryJournal.Statement.Basic

/-!
# The text of bound values

A bound value is printed by its column type and cut to a number of characters.
The absence of a value is never cut.
-/

namespace QueryJournal

/-- The text that stands for the absence of a value. -/
def nullText : String :=
  "NULL"

/-- Cuts a text to a number of characters and marks the cut. A limit of -1 is
none; other negative limits drop characters from the end. -/
def Text.cut (limit : Int) (s : String) : String :=
  if limit = -1 ∨ (s.length : Int) ≤ limit then s
  else
    let kept := if limit < 0 then s.length + limit else limit
    take kept.toNat s ++ ellipsis

/-- The text of a bound value within a limit. -/
def BoundValue.render (limit : Int) (v : BoundValue) : Except Failure String :=
  if v.isNull then .ok nullText
  else
    match v.type.print v.bytes with
    | .ok s => .ok (Text.cut limit s)
    | .error fault => .error (.rendering v.type v.bytes.length fault)

/-- The text of a bound value within a limit, if there is one. -/
def BoundValue.renderOptional (limit : Int) :
    Option BoundValue → Except Failure String
  | some v => v.render limit
  | none => .ok nullText

end QueryJournal

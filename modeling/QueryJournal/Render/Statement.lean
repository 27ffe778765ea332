import QueryJournal.Render.Budget
import QueryJournal.Statement.Basic

/-!
# The text of statements

Statements are written into a budget, so that all members of a batch share it.
Every statement ends with a semicolon; statements of the driver leave no trace.
-/

namespace QueryJournal

/-- Closes a statement, unless a semicolon stands there already. -/
def Budget.close (b : Budget) : Budget :=
  if b.endsWith ";" then b else b.append ";"

namespace Statement

/-- The text that stands for an object that is no statement. -/
def placeholder : String :=
  "??Unknown Statement??"

mutual

/-- Adds the text of a statement to a budget. -/
def writeTo (b : Budget) : Statement → Budget
  | .internal => b
  | .plain query => (b.append (Text.trim query)).close
  | .bound values => (b.append (Text.trim values.prepared.query)).close
  | .batch type members =>
    let opened := ((b.append "BEGIN").append type.qualifier).append " BATCH"
    ((writeMembers opened members).append " APPLY BATCH").close
  | .prepared _ | .foreign => (b.append placeholder).close

/-- Adds the texts of the members of a batch to a budget, each after a space. -/
def writeMembers (b : Budget) : List Statement → Budget
  | [] => b
  | .internal :: members => writeMembers b members
  | member :: members => writeMembers (writeTo (b.append " ") member) members

end

/-- The text of a statement, cut to a number of characters unless the limit is
-1. -/
def renderWithin (limit : Int) (s : Statement) : Except Failure String := do
  let b ← Budget.ofLimit limit
  return (writeTo b s).text

mutual

/-- How many calls inside of one another add the text of a statement to a
budget: one, and for a batch also those for its members, unless nothing remains
in the budget. -/
def levels (b : Budget) : Statement → Nat
  | .batch type members =>
    if b.isExhausted then 1
    else memberLevels
      (((b.append "BEGIN").append type.qualifier).append " BATCH") members + 1
  | _ => 1

/-- The most calls inside of one another for a member of a batch. -/
def memberLevels (b : Budget) : List Statement → Nat
  | [] => 0
  | .internal :: members => memberLevels b members
  | member :: members =>
    let spaced := b.append " "
    max (levels spaced member) (memberLevels (writeTo spaced member) members)

end

/-- The whole text of a statement. -/
def render (s : Statement) : String :=
  (writeTo .unlimited s).text

end Statement

namespace Budget

/-- Something that is done with a budget. -/
inductive Step where
  /-- A chunk is added. -/
  | append (chunk : String)
  /-- A statement is added. -/
  | render (s : Statement)
  /-- The end of the text is asked for. -/
  | endsWith (suffix : String)

/-- What a step answers. -/
inductive Answer where
  /-- Nothing. -/
  | done
  /-- The collected text. -/
  | text (s : String)
  /-- Whether something holds. -/
  | truth (b : Bool)

/-- Does one step. -/
def step (b : Budget) : Step → Budget × Answer
  | .append chunk => (b.append chunk, .done)
  | .render s =>
    let written := s.writeTo b
    (written, .text written.text)
  | .endsWith suffix => (b, .truth (b.endsWith suffix))

/-- Does some steps and answers each, with the budget after it. -/
def run (b : Budget) : List Step → List (Budget × Answer)
  | [] => []
  | s :: steps =>
    let next := b.step s
    next :: run next.1 steps

end Budget

end QueryJournal

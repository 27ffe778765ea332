import QueryJournal.Logging.Level

/-!
# Loggers

Loggers form a tree by their dotted names, with a root above all of them. A
logger without a level of its own takes that of the nearest logger above it
that has one.
-/

namespace QueryJournal

/-- The levels of the loggers. -/
structure Loggers where
  /-- The level of the root. -/
  rootLevel : Int
  /-- The loggers below it in the order in which they appeared, with their
  levels, zero for none. -/
  levels : List (String × Int)

namespace Loggers

/-- The name of the root. -/
def rootName : String :=
  "root"

/-- The logger under which all others of the journal are. -/
def journalName : String :=
  "querylog"

/-- The logger for the journal's own troubles. -/
def troubleName : String :=
  "querylog.observability"

/-- The logger for the troubles of trackers. -/
def trackerName : String :=
  "querylog.observability.tracker"

/-- The name under which a logger is known: the empty one is the root's. -/
def canonical (name : String) : String :=
  if name = "" then rootName else name

/-- A name within the journal. Names that are not are put below it. -/
def withinJournal : Option String → String
  | none => journalName
  | some name =>
    if name = journalName ∨
      (journalName ++ ".").toList.isPrefixOf name.toList then name
    else journalName ++ "." ++ name

/-- Before any level is set only the root has one. -/
def initial : Loggers :=
  ⟨Level.warning, [(journalName, 0), (troubleName, 0), (trackerName, 0)]⟩

/-- Whether a logger below the root exists. -/
def knows (ls : Loggers) (name : String) : Bool :=
  ls.levels.any (·.1 == name)

/-- The logger exists afterwards; nothing else changes. -/
def touch (ls : Loggers) (name : String) : Loggers :=
  if canonical name = rootName ∨ ls.knows name then ls
  else { ls with levels := ls.levels ++ [(name, 0)] }

/-- Sets the level of a logger. -/
def setLevel (ls : Loggers) (name : String) (level : Int) : Loggers :=
  if canonical name = rootName then { ls with rootLevel := level }
  else
    let ls := ls.touch name
    { ls with levels := ls.levels.map fun l =>
      if l.1 = name then (name, level) else l }

/-- The existing loggers between the root and the one whose name is given
backwards, nearest first. They stand before the dots of the name. Of two dots
in a row the first counts only if a logger stands before the second. -/
def above (ls : Loggers) : Bool → List Char → List String
  | _, [] => []
  | skip, c :: rest =>
    if c ≠ '.' ∨ skip ∨ rest.isEmpty then above ls false rest
    else
      let name := String.ofList rest.reverse
      if ls.knows name then name :: above ls false rest else above ls true rest

/-- Whether a logger was there before another one. -/
def precedes (ls : Loggers) (name other : String) : Bool :=
  ls.levels.findIdx (·.1 == name) < ls.levels.findIdx (·.1 == other)

/-- A logger whose name is the beginning of the root's takes no logger away from
the root that was there before. -/
def withoutLate (ls : Loggers) : List String → List String
  | [] => []
  | [name] => [name]
  | name :: above :: rest =>
    if above.toList.isPrefixOf rootName.toList ∧
      ls.precedes name above then [name]
    else name :: withoutLate ls (above :: rest)

/-- A logger below the root with those above it, nearest first. -/
def lineage (ls : Loggers) (name : String) : List String :=
  if canonical name = rootName then []
  else ls.withoutLate (name :: ls.above false name.toList.reverse)

/-- The level of a logger below the root, zero for none. -/
def ownLevel (ls : Loggers) (name : String) : Int :=
  (ls.levels.lookup name).getD 0

/-- The level that counts for a logger. -/
def effectiveLevel (ls : Loggers) (name : String) : Int :=
  (((ls.lineage name).map ls.ownLevel).find? (· != 0)).getD ls.rootLevel

/-- Whether a logger takes records of a level, which must be positive. -/
def isEnabled (ls : Loggers) (name : String) (level : Int) : Bool :=
  0 < level && ls.effectiveLevel name ≤ level

end Loggers

end QueryJournal

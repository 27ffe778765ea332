import QueryJournal.Logging.Basic

/-!
# Gates

A gate is a logger with two levels. At the base level it lets a query through,
at the detail level also the values bound to it. A gate may be faulty: then it
throws an error where it is asked or used.
-/

namespace QueryJournal

/-- What is asked of a gate. -/
inductive Gate.Use where
  /-- Whether the base level is enabled. -/
  | base
  /-- Whether the detail level is enabled. -/
  | detail
  /-- That it logs a record. -/
  | emit
  deriving DecidableEq

/-- A logger with two levels. -/
structure Gate where
  /-- The name of the gate. -/
  name : String
  /-- The name of its logger. -/
  logger : String
  /-- The level of the records that it logs. -/
  base : Int
  /-- The level at which bound values are shown. -/
  detail : Int
  /-- The use that fails, and the error that it throws. -/
  fault : Option (Gate.Use × ErrorValue)

namespace Gate

/-- The logger of the gate with a name, unless another one is chosen. -/
def loggerOf (name : String) : String :=
  "querylog.query." ++ name

/-- The gate with a name and the usual levels. -/
def ofName (name : String) : Gate :=
  ⟨name, loggerOf name, Level.debug, Level.trace, none⟩

/-- Fails if the gate is faulty in a use. -/
def check (g : Gate) (use : Use) : Except Failure Unit :=
  match g.fault with
  | some (faulty, e) => if faulty = use then .error (.thrown e) else .ok ()
  | none => .ok ()

/-- Whether the base level is enabled. -/
def baseEnabled (g : Gate) (ls : Loggers) : Bool :=
  ls.isEnabled g.logger g.base

/-- Whether the detail level is enabled. -/
def detailEnabled (g : Gate) (ls : Loggers) : Bool :=
  ls.isEnabled g.logger g.detail

/-- The answer of the gate in a use. -/
def ask (g : Gate) (use : Use) (answer : Bool) : Except Failure Bool := do
  g.check use
  return answer

/-- Asks whether the base level is enabled. -/
def askBase (g : Gate) (ls : Loggers) : Except Failure Bool :=
  g.ask .base (g.baseEnabled ls)

/-- Asks whether the detail level is enabled. -/
def askDetail (g : Gate) (ls : Loggers) : Except Failure Bool :=
  g.ask .detail (g.detailEnabled ls)

/-- A gate as a constructor with its fields. -/
def literal (g : Gate) : String :=
  "ChannelGate(name=" ++ Text.quoted g.name ++ ", logger=" ++
  Text.quoted g.logger ++
    ", base_level=" ++ Level.text g.base ++ ", detail_level=" ++
    Level.text g.detail ++ ")"

end Gate

end QueryJournal

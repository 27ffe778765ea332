import QueryJournal.Logging.Configure
import QueryJournal.Query.Recorder
import QueryJournal.Tracker.Registry

/-!
# Sessions

A session is a recorder and a registry of trackers at work: queries complete,
settings and levels change, trackers come and go, and all that is logged or
noted on the way is told as events.
-/

namespace QueryJournal

/-- A tracker is told about a query. -/
structure Tracker.Call where
  /-- The name of the tracker. -/
  tracker : String
  /-- The query, with host, statement, failure and latency as they are. -/
  query : Query

/-- Something that happens in a session. -/
inductive Session.Event where
  /-- A sink took a record. -/
  | logged (d : Delivery)
  /-- A tracker was told about a query. -/
  | called (c : Tracker.Call)

/-- A recorder and a registry of trackers at work. -/
structure Session where
  /-- The loggers with their sinks. -/
  logging : Logging
  /-- The recorder. -/
  recorder : Recorder
  /-- All trackers that may be registered. -/
  trackers : List Tracker
  /-- The registered trackers. -/
  registry : Registry

namespace Session

/-- The name by which the recorder is known among the trackers. -/
def recorderName : String :=
  "query_logger"

/-- A session without registered trackers. The loggers of its gates exist, and
the recorder is a tracker itself. -/
def start (l : Logging) (r : Recorder) (trackers : List Tracker) : Session where
  logging := Outcome.all.foldl (fun l o => l.touch (r.channels o).logger) l
  recorder := r
  trackers := ⟨recorderName, none, .journal⟩ :: trackers
  registry := []

/-- The tracker with a name. -/
def tracker (s : Session) (name : String) : Except Failure Tracker :=
  match s.trackers.find? (·.name == name) with
  | some t => .ok t
  | none => .error (.unknownName name)

/-- Makes one change of the registered trackers. -/
def change (s : Session) : Tracker.Change → Except Failure Session
  | .leave name => do
    let t ← s.tracker name
    return { s with registry := (s.registry.unregister t).1 }
  | .join name => do
    let t ← s.tracker name
    return { s with registry := s.registry.register t }

/-- Makes some changes of the registered trackers, until one fails. -/
def changeAll (s : Session) :
    List Tracker.Change → Session × Except Failure Unit
  | [] => (s, .ok ())
  | c :: cs =>
    match s.change c with
    | .ok changed => changed.changeAll cs
    | .error f => (s, .error f)

/-- Makes the changes of a script, and then ends as the script does. -/
def play (s : Session) (script : Tracker.Script) (q : Query) :
    Session × Except Failure Unit :=
  let (changed, outcome) := s.changeAll (script.changes q)
  (changed, do
    outcome
    match script.throws q with
    | some f => throw f
    | none => return ())

/-- A recorder logs a query. -/
def recordBy (s : Session) (r : Recorder) (q : Query) : Run Event Unit :=
  (r.update s.logging q).mapEvents .logged

/-- What a tracker does about a query. -/
def act (s : Session) (q : Query) (t : Tracker) : Session × Run Event Unit :=
  match t.role with
  | .journal => (s, s.recordBy s.recorder q)
  | .recorder r => (s, s.recordBy r q)
  | .scripted script =>
    let (changed, outcome) := s.play script q
    (changed, Run.ofExcept outcome)

/-- Tells one tracker about a query. -/
def tell (s : Session) (q : Query) (t : Tracker) : Session × Run Event Unit :=
  let (changed, run) := s.act q t
  (changed, ⟨.called ⟨t.name, q⟩ :: run.events, run.result⟩)

/-- Reports that a tracker failed. -/
def reportTracker (s : Session) (t : Tracker) (f : Failure) : Run Event Unit :=
  (s.logging.report Loggers.trackerName Level.error "Latency tracker %r failed"
    [t.toValue] f).mapEvents .logged

/-- Tells some trackers about a query, one after the other. The ordinary
failures of one are reported and do not concern the others. -/
def tellAll (s : Session) (q : Query) : List Tracker → Session × Run Event Unit
  | [] => (s, return ())
  | t :: ts =>
    let (told, run) := s.tell q t
    let run := run.recoverOrdinary (s.reportTracker t)
    match run.result with
    | .error _ => (told, run)
    | .ok () =>
      let (last, rest) := told.tellAll q ts
      (last, ⟨run.events ++ rest.events, rest.result⟩)

/-- Tells the trackers that are registered now about a query. -/
def notify (s : Session) (q : Query) : Session × Run Event Unit :=
  s.tellAll q s.registry

/-- A step of a session. -/
inductive Step where
  /-- A query completed, with or without a timeout. -/
  | record (q : Query) (timedOut : Bool)
  /-- A query completed; its failure tells whether it timed out. -/
  | update (q : Query)
  /-- A query completed, and the trackers are told. -/
  | notify (q : Query)
  /-- A setting is written. -/
  | set (field : String) (v : Value)
  /-- The level of a logger is set. -/
  | level (logger : String) (choice : Logging.LevelChoice)
  /-- The gate of an outcome is asked for. -/
  | channel (outcome : String)
  /-- A tracker is registered. -/
  | register (name : String)
  /-- A tracker is removed. -/
  | unregister (name : String)
  /-- It is asked whether a tracker is registered. -/
  | contains (name : String)
  /-- It is asked whether something is a tracker. -/
  | isTracker (name : Option String)
  /-- A message is logged. -/
  | log (logger : Option String) (level : Int) (message : String)
      (args : List Value)
  /-- The journal's log is configured. -/
  | configure (c : Logging.Configuration)

/-- What a step answers. -/
inductive Answer where
  /-- Nothing. -/
  | done
  /-- A text. -/
  | text (s : String)
  /-- Whether something holds. -/
  | truth (b : Bool)
  /-- The logging that is now in force. -/
  | configured (l : Logging)

/-- A run that answers nothing. -/
def quiet (r : Run Delivery Unit) : Run Event Answer :=
  (do r; return .done : Run Delivery Answer).mapEvents .logged

/-- Writes a setting. -/
def setting (s : Session) (field : String) (v : Value) :
    Session × Run Event Answer :=
  match s.recorder.settings.setNamed field v with
  | .ok changed =>
    ({ s with recorder := { s.recorder with settings := changed } },
      return .done)
  | .error f => (s, Run.fail f)

/-- Changes or asks about the registered trackers. -/
def withTracker
    (s : Session) (name : String) (use : Tracker → Registry × Answer) :
    Session × Run Event Answer :=
  match s.tracker name with
  | .ok t =>
    let (registry, answer) := use t
    ({ s with registry }, return answer)
  | .error f => (s, Run.fail f)

/-- Does one step. -/
def step (s : Session) : Step → Session × Run Event Answer
  | .record q timedOut => (s, quiet (s.recorder.record s.logging q timedOut))
  | .update q => (s, quiet (s.recorder.update s.logging q))
  | .notify q =>
    let (told, run) := s.notify q
    (told, do run; return .done)
  | .set field v => s.setting field v
  | .level logger choice =>
    match choice.direct with
    | .ok n => ({ s with logging := s.logging.setLevel logger n }, return .done)
    | .error f => ({ s with logging := s.logging.touch logger }, Run.fail f)
  | .channel outcome =>
    match Outcome.ofName? outcome with
    | some o => (s, return .text (s.recorder.channels o).literal)
    | none => (s, Run.fail .notAMember)
  | .register name =>
    s.withTracker name fun t => (s.registry.register t, .text t.name)
  | .unregister name => s.withTracker name fun t =>
    let (registry, removed) := s.registry.unregister t
    (registry, .truth removed)
  | .contains name =>
    s.withTracker name fun t => (s.registry, .truth (s.registry.holds t))
  | .isTracker none => (s, return .truth false)
  | .isTracker (some name) =>
    s.withTracker name fun _ => (s.registry, .truth true)
  | .log logger level message args =>
    let name := Loggers.withinJournal logger
    let logging := s.logging.touch name
    ({ s with logging },
      quiet (logging.log (logging.record name level message args)))
  | .configure c =>
    let (logging, run) := s.logging.configure c
    let told : Run Delivery Answer := do run; return .configured logging
    ({ s with logging }, told.mapEvents .logged)

end Session

end QueryJournal

import QueryJournal.Failure.Initialise
import QueryJournal.Logging.Run

/-!
# Initialising errors in place

An error is an object that is initialised where it stands, once or more often.
An initialisation reads the detail that the object has so far, and writes one
part after the other. What it has written stays written, whatever happens then.
-/

namespace QueryJournal.JournalError

/-- An error as an object, before or after it was initialised. -/
structure Object where
  /-- Its class. -/
  kind : JournalKind
  /-- The detail that was written, if one was. -/
  ownDetail : Option String
  /-- The values that it was made from and, once it was initialised, the further
  texts. -/
  args : List Value
  /-- The setting that was rejected, if that is what went wrong. -/
  setting : Option Subject

/-- A part of an error that is written. -/
inductive Write where
  /-- The detail. -/
  | detail (s : String)
  /-- The further texts. -/
  | args (texts : List String)
  /-- The setting, or that there is none. -/
  | setting (s : Option Subject)

namespace Object

/-- An object that was made from some values and not initialised yet. -/
def blank (kind : JournalKind) (values : List Value) : Object :=
  ⟨kind, none, values, none⟩

/-- An error as the object that it is. -/
def ofError (e : JournalError) : Object :=
  ⟨e.kind, some e.detail, e.args.map .text, e.setting⟩

/-- The detail that an object is known by: its own, or else the one of its
class. -/
def detail (o : Object) : String :=
  (o.ownDetail.or o.kind.classDetail).getD ""

/-- Writes a part. -/
def write (o : Object) : Write → Object
  | .detail s => { o with ownDetail := some s }
  | .args texts => { o with args := texts.map .text }
  | .setting s => { o with setting := s }

/-- What an initialisation of an object writes, and how it ends. -/
def initialise (o : Object) (a : Arguments) : Run Write Unit := do
  let some (values, setting) := accept? o.kind.cls a | Run.fail .badArguments
  let items ← Run.ofExcept ((texts values).mapError Unprintable.toFailure)
  let (detail, args) := settle o.detail (a.detail.getD "") items
  Run.emit (.detail detail)
  Run.emit (.args args)
  Run.emit (.setting setting)

/-- The object after an initialisation, which may have failed. -/
def initialised (o : Object) (a : Arguments) : Object :=
  (o.initialise a).events.foldl write o

end Object

end QueryJournal.JournalError

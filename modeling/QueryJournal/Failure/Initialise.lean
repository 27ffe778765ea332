import QueryJournal.Failure.Basic

/-!
# Making errors

Errors are made from values. In the library's own those that count as nothing
are skipped, the others are turned into texts, and the first text becomes the
detail unless one is given; some classes take a single message and supply one
of their own when it is left out. Refusals of the system take a number with its
meaning, and the paths that they are about.
-/

namespace QueryJournal

/-- What an error is made from. -/
structure JournalError.Arguments where
  /-- The values in their order. -/
  values : List Value
  /-- The detail, if one is named. -/
  detail : Option String
  /-- The setting, if one is named. -/
  setting : Option Value

namespace JournalError

/-- The texts of the values that count as something. -/
def texts : List Value → Except Unprintable (List String)
  | [] => .ok []
  | v :: vs =>
    if v.isTruthy then do
      let s ← v.plain
      return s :: (← texts vs)
    else texts vs

/-- The message that a class supplies when none is given. -/
def defaultMessage : JournalClass → String
  | .rendering => "Issues rendering bound value."
  | .timeout => "Query timed out."
  | _ => ""

/-- The message of a class that takes a single one. -/
def message?
    (cls : JournalClass) (a : Arguments) : Option Value :=
  match a.detail, a.setting, a.values with
  | none, none, [] | none, none, [.null] => some (.text (defaultMessage cls))
  | none, none, [v] => some v
  | _, _, _ => none

/-- The setting that a value names. -/
def Subject.ofValue? : Value → Option Subject
  | .text s => some (.name s)
  | .int n => some (.number n)
  | .truth b => some (.truth b)
  | _ => none

/-- The message and the setting of a rejected setting. -/
def settingMessage? (a : Arguments) : Option (Value × Option Subject) :=
  match a.detail, a.setting, a.values with
  | none, setting, [v] => some (v, setting.bind Subject.ofValue?)
  | none, none, [v, setting] => some (v, Subject.ofValue? setting)
  | _, _, _ => none

/-- The values that become the texts of an error, with its setting; none if the
class does not take such arguments. -/
def accept?
    (cls : JournalClass) (a : Arguments) :
    Option (List Value × Option Subject) :=
  match cls with
  | .base | .serialization =>
    if a.setting.isNone then some (a.values, none) else none
  | .rendering | .timeout => (message? cls a).map fun v => ([v], none)
  | .configuration => (settingMessage? a).map fun (v, setting) => ([v], setting)

/-- Initialises an error whose detail was `previous` before. -/
def initialise
    (kind : JournalKind) (previous : String) (a : Arguments) :
    Except Failure JournalError := do
  let some (values, setting) := accept? kind.cls a | throw .badArguments
  let items ← (texts values).mapError Unprintable.toFailure
  let (detail, args) := settle previous (a.detail.getD "") items
  return { kind, detail, args, setting }

/-- Makes an error; the detail of its class, if it has one, is there before. -/
def make (kind : JournalKind) (a : Arguments) : Except Failure JournalError :=
  initialise kind (kind.classDetail.getD "") a

/-- Initialises an error once more. -/
def again (e : JournalError) (a : Arguments) : Except Failure JournalError :=
  initialise e.kind e.detail a

end JournalError

namespace ErrorValue

/-- The second path of a refusal after the first: it follows a value that is
ignored, and may be missing. -/
def secondPath : List Value → List Value
  | [_, .null] => []
  | [_, path] => [path]
  | _ => []

/-- A refusal of the system made from its number, its meaning and at most three
further values, of which the first and the last are paths. The paths are no
longer among its values. -/
def ofReason
    (cls : SystemClass) (number meaning : Value) (more : List Value) :
    Except Failure ErrorValue :=
  let whole : ErrorValue := .common (.system cls) (number :: meaning :: more) []
  match more with
  | [] | .null :: _ => .ok whole
  | path :: rest =>
    let named : ErrorValue :=
      .common (.system cls) [number, meaning] (path :: secondPath rest)
    if cls = .blocking ∧ path.isNumeric then
      match path.asInt? with
      | some n =>
        if BigEndian.fits 8 n then .ok whole else .error .countTooLarge
      | none => .error .badArguments
    else .ok named

/-- A refusal of the system made from some values. Two to five of them give a
reason, and the number among them tells the class. -/
def ofSystem (cls : SystemClass) (values : List Value) :
    Except Failure ErrorValue :=
  match values with
  | number :: meaning :: more =>
    if more.length ≤ 3 then
      ofReason ((number.asInt?.map cls.refine).getD cls) number meaning more
    else .ok (.common (.system cls) values [])
  | values => .ok (.common (.system cls) values [])

/-- Fails unless a value tells a place. -/
def checkPlace (v : Value) : Except Failure Unit :=
  match v.asInt? with
  | some n => if BigEndian.fits 8 n then .ok () else .error (.codec .overflow)
  | none => .error .badArguments

/-- Whether errors of a class, which is one of an encoding, are about a value:
bytes are read, texts are written. -/
def concerns (cls : FailureClass) : Value → Bool
  | .bytes _ => cls == .unicodeDecode
  | .text _ => cls != .unicodeDecode
  | _ => false

/-- Fails unless some values tell what was read or written, the places where the
trouble starts and ends, and the reason. -/
def checkTrouble (cls : FailureClass) : List Value → Except Failure Unit
  | [object, start, stop, reason] => do
    if !concerns cls object then throw .badArguments
    checkPlace start
    checkPlace stop
    match reason with
    | .text _ => return ()
    | _ => throw .badArguments
  | _ => .error .badArguments

/-- Fails unless errors of a class can be made from some values. Where an
encoding is to be named, it comes first. -/
def checkValues (cls : FailureClass) (values : List Value) :
    Except Failure Unit :=
  match cls, values with
  | .unicodeDecode, .text _ :: rest | .unicodeEncode, .text _ :: rest =>
    checkTrouble cls rest
  | .unicodeDecode, _ | .unicodeEncode, _ => .error .badArguments
  | .unicodeMapping, values => checkTrouble cls values
  | _, _ => .ok ()

/-- The same error as one of a class that its own is a base of. -/
def derive (e : ErrorValue) (cls : FailureClass) : ErrorValue :=
  match e with
  | .common _ args paths => .common cls args paths
  | .journal e => .journal { e with kind := { e.kind with name := cls.name } }

/-- The error object of a class made from some values. Those of derived classes
are made like those of the first class that they are derived from. -/
def make (cls : FailureClass) (values : List Value) :
    Except Failure ErrorValue :=
  match cls with
  | .journal own =>
    (JournalError.make (.own own) ⟨values, none, none⟩).map .journal
  | .system kind => ofSystem kind values
  | .derived place name base second =>
    (make base values).map fun e => e.derive (.derived place name base second)
  | cls => do
    checkValues cls values
    return .common cls values []

end ErrorValue

/-- The library's classes and those of the common classes that one of them
extends, with what they are extended by, in their fixed order. -/
def FailureClass.ancestry : List (FailureClass × List JournalClass) :=
  [(.journal .configuration, [.configuration]),
    (.journal .base,
      [.base, .configuration, .timeout, .rendering, .serialization]),
    (.journal .timeout, [.timeout]), (.journal .rendering, [.rendering]),
    (.journal .serialization, [.serialization]), (.system .general, [.timeout]),
    (.system .timeout, [.timeout]), (.value, [.configuration])]

/-- The classes that an error of the library belongs to, in their fixed
order. -/
def JournalError.classes (e : JournalError) : List FailureClass :=
  (FailureClass.ancestry.filter fun entry =>
    entry.2.contains e.kind.cls).map (·.1)

end QueryJournal

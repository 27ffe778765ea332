import QueryJournal.Settings.Basic

/-!
# Settings by name

Several settings side by side, each under a name of its own, and the
operations on them. An operation changes at most the settings that it names
as its target.
-/

namespace QueryJournal.Settings

/-- Settings by name, in the order in which the names appeared. -/
abbrev Shelf :=
  List (String × Settings)

namespace Shelf

/-- The settings under a name. -/
def find (shelf : Shelf) (name : String) : Except Failure Settings :=
  match shelf.lookup name with
  | some s => .ok s
  | none => .error (.unknownName name)

/-- Stores settings under a name. -/
def put (name : String) (s : Settings) : Shelf → Shelf
  | [] => [(name, s)]
  | (other, t) :: rest =>
    if other = name then (name, s) :: rest else (other, t) :: put name s rest

theorem lookup_put_same (shelf : Shelf) (name : String) (s : Settings) :
    (shelf.put name s).lookup name = some s := by
  induction shelf with
  | nil => simp [put]
  | cons entry rest ih =>
    obtain ⟨key, t⟩ := entry
    by_cases h : key = name
    · simp [put, h]
    · have hfalse : (name == key) = false := by simpa using Ne.symm h
      simpa [put, h, List.lookup_cons, hfalse] using ih

theorem lookup_put_of_ne
    (shelf : Shelf) {name other : String}
    (s : Settings) (hother : other ≠ name) :
    (shelf.put name s).lookup other = shelf.lookup other := by
  have hname : (other == name) = false := by simpa using hother
  induction shelf with
  | nil => simp [put, List.lookup_cons, hname]
  | cons entry rest ih =>
    obtain ⟨key, t⟩ := entry
    by_cases h : key = name
    · simp [put, h, List.lookup_cons, hname]
    · simp [put, h, List.lookup_cons, ih]

end Shelf

/-- An operation on named settings. -/
inductive Action where
  /-- Makes settings from values. -/
  | new (target : String) (fields : List (String × Value))
  /-- Writes one field. -/
  | set (target : String) (field : String) (v : Value)
  /-- Writes some fields in turn. -/
  | setInTurn (target : String) (fields : List (String × Value))
  /-- Makes settings that differ from others in some fields. -/
  | replace (source target : String) (fields : List (String × Value))
  /-- Makes settings that equal others. -/
  | copy (source target : String)
  /-- Compares two settings. -/
  | equal (left right : String)
  /-- Compares settings with a value, which they never equal. -/
  | equalValue (left : String)

/-- What an operation answers: nothing, or whether two things are equal. -/
abbrev Action.Answer :=
  Except Failure (Option Bool)

/-- The shelf with the result of an operation under a name, and the answer. A
failed operation leaves the shelf as it is. -/
def Shelf.store
    (shelf : Shelf) (name : String) (result : Except Failure Settings) :
    Shelf × Action.Answer :=
  match result with
  | .ok s => (shelf.put name s, .ok none)
  | .error f => (shelf, .error f)

/-- Does one operation. -/
def Shelf.act (shelf : Shelf) : Action → Shelf × Action.Answer
  | .new target fields => shelf.store target (make fields)
  | .set target field v =>
    shelf.store target do (← shelf.find target).setNamed field v
  | .setInTurn target fields =>
    match shelf.find target with
    | .ok s =>
      let (changed, outcome) := s.setInTurn fields
      (shelf.put target changed, outcome.map fun _ => none)
    | .error f => (shelf, .error f)
  | .replace source target fields =>
    shelf.store target do (← shelf.find source).replace fields
  | .copy source target => shelf.store target (shelf.find source)
  | .equal left right => (shelf, do
    let s ← shelf.find left
    let t ← shelf.find right
    return some (s.same t))
  | .equalValue left => (shelf, do
    let _ ← shelf.find left
    return some false)

/-- Does some operations and answers each, with the shelf after it. -/
def Shelf.run (shelf : Shelf) : List Action → List (Shelf × Action.Answer)
  | [] => []
  | a :: actions =>
    let next := shelf.act a
    next :: run next.1 actions

end QueryJournal.Settings

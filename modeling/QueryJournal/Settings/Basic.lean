import QueryJournal.Failure.Basic

/-!
# Settings

The settings of the journal. Every field always holds a number that the field
accepts: a write with any other value fails and changes nothing.
-/

namespace QueryJournal

/-- Settings with an accepted number in every field. -/
structure Settings where
  /-- The number in a field. -/
  get : Setting → Int
  /-- Every field accepts its number. -/
  accepted : ∀ field : Setting, field.accepts (get field) = true

namespace Settings

/-- The number that a field holds when none is given. -/
def defaultOf : Setting → Int
  | .slowThreshold => 5000
  | .queryLength => 500
  | .valueLength => 50

/-- The settings when none are given. -/
def standard : Settings :=
  ⟨defaultOf, fun field => by cases field <;> rfl⟩

/-- The settings with another number in one field. -/
def update
    (s : Settings) (field : Setting) (n : Int) (h : field.accepts n = true) :
    Settings where
  get other := if other = field then n else s.get other
  accepted other := by
    by_cases hother : other = field
    · simp [hother, h]
    · simp [hother, s.accepted other]

theorem get_update_same
    (s : Settings) (field : Setting) (n : Int) (h : field.accepts n = true) :
    (s.update field n h).get field = n := by
  simp [update]

theorem get_update_of_ne
    (s : Settings) {field other : Setting}
    (n : Int) (h : field.accepts n = true) (hother : other ≠ field) :
    (s.update field n h).get other = s.get other := by
  simp [update, hother]

/-- The failure to write a value to a field. -/
def refusal (field : Setting) (v : Value) : Failure :=
  match v.literal with
  | .ok literal => .rejected field literal
  | .error u => u.toFailure

/-- Writes a value to a field, which accepts integers only. -/
def set (s : Settings) (field : Setting) (v : Value) :
    Except Failure Settings :=
  match v with
  | .int n =>
    if h : field.accepts n = true then .ok (s.update field n h)
    else .error (refusal field v)
  | _ => .error (refusal field v)

/-- The last value given for a field. -/
def given? (field : Setting) (fields : List (String × Value)) : Option Value :=
  (fields.reverse.find? (·.1 == field.name)).map (·.2)

/-- Writes the values given for the fields, in the order of the fields. -/
def setAll (s : Settings) (fields : List (String × Value)) :
    Except Failure Settings :=
  Setting.all.foldlM (fun s field =>
    match given? field fields with
    | some v => s.set field v
    | none => .ok s) s

/-- The first name that is no field. -/
def unknown? (fields : List (String × Value)) : Option String :=
  (fields.map (·.1)).find? fun name => (Setting.ofName? name).isNone

/-- Settings with the given values, and the usual numbers in other fields. -/
def make (fields : List (String × Value)) : Except Failure Settings :=
  if (unknown? fields).isSome then .error .badArguments
  else standard.setAll fields

/-- The settings with some fields changed. -/
def replace (s : Settings) (fields : List (String × Value)) :
    Except Failure Settings :=
  if fields.any (·.1 == ownName) then .error .badArguments
  else
    match unknown? fields with
    | some name => .error (.notASetting name)
    | none => s.setAll fields

/-- Writes a value to the field with a name. -/
def setNamed (s : Settings) (name : String) (v : Value) :
    Except Failure Settings :=
  match Setting.ofName? name with
  | some field => s.set field v
  | none => .error .noSuchProperty

/-- Writes some values one after the other and stops at the first that is
refused. The writes before it are kept. -/
def setInTurn (s : Settings) :
    List (String × Value) → Settings × Except Failure Unit
  | [] => (s, .ok ())
  | (name, v) :: fields =>
    match s.setNamed name v with
    | .ok changed => changed.setInTurn fields
    | .error f => (s, .error f)

/-- Whether two settings hold the same numbers. -/
def same (s t : Settings) : Bool :=
  Setting.all.all fun field => s.get field == t.get field

/-- Settings as a constructor with their fields. -/
def literal (s : Settings) : String :=
  let fields :=
    Setting.all.map fun field => field.name ++ "=" ++ Number.text (s.get field)
  "ObservabilityConfig(" ++ ", ".intercalate fields ++ ")"

theorem set_int
    (s : Settings) {field : Setting} {n : Int} (h : field.accepts n = true) :
    s.set field (.int n) = .ok (s.update field n h) := by
  simp [set, h]

end Settings

end QueryJournal

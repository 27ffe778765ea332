import QueryJournal.Failure.Class
import QueryJournal.Text.Blank

/-!
# The library's own errors

An error of the library has a detail, the one line that says what went wrong,
and further texts. Errors can be initialised again, which keeps the detail
unless a new one is given.
-/

namespace QueryJournal

/-- A class of errors derived from the library's base class. -/
structure JournalKind where
  /-- The class that this one is or extends. -/
  cls : JournalClass
  /-- The name that is printed. -/
  name : String
  /-- The detail of errors to which none is given. -/
  classDetail : Option String
  deriving DecidableEq

/-- One of the library's own classes as it is. -/
def JournalKind.own (cls : JournalClass) : JournalKind :=
  ⟨cls, cls.name, none⟩

/-- What an error names as the setting that was rejected. -/
inductive JournalError.Subject where
  /-- A name. -/
  | name (s : String)
  /-- A number instead of a name. -/
  | number (n : Int)
  /-- A truth value instead of a name. -/
  | truth (b : Bool)
  deriving DecidableEq

/-- An error of the library. -/
structure JournalError where
  /-- Its class. -/
  kind : JournalKind
  /-- What went wrong, possibly nothing. -/
  detail : String
  /-- Further texts. -/
  args : List String
  /-- The setting that was rejected, if that is what went wrong. -/
  setting : Option JournalError.Subject
  deriving DecidableEq

namespace JournalError

/-- An error with nothing but a detail. -/
def ofDetail
    (cls : JournalClass) (detail : String) : JournalError :=
  ⟨.own cls, detail, [], none⟩

/-- The text of an error: the further texts, then the detail. -/
def text (e : JournalError) : String :=
  Text.trim (" ".intercalate (e.args ++ [e.detail]))

/-- The class of an error, with its detail if there is one. -/
def literal (e : JournalError) : String :=
  if e.detail = "" then e.kind.name else e.kind.name ++ " - " ++ e.detail

/-- The detail after an initialisation with an explicit detail and the texts of
the arguments, and the texts that remain: the explicit detail wins, then the
first text, then the detail that the error had before. -/
def settle
    (previous explicit : String) (texts : List String) : String × List String :=
  if explicit ≠ "" then (explicit, texts)
  else
    match texts with
    | detail :: rest => (detail, rest)
    | [] => (previous, [])

end JournalError

end QueryJournal

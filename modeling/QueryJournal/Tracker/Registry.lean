import QueryJournal.Query.Recorder

/-!
# Trackers

Trackers are told about every completed query. The registry keeps them in the
order of their registration, and none of them twice: trackers may count as
equal to others, and then one of them is enough.
-/

namespace QueryJournal

/-- A change of the registered trackers, by name. -/
inductive Tracker.Change where
  /-- A tracker is removed. -/
  | leave (name : String)
  /-- A tracker is added. -/
  | join (name : String)

/-- What a tracker that is no recorder does about a query. -/
structure Tracker.Script where
  /-- The changes that it makes, in order. -/
  changes : Query → List Tracker.Change
  /-- The failure that it ends with, if any. -/
  throws : Query → Option Failure

/-- What a tracker does when it is told about a query. -/
inductive Tracker.Role where
  /-- It stands for the recorder of the session, which logs the query. -/
  | journal
  /-- It is another recorder, which logs the query. -/
  | recorder (r : Recorder)
  /-- It follows a script. -/
  | scripted (s : Tracker.Script)

/-- A tracker. -/
structure Tracker where
  /-- Its name, which it shares with no other. -/
  name : String
  /-- What makes it equal to others. -/
  key : Option Value
  /-- What it does. -/
  role : Tracker.Role

namespace Tracker

/-- Whether two trackers are one and the same. -/
def isSame (t u : Tracker) : Bool :=
  t.name == u.name

/-- Whether two trackers have the same key. -/
def sharesKey (t u : Tracker) : Bool :=
  match t.key, u.key with
  | some k, some l => k.sameKey l
  | _, _ => false

/-- Whether two trackers count as equal. -/
def equals (t u : Tracker) : Bool :=
  t.isSame u || t.sharesKey u

/-- A tracker as an argument of a message. -/
def toValue (t : Tracker) : Value :=
  .object "Tracker" ("<tracker " ++ t.name ++ ">")

end Tracker

/-- Registered trackers in the order of their registration. -/
abbrev Registry :=
  List Tracker

namespace Registry

/-- Whether a tracker or one equal to it is registered. -/
def holds (r : Registry) (t : Tracker) : Bool :=
  r.any t.equals

/-- Adds a tracker at the end, unless one equal to it is registered. -/
def register (r : Registry) (t : Tracker) : Registry :=
  if r.holds t then r else r ++ [t]

/-- Removes a tracker, and tells whether it or one equal to it was
registered. -/
def unregister (r : Registry) (t : Tracker) : Registry × Bool :=
  if r.holds t then (r.filter fun u => !t.isSame u, true) else (r, false)

end Registry

end QueryJournal

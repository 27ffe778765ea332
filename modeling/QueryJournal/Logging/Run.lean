import QueryJournal.Failure.Basic

/-!
# Runs

A run is what an operation did, as a list of events in their order, and how it
ended: with an answer or with a failure. What was done before a failure stays
done.
-/

namespace QueryJournal

/-- Events in their order, and an answer or a failure. -/
structure Run (ε α : Type) where
  /-- What was done. -/
  events : List ε
  /-- How it ended. -/
  result : Except Failure α

namespace Run

variable {ε δ α β : Type}

/-- Answers without doing anything. -/
def answer (a : α) : Run ε α :=
  ⟨[], .ok a⟩

/-- Fails without doing anything. -/
def fail (f : Failure) : Run ε α :=
  ⟨[], .error f⟩

/-- Answers or fails without doing anything. -/
def ofExcept (r : Except Failure α) : Run ε α :=
  ⟨[], r⟩

/-- Does one thing. -/
def emit (e : ε) : Run ε Unit :=
  ⟨[e], .ok ()⟩

/-- Goes on with the answer, unless there is a failure. -/
def andThen (r : Run ε α) (next : α → Run ε β) : Run ε β :=
  match r.result with
  | .ok a =>
    let s := next a
    ⟨r.events ++ s.events, s.result⟩
  | .error f => ⟨r.events, .error f⟩

instance : Monad (Run ε) where
  pure := answer
  bind := andThen

theorem bind_of_ok
    {r : Run ε α} {a : α} (h : r.result = .ok a) (next : α → Run ε β) :
    r >>= next = ⟨r.events ++ (next a).events, (next a).result⟩ := by
  simp [bind, andThen, h]

theorem bind_of_error
    {r : Run ε α} {f : Failure} (h : r.result = .error f) (next : α → Run ε β) :
    r >>= next = ⟨r.events, .error f⟩ := by
  simp [bind, andThen, h]

/-- Goes on after a failure. -/
def recover (r : Run ε α) (handle : Failure → Run ε α) : Run ε α :=
  match r.result with
  | .ok _ => r
  | .error f =>
    let s := handle f
    ⟨r.events ++ s.events, s.result⟩

/-- Goes on after an ordinary failure. -/
def recoverOrdinary (r : Run ε α) (handle : Failure → Run ε α) : Run ε α :=
  r.recover fun f => if f.isOrdinary then handle f else fail f

/-- Ignores an ordinary failure. -/
def contain (r : Run ε Unit) : Run ε Unit :=
  r.recoverOrdinary fun _ => answer ()

/-- Renames the events. -/
def mapEvents (g : ε → δ) (r : Run ε α) : Run δ α :=
  ⟨r.events.map g, r.result⟩

end Run

end QueryJournal

import QueryJournal.Proofs.Query.Recording
import QueryJournal.Proofs.Render.Erasure

/-!
# What the recorder reads of a statement

The recorder asks three things of a statement: whether it is one of the driver's
own, its text within the limit, and the texts of its bound values.  Two queries
that differ in the statement alone are recorded in the same way if these three
are the same.  In particular it makes no difference which queries of the
driver's own a batch has among its members, and such a query by itself leaves no
record.
-/

namespace QueryJournal

/-- The query with another statement. -/
def Query.withStatement (q : Query) (s : Statement) : Query :=
  { q with statement := s }

theorem Query.isInternal_eq (q : Query) :
    q.isInternal = q.statement.isInternal := by
  obtain ⟨_, s, _, _⟩ := q
  cases s <;> rfl

namespace Recorder

variable {r : Recorder} {l : Logging} {q : Query} {timedOut : Bool}
  {s t : Statement}

theorem pass_congr
    {millis : Millis} {o : Outcome}
    (htext : ∀ limit, s.renderWithin limit = t.renderWithin limit)
    (hvalues : parameters l (r.channels o) (r.settings.get .valueLength) s =
      parameters l (r.channels o) (r.settings.get .valueLength) t) :
    r.pass l (q.withStatement s) millis o =
      r.pass l (q.withStatement t) millis o := by
  unfold pass passBy
  rw [show (q.withStatement s).statement = s from rfl,
    show (q.withStatement t).statement = t from rfl, htext, hvalues]
  rfl

/-- The three things that the recorder asks of a statement. -/
theorem attempt_congr
    (hinternal : s.isInternal = t.isInternal)
    (htext : ∀ limit, s.renderWithin limit = t.renderWithin limit)
    (hvalues : ∀ millis o,
      q.assess timedOut (r.settings.get .slowThreshold) = .ok (millis, o) →
      parameters l (r.channels o) (r.settings.get .valueLength) s =
        parameters l (r.channels o) (r.settings.get .valueLength) t) :
    r.attempt l (q.withStatement s) timedOut =
      r.attempt l (q.withStatement t) timedOut := by
  have hs : (q.withStatement s).isInternal = s.isInternal :=
    Query.isInternal_eq _
  have ht : (q.withStatement t).isInternal = t.isInternal :=
    Query.isInternal_eq _
  cases hdriver : t.isInternal with
  | true =>
    rw [attempt_of_internal (hs.trans (hinternal.trans hdriver)),
      attempt_of_internal (ht.trans hdriver)]
  | false =>
    have hs' := hs.trans (hinternal.trans hdriver)
    have ht' := ht.trans hdriver
    cases hassess : q.assess timedOut (r.settings.get .slowThreshold) with
    | error f =>
      rw [attempt_of_assess_error (q := q.withStatement s) hs' hassess,
        attempt_of_assess_error (q := q.withStatement t) ht' hassess]
    | ok assessed =>
      obtain ⟨millis, o⟩ := assessed
      rw [attempt_of_assess (q := q.withStatement s) hs' hassess,
        attempt_of_assess (q := q.withStatement t) ht' hassess,
        pass_congr htext (hvalues millis o hassess)]

theorem record_congr
    (hinternal : s.isInternal = t.isInternal)
    (htext : ∀ limit, s.renderWithin limit = t.renderWithin limit)
    (hvalues : ∀ millis o,
      q.assess timedOut (r.settings.get .slowThreshold) = .ok (millis, o) →
      parameters l (r.channels o) (r.settings.get .valueLength) s =
        parameters l (r.channels o) (r.settings.get .valueLength) t) :
    r.record l (q.withStatement s) timedOut =
      r.record l (q.withStatement t) timedOut := by
  rw [record, record, attempt_congr hinternal htext hvalues]

/-! ## Queries of the driver's own -/

theorem record_of_internal (h : q.isInternal = true) :
    r.record l q timedOut = ⟨[], .ok ()⟩ := by
  rw [record, attempt_of_internal h]
  rfl

theorem parameters_erase (g : Gate) (limit : Int) (s : Statement) :
    parameters l g limit s.erase = parameters l g limit s := by
  cases s <;> rfl

theorem record_erase (r : Recorder) (l : Logging) (q : Query)
    (timedOut : Bool) :
    r.record l (q.withStatement q.statement.erase) timedOut =
      r.record l q timedOut :=
  record_congr (t := q.statement) q.statement.isInternal_erase
    (fun limit => q.statement.renderWithin_erase limit)
    fun _ o _ => parameters_erase (r.channels o) _ _

/-- Queries of the driver's own cannot be seen.  Deleting them from all batches
leaves the same budget after every sequence of steps, the same text within every
limit, and the same records.  By itself such a query is not recorded at all. -/
theorem internal_queries_leave_no_trace :
    (∀ s : Statement, s.erase.hasInternalMember = false) ∧
    (∀ (b : Budget) (s : Statement), s.erase.writeTo b = s.writeTo b) ∧
    (∀ (b : Budget) (steps : List Budget.Step),
      b.run (steps.map Budget.Step.erase) = b.run steps) ∧
    (∀ (limit : Int) (s : Statement),
      s.erase.renderWithin limit = s.renderWithin limit) ∧
    (∀ (r : Recorder) (l : Logging) (q : Query),
      (∀ timedOut, r.record l (q.withStatement q.statement.erase) timedOut =
        r.record l q timedOut) ∧
      r.update l (q.withStatement q.statement.erase) = r.update l q) ∧
    ∀ (r : Recorder) (l : Logging) (q : Query),
      (∀ timedOut,
        r.record l (q.withStatement .internal) timedOut = ⟨[], .ok ()⟩) ∧
      r.update l (q.withStatement .internal) = ⟨[], .ok ()⟩ := by
  refine ⟨Statement.hasInternalMember_erase, Statement.writeTo_erase,
    Budget.run_map_erase,
    Statement.renderWithin_erase, fun r l q => ⟨?_, ?_⟩, fun r l q => ⟨?_, ?_⟩⟩
  · intro timedOut
    exact record_erase r l q timedOut
  · exact record_erase r l q q.failedByTimeout
  · intro timedOut
    exact record_of_internal rfl
  · exact record_of_internal rfl

end Recorder

end QueryJournal

import QueryJournal.Proofs.Query.Parameters
import QueryJournal.Proofs.Render.Truncation

/-!
# Recording a query

A query that is logged leads to one record: at the gate of its outcome, with a
line that is made from its host, its milliseconds, the text of its statement
and the bound values that can be printed.  Nothing else is logged, except for
reports of the values that cannot.
-/

namespace QueryJournal

/-! ## Outcome and gate -/

/-- How a query completed that took some nanoseconds. -/
def Query.outcome (q : Query) (threshold nanos : Int)
    (timedOut : Bool) : Outcome :=
  if q.failure.isSome then
    if timedOut then .timeout else .error
  else if (threshold + 1) * 1000000 ≤ nanos then .slow
  else .normal

theorem Millis.ofLatency_of_nanos
    {v : Value} {nanos : Int} (h : v.asInt? = some nanos) :
    ofLatency v = .ok (.int (nanos / 1000000)) := by
  cases v with
  | truth b =>
    cases h
    rfl
  | int n =>
    cases h
    rfl
  | _ => cases h

/-- Rounding down to milliseconds turns strictly longer into at least one
millisecond longer. -/
theorem Query.classify_of_nanos (q : Query) (threshold nanos : Int)
    (timedOut : Bool) :
    Outcome.classify (.int (nanos / 1000000)) q.failure.isSome
      timedOut threshold =
      .ok (q.outcome threshold nanos timedOut) := by
  have hslow : threshold < nanos / 1000000 ↔
      (threshold + 1) * 1000000 ≤ nanos := by
    omega
  unfold Outcome.classify outcome
  by_cases hfailed : q.failure.isSome = true
  · rw [if_pos hfailed, if_pos hfailed]
  · rw [if_neg hfailed, if_neg hfailed]
    simp [Millis.exceeds, Except.map, hslow]

theorem Query.assess_of_nanos
    {q : Query} {nanos : Int}
    (h : q.latency.asInt? = some nanos) (threshold : Int) (timedOut : Bool) :
    q.assess timedOut threshold =
      .ok ((.int (nanos / 1000000)), q.outcome threshold nanos timedOut) := by
  rw [assess, Millis.ofLatency_of_nanos h]
  change (Outcome.classify (.int (nanos / 1000000)) _ _ _ >>= _) = _
  rw [q.classify_of_nanos]
  rfl

/-- The settings never hold a limit that a statement cannot be rendered
within. -/
theorem Settings.exists_renderWithin (settings : Settings) (s : Statement) :
    ∃ text, s.renderWithin (settings.get .queryLength) = .ok text := by
  have haccepted : 0 < settings.get .queryLength ∨
      settings.get .queryLength = -1 := by
    simpa [Setting.accepts] using settings.accepted .queryLength
  rcases haccepted with hpositive | hnone
  · refine ⟨Text.within (settings.get .queryLength).toNat (s.chunks false), ?_⟩
    rw [← Statement.renderWithin_natCast,
      Int.toNat_of_nonneg (Int.le_of_lt hpositive)]
  · exact ⟨_, hnone ▸ s.renderWithin_neg_one⟩

/-- Logs a record at a gate. -/
def Gate.emit (g : Gate) (l : Logging) (r : LogRecord) : Run Delivery Unit := do
  Run.ofExcept (g.check .emit)
  l.log r

theorem Gate.check_of_fault_eq_none {g : Gate}
    (h : g.fault = none) (use : Use) :
    g.check use = .ok () := by
  rw [check, h]

theorem Gate.askBase_of_check
    {g : Gate} (h : g.check .base = .ok ()) (ls : Loggers) :
    g.askBase ls = .ok (g.baseEnabled ls) := by
  rw [askBase, ask, h]
  rfl

namespace Recorder

variable {r : Recorder} {l : Logging} {q : Query} {timedOut : Bool}

/-- The gate that a query goes to. -/
def gateOf (r : Recorder) (q : Query) (nanos : Int) (timedOut : Bool) : Gate :=
  r.channels (q.outcome (r.settings.get .slowThreshold) nanos timedOut)

/-- The record of a query from the texts of its host and its statement. -/
def lineOf
    (r : Recorder) (l : Logging) (q : Query) (millis : Millis) (o : Outcome)
    (host statement : String) (shown : List String) : LogRecord :=
  entry l (r.channels o) o host millis statement shown q.failure

/-- What the recorder does with a query that its gate lets through. -/
def passBy
    (render : Int → Statement → Except Failure String)
    (r : Recorder) (l : Logging) (q : Query) (millis : Millis) (o : Outcome) :
    Run Delivery Unit := do
  let statement ← Run.ofExcept
    (render (r.settings.get .queryLength) q.statement)
  let shown ← parameters l (r.channels o)
    (r.settings.get .valueLength) q.statement
  let host ← Run.ofExcept q.target.print.orFail
  (r.channels o).emit l (r.lineOf l q millis o host statement shown)

/-- What the recorder does with such a query if nothing is in the way. -/
def pass
    (r : Recorder) (l : Logging) (q : Query) (millis : Millis) (o : Outcome) :
    Run Delivery Unit :=
  passBy Statement.renderWithin r l q millis o

/-! ## The steps of an attempt -/

section Attempts

variable {render : Int → Statement → Except Failure String}
variable {millis : Millis} {o : Outcome}

theorem attemptBy_of_internal (h : q.isInternal = true) :
    attemptBy render r l q timedOut = ⟨[], .ok ()⟩ := by
  rw [attemptBy, if_pos h]
  rfl

theorem attemptBy_of_assess_error
    (hinternal : q.isInternal = false) {f : Failure}
    (hassess : q.assess timedOut (r.settings.get .slowThreshold) = .error f) :
    attemptBy render r l q timedOut = ⟨[], .error f⟩ := by
  rw [attemptBy, if_neg (by simp [hinternal]), hassess]
  rfl

/-- The gate of the outcome decides whether a query is let through. -/
theorem attemptBy_of_assess
    (hinternal : q.isInternal = false)
    (hassess : q.assess timedOut (r.settings.get .slowThreshold) =
      .ok (millis, o)) :
    attemptBy render r l q timedOut =
      (Run.ofExcept ((r.channels o).askBase l.loggers) >>= fun isOpen =>
        if isOpen then passBy render r l q millis o else pure ()) := by
  rw [attemptBy, if_neg (by simp [hinternal]), hassess, Run.bind_of_ok rfl]
  change (Run.ofExcept ((r.channels o).askBase l.loggers) >>= _) = _
  cases hask : (r.channels o).askBase l.loggers with
  | error f => rfl
  | ok isOpen =>
    cases isOpen with
    | false => rfl
    | true => rfl

theorem attemptBy_of_check_base
    (hinternal : q.isInternal = false)
    (hassess : q.assess timedOut
      (r.settings.get .slowThreshold) = .ok (millis, o))
    (hbase : (r.channels o).check .base = .ok ()) :
    attemptBy render r l q timedOut =
      if (r.channels o).baseEnabled l.loggers then passBy render r l q millis o
      else ⟨[], .ok ()⟩ := by
  rw [attemptBy_of_assess hinternal hassess, Gate.askBase_of_check hbase,
    Run.bind_of_ok rfl]
  rfl

end Attempts

theorem attempt_of_internal (h : q.isInternal = true) :
    r.attempt l q timedOut = ⟨[], .ok ()⟩ :=
  attemptBy_of_internal h

theorem attempt_of_assess_error
    (hinternal : q.isInternal = false) {f : Failure}
    (hassess : q.assess timedOut (r.settings.get .slowThreshold) = .error f) :
    r.attempt l q timedOut = ⟨[], .error f⟩ :=
  attemptBy_of_assess_error hinternal hassess

theorem attempt_of_assess
    (hinternal : q.isInternal = false) {millis : Millis} {o : Outcome}
    (hassess : q.assess timedOut (r.settings.get .slowThreshold) =
      .ok (millis, o)) :
    r.attempt l q timedOut =
      (Run.ofExcept ((r.channels o).askBase l.loggers) >>= fun isOpen =>
        if isOpen then r.pass l q millis o else pure ()) :=
  attemptBy_of_assess hinternal hassess

/-- The bound values that the gate of an outcome asks for. -/
def detailsOf
    (r : Recorder) (l : Logging) (q : Query) (o : Outcome) :
    List (String × BoundValue) :=
  details (r.channels o) l.loggers q.statement

/-- What the gate of an outcome does with the line of a query. -/
def emission
    (r : Recorder) (l : Logging) (q : Query) (millis : Millis) (o : Outcome)
    (host : String) :
    Run Delivery Unit := do
  let statement ← Run.ofExcept
    (q.statement.renderWithin (r.settings.get .queryLength))
  (r.channels o).emit l (r.lineOf l q millis o host statement
    (printed (r.settings.get .valueLength) (r.detailsOf l q o)))

theorem emission_eq
    {statement : String}
    (hstatement : q.statement.renderWithin
      (r.settings.get .queryLength) = .ok statement)
    (millis : Millis) (o : Outcome) (host : String) :
    r.emission l q millis o host =
      (r.channels o).emit l (r.lineOf l q millis o host statement
        (printed (r.settings.get .valueLength) (r.detailsOf l q o))) := by
  rw [emission, hstatement, Run.bind_of_ok rfl]
  rfl

/-- Only the host and the gate can keep a query from being logged that its gate
lets through: its statement and its bound values always have a text. -/
theorem pass_eq
    {millis : Millis} {o : Outcome}
    (hdetail : q.statement.boundValues ≠ [] →
      (r.channels o).check .detail = .ok ())
    (hsinks : ∀ s ∈ l.sinksOf Loggers.troubleName, s.Takes none) :
    r.pass l q millis o =
      (⟨omissions l (r.settings.get .valueLength) (r.detailsOf l q o),
        q.target.print.orFail⟩ >>= r.emission l q millis o) := by
  obtain ⟨statement, hstatement⟩ := r.settings.exists_renderWithin q.statement
  rw [pass, passBy, hstatement, Run.bind_of_ok rfl,
    parameters_eq hsinks hdetail, Run.bind_of_ok rfl]
  cases hhost : q.target.print.orFail with
  | ok host =>
    rw [Run.bind_of_ok rfl, Run.bind_of_ok rfl, emission_eq hstatement]
    rfl
  | error f =>
    rw [Run.bind_of_error rfl, Run.bind_of_error rfl]
    simp [Run.ofExcept, detailsOf]

/-! ## The line of a query -/

section Line

variable (r : Recorder) (l : Logging) (q : Query)
  (millis : Millis) (o : Outcome)
variable (host statement : String)

theorem lineOf_isProper (shown : List String) :
    (r.lineOf l q millis o host statement shown).IsProper :=
  entry_isProper _ _ _ _ _ _ _

theorem lineOf_text (limit : Int) (values : List (String × BoundValue)) :
    (r.lineOf l q millis o host statement (printed limit values)).text =
      .ok (sentence o host millis statement (printed limit values)) :=
  entry_text _ _ _ _ _ _ _ fun _ hs => ne_empty_of_mem_printed hs

end Line

/-- Where everything works, a query that its gate lets through arrives once at
every sink of the gate's logger, after the reports of values that are left
out. -/
theorem pass_of_takes
    {millis : Millis} {o : Outcome} {host statement : String}
    (hhost : q.target.print = .ok host)
    (hstatement : q.statement.renderWithin
      (r.settings.get .queryLength) = .ok statement)
    (hgate : (r.channels o).fault = none)
    (hsinks : ∀ s ∈ l.rootSinks ++ l.journalSinks,
      s.Takes (q.failure.map .thrown)) :
    let limit := r.settings.get .valueLength
    let values := r.detailsOf l q o
    r.pass l q millis o =
      ⟨omissions l limit values ++
        l.deliveries
          (r.lineOf l q millis o host statement (printed limit values))
          (sentence o host millis statement (printed limit values)),
            .ok ()⟩ := by
  intro limit values
  have htrouble : ∀ s ∈ l.sinksOf Loggers.troubleName, s.Takes none := by
    intro s hs
    exact (hsinks s (Logging.mem_of_mem_sinksOf hs)).of_printed (by simp)
  have hprint : q.target.print.orFail = .ok host := by
    rw [hhost]
    rfl
  have hlog := l.log_of_takes
    (r.lineOf_isProper l q millis o host statement (printed limit values))
    (r.lineOf_text l q millis o host statement limit values)
    (fun s hs => hsinks s (Logging.mem_of_mem_sinksOf hs))
  rw [pass_eq (fun _ => Gate.check_of_fault_eq_none hgate .detail) htrouble,
    hprint, Run.bind_of_ok rfl, emission_eq hstatement, Gate.emit,
    Gate.check_of_fault_eq_none hgate .emit, Run.bind_of_ok rfl, hlog]
  rfl

/-- A query that its gate lets through leads to one record, at the logger and
the level of the gate.  Its message is the sentence of the query.  A query that
the gate does not let through leads to nothing. -/
theorem record_logs_one_line
    (r : Recorder) (l : Logging) (q : Query) (timedOut : Bool) {nanos : Int}
    {host : String}
    (hinternal : q.isInternal = false)
    (hlatency : q.latency.asInt? = some nanos)
    (hhost : q.target.print = .ok host)
    (hgate : (r.gateOf q nanos timedOut).fault = none)
    (hsinks : ∀ s ∈ l.rootSinks ++ l.journalSinks,
      s.Takes (q.failure.map .thrown)) :
    let outcome := q.outcome (r.settings.get .slowThreshold) nanos timedOut
    let gate := r.channels outcome
    let limit := r.settings.get .valueLength
    let values := details gate l.loggers q.statement
    (gate.baseEnabled l.loggers = false →
      r.record l q timedOut = ⟨[], .ok ()⟩) ∧
    (gate.baseEnabled l.loggers = true →
      ∃ (statement : String) (line : LogRecord),
        q.statement.renderWithin (r.settings.get .queryLength) = .ok statement ∧
        line.logger = gate.logger ∧
        line.level = gate.base ∧
        line.failure = q.failure.map .thrown ∧
        line.extra = [("db_host", .text host),
          ("latency_ms", .int (nanos / 1000000)),
          ("query_outcome", .text outcome.name)] ∧
        line.text =
          .ok (sentence outcome host (.int (nanos / 1000000)) statement
          (printed limit values)) ∧
        r.record l q timedOut =
          ⟨omissions l limit values ++
            (l.sinksOf gate.logger).flatMap
              (Sink.deliveries line (sentence outcome host
              (.int (nanos / 1000000)) statement (printed limit values))),
                .ok ()⟩) := by
  intro outcome gate limit values
  have hattempt : r.attempt l q timedOut =
      if gate.baseEnabled l.loggers then
        r.pass l q (.int (nanos / 1000000)) outcome
      else ⟨[], .ok ()⟩ :=
    attemptBy_of_check_base hinternal (Query.assess_of_nanos hlatency _ _)
      (Gate.check_of_fault_eq_none hgate .base)
  constructor
  · intro hclosed
    rw [record, hattempt, hclosed]
    rfl
  · intro hopen
    obtain ⟨statement, hstatement⟩ := r.settings.exists_renderWithin q.statement
    let line := r.lineOf l q (.int (nanos / 1000000)) outcome host statement
      (printed limit values)
    let message := sentence outcome host (.int (nanos / 1000000)) statement
      (printed limit values)
    have hpass : r.pass l q (.int (nanos / 1000000)) outcome =
        ⟨omissions l limit values ++ l.deliveries line message, .ok ()⟩ :=
      pass_of_takes hhost hstatement hgate hsinks
    have hdelivered : l.deliveries line message =
        (l.sinksOf gate.logger).flatMap (Sink.deliveries line message) :=
      if_pos hopen
    refine ⟨statement, line, hstatement, rfl, rfl, rfl, rfl,
      r.lineOf_text l q _ outcome host statement limit values, ?_⟩
    rw [record, hattempt, if_pos hopen, hpass, hdelivered]
    rfl

/-- A failed query on a logger of its own level. -/
theorem record_logs_one_line_of_failure :
    let l := (Logging.initial [.capture ⟨"memory", none⟩]
      ⟨"client", "run", 7⟩ ⟨0, 0⟩).setLevel "querylog.query.error" Level.debug
    let q : Query :=
      ⟨.text "db-1", .plain "SELECT 1",
        some (.ofMessage .runtime "lost"), .int 2500000⟩
    ∃ line, line.text = .ok "Query error on host db-1 after 2 ms: SELECT 1;" ∧
      (ofSettings .standard).record l q false =
        ⟨[.captured "memory" "Query error on host db-1 after 2 ms: SELECT 1;"
            line], .ok ()⟩ := by
  intro l q
  have htakes : ∀ s ∈ l.rootSinks ++ l.journalSinks,
      s.Takes (q.failure.map .thrown) := by
    intro s hs
    rw [List.mem_singleton.mp hs]
    exact ⟨rfl, fun f hf => by cases hf; rfl⟩
  obtain ⟨statement, line, hstatement, -, -, -, -, htext, hrecord⟩ :=
    (record_logs_one_line (ofSettings .standard) l q false rfl rfl rfl rfl
      htakes).2 (by decide)
  have hsame : statement = "SELECT 1;" := by
    have h : q.statement.renderWithin 500 = .ok "SELECT 1;" := by rfl
    cases hstatement.symm.trans h
    rfl
  have hdetails : ∀ g ls, details g ls q.statement = [] :=
    details_of_boundValues_eq_nil rfl
  have hsinks : ∀ logger, l.sinksOf logger = [.capture ⟨"memory", none⟩] :=
    Logging.sinksOf_of_journalSinks_eq_nil rfl rfl
  have hsentence : sentence .error "db-1" (.int 2) "SELECT 1;" [] =
      "Query error on host db-1 after 2 ms: SELECT 1;" := by
    decide +kernel
  subst hsame
  rw [hdetails] at htext hrecord
  rw [hsinks] at hrecord
  refine ⟨line, htext.trans (congrArg Except.ok hsentence), hrecord.trans ?_⟩
  exact congrArg (fun message =>
    Run.mk [Delivery.captured "memory" message line] (.ok ()))
    hsentence

end Recorder

end QueryJournal

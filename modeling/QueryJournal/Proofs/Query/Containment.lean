import QueryJournal.Proofs.Logging.Containment
import QueryJournal.Proofs.Query.Recording
import QueryJournal.Proofs.Render.Levels

/-!
# Containing failures

Nothing that goes wrong while a query is logged escapes from the recorder, as
long as the objects that it is given throw ordinary errors.  What goes wrong is
reported as a last resort.  As the settings are always acceptable, statements
always have a text if the stack has room for the calls that give it, and values
that cannot be printed are left out.  So this happens for few causes only: the
latency cannot be divided or compared, the stack ends, the host cannot be
printed, or the gate does not answer or does not log.
-/

namespace QueryJournal

theorem Gate.exists_of_check_error
    {g : Gate} {use : Use} {f : Failure} (h : g.check use = .error f) :
    ∃ e, g.fault = some (use, e) ∧ f = .thrown e := by
  rw [check] at h
  cases hfault : g.fault with
  | none =>
    rw [hfault] at h
    cases h
  | some fault =>
    obtain ⟨faulty, e⟩ := fault
    rw [hfault] at h
    dsimp only at h
    by_cases huse : faulty = use
    · rw [if_pos huse] at h
      exact ⟨e, by rw [huse], (Except.error.inj h).symm⟩
    · rw [if_neg huse] at h
      cases h

theorem Gate.check_of_ask_error
    {g : Gate} {use : Use} {answer : Bool} {f : Failure}
    (h : g.ask use answer = .error f) :
    g.check use = .error f := by
  rw [ask] at h
  cases hcheck : g.check use with
  | ok u =>
    rw [hcheck] at h
    cases h
  | error k =>
    rw [hcheck] at h
    cases h
    rfl

theorem Target.exists_of_print_error
    {t : Target} {f : Failure} (h : t.print.orFail = .error f) :
    ∃ cls, t = .unprintable cls ∧ f = .ofMessage cls "unprintable" := by
  cases t with
  | unprintable cls => exact ⟨cls, rfl, (Except.error.inj h).symm⟩
  | _ => cases h

/-- A sink that contains what it throws contains records of printable
failures. -/
theorem Sink.Contains.of_printed
    {s : Sink} {failure : Option Failure} (h : s.Contains none)
    (hfailure : ∀ f ∈ failure, ∀ g,
      f.ensurePrinted = .error g → g.isOrdinary = true) :
    s.Contains failure := by
  cases s with
  | capture c => exact ⟨h.1, hfailure⟩
  | console layout => trivial
  | file index => trivial

/-- A sink that does not fail throws nothing that would have to be contained. -/
theorem Sink.Takes.contains {s : Sink} (h : s.Takes none) :
    s.Contains none := by
  cases s with
  | capture c =>
    refine ⟨?_, nofun⟩
    rw [h.1]
    exact nofun
  | console layout => trivial
  | file index => trivial

/-! ## Failures of latencies and statements -/

/-- A failure of a latency that cannot be divided, or not be compared. -/
def Failure.IsOfLatency : Failure → Prop
  | .indivisible _ | .tooManyPlaces | .invalidDecimal => True
  | _ => False

theorem Failure.IsOfLatency.isContainable {f : Failure} (h : f.IsOfLatency) :
    f.IsContainable := by
  have hprinted : f.isOrdinary = true ∧ f.ensurePrinted = .ok () := by
    unfold IsOfLatency at h
    split at h
    · exact ⟨rfl, rfl⟩
    · exact ⟨rfl, rfl⟩
    · exact ⟨rfl, rfl⟩
    · exact h.elim
  refine ⟨hprinted.1, fun g hg => ?_⟩
  rw [hprinted.2] at hg
  cases hg

namespace Millis

theorem isOfLatency_of_ofDecimal
    {d : Decimal} {f : Failure} (h : ofDecimal d = .error f) :
    f.IsOfLatency := by
  unfold ofDecimal at h
  split at h
  · split at h
    · cases h
      trivial
    · cases h
  · cases h
  · cases h
    trivial
  · cases h

theorem isOfLatency_of_ofLatency
    {v : Value} {f : Failure} (h : ofLatency v = .error f) : f.IsOfLatency := by
  unfold ofLatency at h
  split at h
  · cases h
  next d =>
    cases hd : ofDecimal d with
    | ok millis =>
      rw [hd] at h
      cases h
    | error g =>
      rw [hd] at h
      cases h
      exact isOfLatency_of_ofDecimal hd
  · split at h
    · cases h
    · cases h
      trivial

theorem isOfLatency_of_exceeds
    {millis : Millis} {threshold : Int} {f : Failure}
    (h : millis.exceeds threshold = .error f) : f.IsOfLatency := by
  unfold exceeds at h
  split at h
  case h_7 =>
    cases h
    trivial
  all_goals cases h

end Millis

namespace Query

variable {q : Query} {timedOut : Bool} {threshold : Int}

theorem isOfLatency_of_assess
    {f : Failure} (h : q.assess timedOut threshold = .error f) :
    f.IsOfLatency := by
  rw [assess] at h
  cases hmillis : Millis.ofLatency q.latency with
  | error g =>
    rw [hmillis] at h
    cases h
    exact Millis.isOfLatency_of_ofLatency hmillis
  | ok millis =>
    rw [hmillis] at h
    change (Outcome.classify millis _ _ _ >>= _) = _ at h
    rw [Outcome.classify] at h
    split at h
    · cases h
    · cases hexceeds : millis.exceeds threshold with
      | ok isSlow =>
        rw [hexceeds] at h
        cases h
      | error g =>
        rw [hexceeds] at h
        cases h
        exact Millis.isOfLatency_of_exceeds hexceeds

end Query

section Room

variable {room : Nat} {s : Statement} (settings : Settings)

end Room

namespace Recorder

variable {r : Recorder} {l : Logging} {q : Query} {timedOut : Bool}

/-! ## The last resort -/

/-- The message of the last resort. -/
def troubleText : String :=
  "Unexpected error while logging query"

/-- The report of a failure that kept a query from being logged. -/
def trouble (l : Logging) (f : Failure) : LogRecord :=
  { l.record Loggers.troubleName Level.error troubleText
    [] with failure := some f }

theorem trouble_isProper (l : Logging) (f : Failure) :
    (trouble l f).IsProper where
  args := List.forall_mem_nil _
  values := List.forall_mem_nil _
  names := List.forall_mem_nil _
  fields := rfl

theorem trouble_text (l : Logging) (f : Failure) :
    (trouble l f).text = .ok troubleText := by
  rw [(trouble_isProper l f).text_eq]
  rfl

theorem reportTrouble_of_ok {attempted : Run Delivery Unit}
    (h : attempted.result = .ok ()) :
    reportTrouble l attempted = attempted :=
  Run.recoverOrdinary_of_ok h _

/-- Whatever happens to the reports, the texts of bound values are those that
can be printed. -/
theorem eq_printed_of_renderParameters
    {limit : Int} {values : List (String × BoundValue)} {shown : List String}
    (h : (renderParameters l limit values).result = .ok shown) :
    shown = printed limit values := by
  induction values generalizing shown with
  | nil => exact (Except.ok.inj h).symm
  | cons entry values ih =>
    obtain ⟨name, v⟩ := entry
    rw [renderParameters] at h
    cases hv : v.render limit with
    | ok s =>
      rw [hv] at h
      obtain ⟨texts, htexts, hshown⟩ := Run.exists_of_bind_result_ok h
      rw [printed_cons_of_ok values hv, ← ih htexts]
      exact (Except.ok.inj hshown).symm
    | error f =>
      rw [hv] at h
      obtain ⟨-, -, hshown⟩ := Run.exists_of_bind_result_ok h
      rw [printed_cons_of_error values hv, ih hshown]

theorem ne_empty_of_mem_parameters
    {g : Gate} {limit : Int} {s : Statement} {shown : List String}
    (h : (parameters l g limit s).result = .ok shown) :
    ∀ text ∈ shown, text ≠ "" := by
  have hnone : (Except.ok [] : Except Failure (List String)) = .ok shown →
      ∀ text ∈ shown, text ≠ "" := by
    intro hshown
    rw [← Except.ok.inj hshown]
    exact List.forall_mem_nil _
  cases s with
  | bound b =>
    rw [parameters] at h
    split at h
    · exact hnone h
    · obtain ⟨asked, -, h⟩ := Run.exists_of_bind_result_ok h
      split at h
      · rw [eq_printed_of_renderParameters h]
        exact fun _ htext => ne_empty_of_mem_printed htext
      · exact hnone h
  | _ => exact hnone h

/-- Whatever a query and its surroundings throw is ordinary. -/
structure MeetsOrdinaryErrors (r : Recorder) (l : Logging)
    (q : Query) : Prop where
  /-- The host. -/
  host : ∀ cls, q.target = .unprintable cls → cls.isOrdinary = true
  /-- What refuses to be printed in the failure of the query. -/
  failure : ∀ f ∈ q.failure.map Failure.thrown, ∀ g,
    f.ensurePrinted = .error g →
    g.isOrdinary = true
  /-- The gates. -/
  gates : ∀ o use e, (r.channels o).fault = some (use, e) →
    (Failure.thrown e).IsContainable
  /-- The sinks. -/
  sinks : ∀ s ∈ l.rootSinks ++ l.journalSinks, s.Contains none

/-- What the last resort may meet: what objects throw, a latency that cannot be
used, and the end of the stack. -/
def Meets (f : Failure) : Prop :=
  (f.IsThrown ∨ f.IsOfLatency ∨ f = .tooDeep) ∧ f.IsContainable

namespace MeetsOrdinaryErrors

/-- The gates that a recorder starts with throw nothing, so a query without a
failure meets only what its host throws, if the sinks do not fail. -/
theorem of_settings {settings : Settings}
    (hhost : ∀ cls, q.target = .unprintable cls → cls.isOrdinary = true)
    (hfailure : q.failure = none)
    (hsinks : ∀ s ∈ l.rootSinks ++ l.journalSinks, s.Takes none) :
    (ofSettings settings).MeetsOrdinaryErrors l q where
  host := hhost
  failure f hf := by
    rw [hfailure] at hf
    cases hf
  gates o use e he := nomatch he
  sinks s hs := (hsinks s hs).contains

variable (h : r.MeetsOrdinaryErrors l q)

include h

theorem sinks_of_printed
    {failure : Option Failure}
    (hfailure : ∀ f ∈ failure, ∀ g,
      f.ensurePrinted = .error g → g.isOrdinary = true)
    (logger : String) : ∀ s ∈ l.sinksOf logger, s.Contains failure :=
  fun s hs => (h.sinks s (Logging.mem_of_mem_sinksOf hs)).of_printed hfailure

theorem meets_of_check_error
    {o : Outcome} {use : Gate.Use} {f : Failure}
    (hcheck : (r.channels o).check use = .error f) : Meets f := by
  obtain ⟨e, hfault, rfl⟩ := Gate.exists_of_check_error hcheck
  exact ⟨Or.inl (Or.inl ⟨e, rfl⟩), h.gates o use e hfault⟩

theorem meets_of_print_error {f : Failure}
    (hprint : q.target.print.orFail = .error f) :
    Meets f := by
  obtain ⟨cls, htarget, rfl⟩ := Target.exists_of_print_error hprint
  refine ⟨Or.inl (Failure.isThrown_ofMessage _ _),
    Failure.isContainable_ofMessage ?_⟩
  rw [Failure.isOrdinary, Failure.cls_ofMessage]
  exact Failure.isOrdinary_thrown (h.host cls htarget)

theorem onlyFails_log
    {record : LogRecord} {message : String} (hproper : record.IsProper)
    (htext : record.text = .ok message)
    (hfailure : ∀ f ∈ record.failure, ∀ g,
      f.ensurePrinted = .error g → g.isOrdinary = true) :
    (l.log record).OnlyFails Meets := by
  intro f hf
  have hmet :=
    l.onlyFails_log hproper htext (h.sinks_of_printed hfailure _) f hf
  exact ⟨Or.inl hmet.1, hmet.2⟩

theorem onlyFails_renderParameters (limit : Int)
    (values : List (String × BoundValue)) :
    (renderParameters l limit values).OnlyFails Meets := by
  induction values with
  | nil => exact Run.OnlyFails.of_ok rfl
  | cons entry values ih =>
    obtain ⟨name, v⟩ := entry
    rw [renderParameters]
    cases hv : v.render limit with
    | ok s => exact ih.bind fun _ _ => Run.OnlyFails.of_ok rfl
    | error f =>
      refine Run.OnlyFails.bind ?_ fun _ _ => ih
      refine h.onlyFails_log (omission_isProper l name f)
        (omission_text l name f) ?_
      intro k hk g hg
      have hprinted := BoundValue.ensurePrinted_of_render_error hv
      cases hk
      rw [hprinted] at hg
      cases hg

theorem onlyFails_parameters (o : Outcome) (limit : Int) (s : Statement) :
    (parameters l (r.channels o) limit s).OnlyFails Meets := by
  cases s with
  | bound b =>
    rw [parameters]
    split
    · exact Run.OnlyFails.of_ok rfl
    · refine Run.OnlyFails.bind ?_ fun asked _ => ?_
      · intro f hf
        exact h.meets_of_check_error (Gate.check_of_ask_error hf)
      · split
        · exact h.onlyFails_renderParameters limit _
        · exact Run.OnlyFails.of_ok rfl
  | _ => exact Run.OnlyFails.of_ok rfl

section Render

variable {render : Int → Statement → Except Failure String}
variable (hrender : ∀ f,
  render (r.settings.get .queryLength) q.statement = .error f →
  f = .tooDeep)

include hrender

theorem onlyFails_passBy (millis : Millis) (o : Outcome) :
    (passBy render r l q millis o).OnlyFails Meets := by
  rw [passBy]
  refine Run.OnlyFails.bind ?_ fun text _ => ?_
  · intro f hf
    cases hrender f hf
    refine ⟨Or.inr (Or.inr rfl), rfl, fun g hg => ?_⟩
    cases hg
  refine Run.OnlyFails.bind
    (h.onlyFails_parameters _ _ _) fun shown hshown => ?_
  refine Run.OnlyFails.bind
    (fun f hf => h.meets_of_print_error hf) fun host _ => ?_
  refine Run.OnlyFails.bind
    (fun f hf => h.meets_of_check_error hf) fun _ _ => ?_
  exact h.onlyFails_log (r.lineOf_isProper l q millis o host text shown)
    (entry_text _ _ _ _ _ _ _ (ne_empty_of_mem_parameters hshown)) h.failure

theorem onlyFails_attemptBy (timedOut : Bool) :
    (attemptBy render r l q timedOut).OnlyFails Meets := by
  by_cases hinternal : q.isInternal = true
  · rw [attemptBy_of_internal hinternal]
    exact Run.OnlyFails.of_ok rfl
  · have hother : q.isInternal = false := Bool.of_not_eq_true hinternal
    cases hassess : q.assess timedOut (r.settings.get .slowThreshold) with
    | error f =>
      have hlatency := Query.isOfLatency_of_assess hassess
      rw [attemptBy_of_assess_error hother hassess]
      exact Run.OnlyFails.fail ⟨Or.inr (Or.inl hlatency),
        hlatency.isContainable⟩
    | ok assessed =>
      rw [attemptBy_of_assess hother hassess]
      refine Run.OnlyFails.bind (fun f hf => ?_) fun isOpen _ => ?_
      · exact h.meets_of_check_error (Gate.check_of_ask_error hf)
      · split
        · exact h.onlyFails_passBy hrender _ _
        · exact Run.OnlyFails.of_ok rfl

end Render

theorem onlyFails_attempt (timedOut : Bool) :
    (r.attempt l q timedOut).OnlyFails Meets := by
  refine h.onlyFails_attemptBy (fun f hf => ?_) timedOut
  obtain ⟨text, htext⟩ := r.settings.exists_renderWithin q.statement
  rw [htext] at hf
  cases hf

theorem result_reportTrouble
    {attempted : Run Delivery Unit} (hattempted : attempted.OnlyFails Meets) :
    (reportTrouble l attempted).result = .ok () := by
  cases hresult : attempted.result with
  | ok u =>
    rw [reportTrouble_of_ok hresult, hresult]
  | error f =>
    have hf := (hattempted f hresult).2
    have hlog : (l.log (trouble l f)).OnlyFails Meets := by
      refine h.onlyFails_log (trouble_isProper l f) (trouble_text l f) ?_
      intro k hk
      cases hk
      exact hf.printing
    rw [reportTrouble, Run.recoverOrdinary_of_error hresult hf.ordinary]
    exact Run.result_contain fun g hg => (hlog g hg).2.ordinary

/-- The recorder returns normally. -/
theorem record_result (timedOut : Bool) :
    (r.record l q timedOut).result = .ok () :=
  h.result_reportTrouble (h.onlyFails_attempt timedOut)

end MeetsOrdinaryErrors

end Recorder

end QueryJournal

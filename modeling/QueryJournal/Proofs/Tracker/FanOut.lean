import QueryJournal.Proofs.Query.Containment
import QueryJournal.Proofs.Tracker.History
import QueryJournal.Session

/-!
# Telling the registered trackers

When a query has completed, every registered tracker is told once, in the order
of registration.  What one of them does depends on nothing that the others do:
not on their failures, and not on the trackers that they register or remove on
the way.  So what happens is that one tracker after the other does what it would
do alone, and is complained about if it fails.
-/

namespace QueryJournal

/-- A tracker that leaves the registered trackers as they are when it is told
about a query. -/
def Tracker.LeavesOthers (t : Tracker) (q : Query) : Prop :=
  ∀ script, t.role = .scripted script → script.changes q = []

/-- The name of the tracker that a change is about. -/
def Tracker.Change.name : Tracker.Change → String
  | .leave name | .join name => name

/-- The call of the registry that a change is. -/
def Tracker.Change.call : Tracker.Change → Tracker → Registry.Call
  | .leave _ => .unregister
  | .join _ => .register

namespace Session

/-! ## Complaints about trackers -/

/-- The report that a tracker failed. -/
def complaint (l : Logging) (t : Tracker) (f : Failure) : LogRecord :=
  { l.record Loggers.trackerName Level.error "Latency tracker %r failed"
      [t.toValue] with failure := some f }

/-- The message of the report that a tracker failed. -/
def complaintText (t : Tracker) : String :=
  "Latency tracker " ++ ("<tracker " ++ t.name ++ ">") ++ " failed"

theorem complaint_isProper (l : Logging) (t : Tracker) (f : Failure) :
    (complaint l t f).IsProper where
  args := by simp [complaint, Logging.record, Tracker.toValue, Value.IsSimple]
  values := List.forall_mem_nil _
  names := List.forall_mem_nil _
  fields := rfl

theorem complaint_text (l : Logging) (t : Tracker) (f : Failure) :
    (complaint l t f).text = .ok (complaintText t) := by
  rw [(complaint_isProper l t f).text_eq]
  refine Message.fill_literal (by simp [complaint, Logging.record]) (by decide)
    (by decide) ?_
  rw [Tracker.toValue, Value.literal]

theorem reportTracker_of_takes
    {s : Session} {f : Failure}
    (h : ∀ x ∈ s.logging.sinksOf Loggers.trackerName, x.Takes (some f))
    (t : Tracker) :
    s.reportTracker t f =
      ⟨(s.logging.deliveries (complaint s.logging t f)
          (complaintText t)).map .logged,
        .ok ()⟩ := by
  have hlog := s.logging.log_of_takes (complaint_isProper s.logging t f)
    (complaint_text s.logging t f) h
  change (s.logging.log (complaint s.logging t f)).mapEvents Event.logged = _
  rw [hlog]
  rfl

/-! ## The registered trackers make no difference -/

/-- The session with other trackers registered. -/
def withRegistry (s : Session) (r : Registry) : Session :=
  { s with registry := r }

theorem change_withRegistry (s : Session) (c : Tracker.Change) (r : Registry) :
    (s.withRegistry r).change c =
      (s.tracker c.name).map fun t => s.withRegistry (r.after (c.call t)) := by
  have htracker : ∀ name, (s.withRegistry r).tracker name = s.tracker name :=
    fun _ => rfl
  cases c with
  | leave name =>
    rw [change, htracker]
    cases hname : s.tracker name with
    | ok t => simp [Tracker.Change.name, hname]; rfl
    | error f => simp [Tracker.Change.name, hname]; rfl
  | join name =>
    rw [change, htracker]
    cases hname : s.tracker name with
    | ok t => simp [Tracker.Change.name, hname]; rfl
    | error f => simp [Tracker.Change.name, hname]; rfl

/-- Which trackers are registered has no influence on how changes end. -/
theorem changeAll_withRegistry
    (s : Session) (changes : List Tracker.Change) (r r' : Registry) :
    ((s.withRegistry r).changeAll changes).2 =
      ((s.withRegistry r').changeAll changes).2 ∧
      ∃ calls, ((s.withRegistry r).changeAll changes).1 =
        s.withRegistry (r.run calls) := by
  induction changes generalizing r r' with
  | nil => exact ⟨rfl, [], rfl⟩
  | cons c changes ih =>
    rw [changeAll, changeAll, change_withRegistry, change_withRegistry]
    cases s.tracker c.name with
    | error f => exact ⟨rfl, [], rfl⟩
    | ok t =>
      obtain ⟨hresult, calls, hlast⟩ :=
        ih (r.after (c.call t)) (r'.after (c.call t))
      exact ⟨hresult, c.call t :: calls, hlast⟩

theorem isOrdinary_of_tracker
    {s : Session} {name : String} {f : Failure}
    (h : s.tracker name = .error f) :
    f.isOrdinary = true := by
  rw [tracker] at h
  split at h
  · cases h
  · cases h
    rfl

theorem isOrdinary_of_changeAll
    {s : Session} {changes : List Tracker.Change} {f : Failure}
    (h : (s.changeAll changes).2 = .error f) : f.isOrdinary = true := by
  induction changes generalizing s with
  | nil => cases h
  | cons c changes ih =>
    have hchange : s.change c = _ := s.change_withRegistry c s.registry
    rw [changeAll, hchange] at h
    cases htracker : s.tracker c.name with
    | ok t =>
      rw [htracker] at h
      exact ih h
    | error g =>
      rw [htracker] at h
      cases h
      exact isOrdinary_of_tracker htracker

theorem play_withRegistry
    (s : Session) (script : Tracker.Script) (q : Query) (r : Registry) :
    ((s.withRegistry r).play script q).2 = (s.play script q).2 ∧
      ∃ calls, ((s.withRegistry r).play script q).1 =
        s.withRegistry (r.run calls) := by
  obtain ⟨hresult, hlast⟩ :=
    s.changeAll_withRegistry (script.changes q) r s.registry
  refine ⟨?_, hlast⟩
  rw [play, play]
  dsimp only
  rw [hresult]
  rfl

theorem act_withRegistry (s : Session) (q : Query) (t : Tracker)
    (r : Registry) :
    ((s.withRegistry r).act q t).2 = (s.act q t).2 ∧
      ∃ calls, ((s.withRegistry r).act q t).1 =
        s.withRegistry (r.run calls) := by
  rw [act, act]
  cases t.role with
  | journal => exact ⟨rfl, [], rfl⟩
  | recorder _ => exact ⟨rfl, [], rfl⟩
  | scripted script =>
    obtain ⟨hresult, hlast⟩ := s.play_withRegistry script q r
    refine ⟨?_, hlast⟩
    dsimp only
    rw [hresult]

/-- What a tracker does, and how it ends, does not depend on which trackers are
registered, and nothing else changes in the session. -/
theorem tell_withRegistry (s : Session) (q : Query) (t : Tracker)
    (r : Registry) :
    ((s.withRegistry r).tell q t).2 = (s.tell q t).2 ∧
      ∃ calls, ((s.withRegistry r).tell q t).1 =
        s.withRegistry (r.run calls) := by
  obtain ⟨hrun, hlast⟩ := s.act_withRegistry q t r
  refine ⟨?_, hlast⟩
  rw [tell, tell]
  dsimp only
  rw [hrun]

theorem tell_fst_of_leavesOthers
    {t : Tracker} {q : Query} (h : t.LeavesOthers q) (s : Session) :
    (s.tell q t).1 = s := by
  change (s.act q t).1 = s
  rw [act]
  cases hrole : t.role with
  | journal => rfl
  | recorder _ => rfl
  | scripted script =>
    dsimp only
    rw [play, h script hrole]
    rfl

/-! ## What one tracker does -/

/-- The recorder that a tracker is, if it is one. -/
def recorderOf? (s : Session) (t : Tracker) : Option Recorder :=
  match t.role with
  | .journal => some s.recorder
  | .recorder r => some r
  | .scripted _ => none

theorem exists_script_of_recorderOf?
    {s : Session} {t : Tracker} (h : s.recorderOf? t = none) :
    ∃ script, t.role = .scripted script := by
  rw [recorderOf?] at h
  split at h
  · cases h
  · cases h
  · exact ⟨_, ‹_›⟩

theorem act_of_recorder
    {s : Session} {t : Tracker} {r : Recorder}
    (h : s.recorderOf? t = some r) (q : Query) :
    s.act q t = (s, s.recordBy r q) := by
  rw [recorderOf?] at h
  rw [act]
  cases hrole : t.role with
  | journal =>
    rw [hrole] at h
    cases h
    rfl
  | recorder u =>
    rw [hrole] at h
    cases h
    rfl
  | scripted script =>
    rw [hrole] at h
    cases h

theorem result_tell_of_recorder
    {s : Session} {t : Tracker} {r : Recorder} {q : Query}
    (h : s.recorderOf? t = some r)
    (hr : r.MeetsOrdinaryErrors s.logging q) :
    (s.tell q t).2.result = .ok () := by
  change (s.act q t).2.result = .ok ()
  rw [act_of_recorder h]
  exact hr.record_result _

/-- A tracker that is no recorder ends as it wants to. -/
theorem tell_of_scripted
    {s : Session} {t : Tracker} {script : Tracker.Script} {q : Query}
    (hrole : t.role = .scripted script) (hchanges : script.changes q = []) :
    s.tell q t =
      (s, ⟨[.called ⟨t.name, q⟩],
        match script.throws q with
        | some f => .error f
        | none => .ok ()⟩) := by
  rw [tell, act, hrole]
  dsimp only
  rw [play, hchanges]
  cases script.throws q <;> rfl

/-- The complaint about a tracker, if it fails. -/
def complaints (s : Session) (q : Query) (t : Tracker) : List Event :=
  match (s.tell q t).2.result with
  | .ok () => []
  | .error f =>
    (s.logging.deliveries (complaint s.logging t f)
      (complaintText t)).map .logged

/-- What comes of telling a tracker about a query. -/
def trace (s : Session) (q : Query) (t : Tracker) : List Event :=
  (s.tell q t).2.events ++ s.complaints q t

/-- Whatever a query, the trackers that are told about it and their surroundings
throw is ordinary, and the sinks of complaints throw nothing. -/
structure MeetsOrdinaryErrors (s : Session) (q : Query)
    (trackers : List Tracker) : Prop where
  /-- The recorders. -/
  recorders : ∀ t ∈ trackers, ∀ r, s.recorderOf? t = some r →
    r.MeetsOrdinaryErrors s.logging q
  /-- The other trackers. -/
  scripts : ∀ t ∈ trackers, ∀ script, t.role = .scripted script →
    ∀ f, script.throws q = some f → f.isOrdinary = true
  /-- The sinks of complaints. -/
  complaints : ∀ t ∈ trackers, ∀ f, (s.tell q t).2.result = .error f →
    ∀ x ∈ s.logging.sinksOf Loggers.trackerName, x.Takes (some f)

namespace MeetsOrdinaryErrors

variable {s : Session} {q : Query} {trackers : List Tracker}

theorem mono
    (h : s.MeetsOrdinaryErrors q trackers) {others : List Tracker}
    (hothers : ∀ t ∈ others, t ∈ trackers) :
    s.MeetsOrdinaryErrors q others where
  recorders t ht := h.recorders t (hothers t ht)
  scripts t ht := h.scripts t (hothers t ht)
  complaints t ht := h.complaints t (hothers t ht)

/-- Whatever a tracker ends with is ordinary. -/
theorem onlyFails_tell
    (h : s.MeetsOrdinaryErrors q trackers) {t : Tracker} (ht : t ∈ trackers) :
    (s.tell q t).2.OnlyFails fun f => f.isOrdinary = true := by
  intro f hf
  cases hrole : t.role with
  | scripted script =>
    change (s.act q t).2.result = .error f at hf
    rw [act, hrole] at hf
    dsimp only [Run.ofExcept] at hf
    rw [play] at hf
    dsimp only at hf
    cases hchanges : (s.changeAll (script.changes q)).2 with
    | error g =>
      rw [hchanges] at hf
      cases hf
      exact isOrdinary_of_changeAll hchanges
    | ok u =>
      rw [hchanges] at hf
      cases hthrows : script.throws q with
      | none =>
        rw [hthrows] at hf
        cases hf
      | some g =>
        rw [hthrows] at hf
        cases hf
        exact h.scripts t ht script hrole f hthrows
  | _ =>
    have hrecorder : ∃ r, s.recorderOf? t = some r := by
      rw [recorderOf?, hrole]
      exact ⟨_, rfl⟩
    obtain ⟨r, hr⟩ := hrecorder
    rw [result_tell_of_recorder hr (h.recorders t ht r hr)] at hf
    cases hf

/-- Telling a tracker, and complaining if it fails, leaves its trace. -/
theorem recover_tell
    (h : s.MeetsOrdinaryErrors q trackers) {t : Tracker} (ht : t ∈ trackers) :
    (s.tell q t).2.recoverOrdinary (s.reportTracker t) =
      ⟨s.trace q t, .ok ()⟩ := by
  rw [trace, Session.complaints]
  cases hresult : (s.tell q t).2.result with
  | ok u =>
    rw [Run.recoverOrdinary_of_ok hresult, List.append_nil, ← hresult]
  | error f =>
    rw [Run.recoverOrdinary_of_error hresult (h.onlyFails_tell ht f hresult),
      reportTracker_of_takes (h.complaints t ht f hresult)]

theorem recover_tell_withRegistry
    (h : s.MeetsOrdinaryErrors q trackers) {t : Tracker}
    (ht : t ∈ trackers) (r : Registry) :
    ((s.withRegistry r).tell q t).2.recoverOrdinary
      ((s.withRegistry r).reportTracker t) =
      ⟨s.trace q t, .ok ()⟩ := by
  rw [(s.tell_withRegistry q t r).1]
  exact h.recover_tell ht

/-- Whichever trackers are registered meanwhile, each tracker leaves its own
trace. -/
theorem tellAll_eq
    (h : s.MeetsOrdinaryErrors q trackers) (r : Registry) :
    ((s.withRegistry r).tellAll q trackers).2 =
      ⟨trackers.flatMap (s.trace q), .ok ()⟩ ∧
      ∃ calls, ((s.withRegistry r).tellAll q trackers).1 =
        s.withRegistry (r.run calls) := by
  induction trackers generalizing r with
  | nil => exact ⟨rfl, [], rfl⟩
  | cons t ts ih =>
    obtain ⟨-, calls, hnext⟩ := s.tell_withRegistry q t r
    obtain ⟨hrest, more, hlast⟩ :=
      ih (h.mono fun u hu => List.mem_cons_of_mem t hu)
      (r.run calls)
    rw [tellAll]
    dsimp only
    rw [h.recover_tell_withRegistry List.mem_cons_self, hnext]
    refine ⟨?_, calls ++ more, ?_⟩
    · dsimp only
      rw [hrest, List.flatMap_cons]
    · dsimp only
      rw [hlast, Registry.run, Registry.run, Registry.run, List.foldl_append]

theorem notify_eq (h : s.MeetsOrdinaryErrors q trackers) :
    ((s.withRegistry trackers).notify q).2 =
      ⟨trackers.flatMap (s.trace q), .ok ()⟩ :=
  (h.tellAll_eq trackers).1

theorem tellAll_fst_of_leavesOthers
    (h : s.MeetsOrdinaryErrors q trackers)
    (hleaves : ∀ t ∈ trackers, t.LeavesOthers q) (r : Registry) :
    ((s.withRegistry r).tellAll q trackers).1 = s.withRegistry r := by
  induction trackers with
  | nil => rfl
  | cons t ts ih =>
    have hrest := ih (h.mono fun u hu => List.mem_cons_of_mem t hu)
      fun u hu => hleaves u (List.mem_cons_of_mem t hu)
    rw [tellAll]
    dsimp only
    rw [h.recover_tell_withRegistry List.mem_cons_self,
      tell_fst_of_leavesOthers (hleaves t List.mem_cons_self)]
    exact hrest

end MeetsOrdinaryErrors

/-! ## What can be told apart -/

/-- The call that an event is, if it is one. -/
def Event.call? : Event → Option Tracker.Call
  | .called c => some c
  | .logged _ => none

/-- Whether an event is a record on another logger than that of complaints. -/
def Event.isElsewhere : Event → Bool
  | .logged (.captured _ _ record) => record.logger != Loggers.trackerName
  | _ => false

/-- Whether an event is a record on another logger than that of complaints, or a
call of one of some trackers, which are known by their names. -/
def Event.concerns (names : String → Bool) : Event → Bool
  | .called c => names c.tracker
  | e => e.isElsewhere

/-- The records of a recorder on other loggers than that of complaints. -/
def elsewhere (s : Session) (q : Query) (t : Tracker) : List Event :=
  match s.recorderOf? t with
  | some r =>
    ((r.update s.logging q).events.map .logged).filter Event.isElsewhere
  | none => []

section Traces

variable {s : Session} {q : Query} {t : Tracker}

theorem exists_of_mem_complaints {e : Event} (h : e ∈ s.complaints q t) :
    (∃ d, e = .logged d) ∧ e.isElsewhere = false := by
  unfold complaints at h
  split at h
  · cases h
  · obtain ⟨d, hd, rfl⟩ := List.mem_map.mp h
    refine ⟨⟨d, rfl⟩, ?_⟩
    cases d with
    | captured name message record =>
      rw [Logging.record_of_mem_deliveries hd]
      exact bne_self_eq_false _
    | _ => rfl

theorem events_act_of_scripted
    {script : Tracker.Script} (hrole : t.role = .scripted script) :
    (s.act q t).2.events = [] := by
  rw [act, hrole]
  rfl

theorem exists_of_mem_act {e : Event} (h : e ∈ (s.act q t).2.events) :
    ∃ d, e = .logged d := by
  cases hrecorder : s.recorderOf? t with
  | some r =>
    rw [act_of_recorder hrecorder] at h
    obtain ⟨d, -, hd⟩ := List.mem_map.mp h
    exact ⟨d, hd.symm⟩
  | none =>
    obtain ⟨script, hrole⟩ := exists_script_of_recorderOf? hrecorder
    rw [events_act_of_scripted hrole] at h
    cases h

/-- A tracker is called once. -/
theorem filterMap_call?_trace :
    (s.trace q t).filterMap Event.call? = [⟨t.name, q⟩] := by
  have hquiet : ∀ es : List Event, (∀ e ∈ es, ∃ d, e = .logged d) →
      es.filterMap Event.call? = [] := by
    intro es hes
    rw [List.filterMap_eq_nil_iff]
    intro e he
    obtain ⟨d, rfl⟩ := hes e he
    rfl
  change (.called ⟨t.name, q⟩ ::
    ((s.act q t).2.events ++ s.complaints q t)).filterMap _ = _
  rw [List.filterMap_cons_some (f := Event.call?) rfl, hquiet]
  intro e he
  rcases List.mem_append.mp he with hact | hcomplaint
  · exact exists_of_mem_act hact
  · exact (exists_of_mem_complaints hcomplaint).1

theorem filter_called
    {names : String → Bool} {script : Tracker.Script}
    (hrole : t.role = .scripted script)
    (hname : names t.name = false) :
    ((s.tell q t).2.events).filter (Event.concerns names) = [] := by
  change (Event.called ⟨t.name, q⟩ :: (s.act q t).2.events).filter _ = _
  rw [events_act_of_scripted hrole]
  simp [Event.concerns, hname]

theorem filter_complaints (names : String → Bool) :
    (s.complaints q t).filter (Event.concerns names) = [] := by
  rw [List.filter_eq_nil_iff]
  intro e he
  obtain ⟨⟨d, rfl⟩, helsewhere⟩ := exists_of_mem_complaints he
  rw [Event.concerns, helsewhere]
  · exact Bool.false_ne_true
  · intro c hc
    cases hc

/-- Of a tracker that is no recorder, and is none of those that are looked at,
nothing can be seen. -/
theorem filter_trace_eq_nil
    {names : String → Bool} (hrecorder : s.recorderOf? t = none)
    (hname : names t.name = false) :
    (s.trace q t).filter (Event.concerns names) = [] := by
  obtain ⟨script, hrole⟩ := exists_script_of_recorderOf? hrecorder
  rw [trace, List.filter_append, filter_called hrole hname, filter_complaints,
    List.append_nil]

end Traces

namespace MeetsOrdinaryErrors

variable {s : Session} {q : Query} {trackers : List Tracker}

theorem trace_of_recorder
    (h : s.MeetsOrdinaryErrors q trackers) {t : Tracker}
    (ht : t ∈ trackers) {r : Recorder}
    (hr : s.recorderOf? t = some r) :
    s.trace q t = .called ⟨t.name, q⟩ ::
      (r.update s.logging q).events.map .logged := by
  rw [trace, Session.complaints,
    result_tell_of_recorder hr (h.recorders t ht r hr), List.append_nil]
  change .called ⟨t.name, q⟩ :: (s.act q t).2.events = _
  rw [act_of_recorder hr]
  rfl

/-- Which records arrive on other loggers than that of complaints. -/
theorem filter_isElsewhere_trace
    (h : s.MeetsOrdinaryErrors q trackers) {t : Tracker} (ht : t ∈ trackers) :
    (s.trace q t).filter Event.isElsewhere = s.elsewhere q t := by
  rw [elsewhere]
  cases hrecorder : s.recorderOf? t with
  | some r =>
    rw [h.trace_of_recorder ht hrecorder]
    exact List.filter_cons_of_neg Bool.false_ne_true
  | none =>
    have hsame : Event.isElsewhere = Event.concerns fun _ => false := by
      funext e
      cases e <;> rfl
    rw [hsame, filter_trace_eq_nil hrecorder rfl]

/-- Trackers that are no recorders are not noticed by those who do not look at
them. -/
theorem filter_flatMap_trace
    {names : String → Bool}
    (hnames : ∀ t ∈ trackers, names t.name = false → s.recorderOf? t = none) :
    (trackers.flatMap (s.trace q)).filter (Event.concerns names) =
      ((trackers.filter fun t => names t.name).flatMap (s.trace q)).filter
        (Event.concerns names) := by
  induction trackers with
  | nil => rfl
  | cons t ts ih =>
    have hrest := ih fun u hu => hnames u (List.mem_cons_of_mem t hu)
    rw [List.flatMap_cons, List.filter_append, hrest, List.filter_cons]
    cases hname : names t.name with
    | true => rw [if_pos rfl, List.flatMap_cons, List.filter_append]
    | false =>
      have hnone :=
        filter_trace_eq_nil (q := q) (hnames t List.mem_cons_self hname) hname
      rw [hnone, if_neg Bool.false_ne_true, List.nil_append]

end MeetsOrdinaryErrors

/-- Whatever calls have made a registry, its trackers are called once, in their
order and with the query as it is, and each leaves the trace that it leaves
alone.  A tracker that fails is complained about once, and what others log or
see does not depend on trackers that only note queries. -/
theorem notify_isolates_trackers
    (s : Session) (calls : List Registry.Call) (q : Query)
    (h : s.MeetsOrdinaryErrors q (Registry.run [] calls)) :
    let registry := Registry.run [] calls
    let told := (s.withRegistry registry).notify q
    registry.IsDistinct ∧
    told.2 = ⟨registry.flatMap (s.trace q), .ok ()⟩ ∧
    told.2.events.filterMap Event.call? = registry.map (fun t => ⟨t.name, q⟩) ∧
    (∃ more, told.1 = s.withRegistry (Registry.run [] (calls ++ more))) ∧
    ((∀ t ∈ registry, t.LeavesOthers q) → told.1 = s.withRegistry registry) ∧
    (∀ t ∈ registry,
      ((s.withRegistry [t]).notify q).2 = ⟨s.trace q t, .ok ()⟩) ∧
    (∀ t ∈ registry, ∀ r, s.recorderOf? t = some r →
      s.trace q t = .called ⟨t.name, q⟩ ::
        (r.update s.logging q).events.map .logged) ∧
    (∀ t ∈ registry, ∀ script,
      t.role = .scripted script → script.changes q = [] →
      s.trace q t =
        .called ⟨t.name, q⟩ ::
          match script.throws q with
          | some f =>
            (s.logging.deliveries (complaint s.logging t f)
              (complaintText t)).map .logged
          | none => []) ∧
    told.2.events.filter Event.isElsewhere = registry.flatMap (s.elsewhere q) ∧
    ∀ (names : String → Bool) (others : List Registry.Call),
      s.MeetsOrdinaryErrors q (Registry.run [] others) →
      (∀ t ∈ registry ++ Registry.run [] others,
        names t.name = false → s.recorderOf? t = none) →
      (registry.filter fun t => names t.name) =
        ((Registry.run [] others).filter fun t => names t.name) →
      told.2.events.filter (Event.concerns names) =
        ((s.withRegistry (Registry.run [] others)).notify q).2.events.filter
          (Event.concerns names) := by
  intro registry told
  have htold : told.2 = ⟨registry.flatMap (s.trace q), .ok ()⟩ := h.notify_eq
  refine ⟨Registry.isDistinct_run calls, htold, ?_, ?_, ?_, ?_, ?_, ?_, ?_, ?_⟩
  · rw [htold, List.filterMap_flatMap, List.map_eq_flatMap]
    exact congrArg (List.flatMap · registry)
      (funext fun t => filterMap_call?_trace)
  · obtain ⟨-, more, hlast⟩ := h.tellAll_eq registry
    refine ⟨more, hlast.trans ?_⟩
    rw [Registry.run, Registry.run, List.foldl_append]
    rfl
  · intro hleaves
    exact h.tellAll_fst_of_leavesOthers hleaves registry
  · intro t ht
    have halone : s.MeetsOrdinaryErrors q [t] :=
      h.mono fun u hu => (List.mem_singleton.mp hu) ▸ ht
    rw [halone.notify_eq, List.flatMap_singleton]
  · intro t ht r hr
    exact h.trace_of_recorder ht hr
  · intro t ht script hrole hchanges
    rw [trace, complaints, tell_of_scripted hrole hchanges]
    cases script.throws q <;> rfl
  · rw [htold, List.filter_flatMap, List.flatMap_def, List.flatMap_def]
    exact congrArg List.flatten
      (List.map_congr_left fun t ht => h.filter_isElsewhere_trace ht)
  · intro names others hothers hnames hsame
    have hfirst := MeetsOrdinaryErrors.filter_flatMap_trace (q := q)
      fun t ht => hnames t (List.mem_append_left _ ht)
    have hsecond := MeetsOrdinaryErrors.filter_flatMap_trace (q := q)
      fun t ht => hnames t (List.mem_append_right _ ht)
    rw [htold, hothers.notify_eq, hfirst, hsame, hsecond]

/-- A tracker that fails before the recorder and another tracker are told, about
a query on a host that cannot be printed. -/
theorem notify_isolates_failing_tracker :
    let l := (Logging.initial [.capture ⟨"memory", none⟩]
      ⟨"client", "run", 7⟩ ⟨0, 0⟩).setLevel "querylog" Level.debug
    let bug := Failure.thrown (.ofMessage .runtime "tracker bug")
    let broken : Tracker :=
      ⟨"broken", none, .scripted ⟨fun _ => [], fun _ => some bug⟩⟩
    let recorder : Tracker := ⟨recorderName, none, .journal⟩
    let idle : Tracker := ⟨"idle", none, .scripted ⟨fun _ => [], fun _ => none⟩⟩
    let s := start l (.ofSettings .standard) [broken, idle]
    let q : Query := ⟨.unprintable .value, .plain "SELECT 1", none, .int 0⟩
    let registry :=
      Registry.run [] [.register broken, .register recorder, .register broken,
      .register idle]
    ((s.withRegistry registry).notify q).2 =
      ⟨[.called ⟨"broken", q⟩,
          .logged (.captured "memory" "Latency tracker <tracker broken> failed"
            (complaint s.logging broken bug)),
          .called ⟨"query_logger", q⟩] ++
        (s.recorder.update s.logging q).events.map .logged ++
        [.called ⟨"idle", q⟩], .ok ()⟩ := by
  intro l bug broken recorder idle s q registry
  have hregistry : registry = [broken, recorder, idle] := by
    simp [registry, broken, recorder, idle, recorderName, Registry.run,
      Registry.after, Registry.register, Registry.holds, Tracker.equals,
      Tracker.isSame, Tracker.sharesKey]
  have hsinks : ∀ logger,
      s.logging.sinksOf logger = [.capture ⟨"memory", none⟩] :=
    Logging.sinksOf_of_journalSinks_eq_nil rfl rfl
  have hbroken := tell_of_scripted (s := s) (t := broken) (q := q) rfl rfl
  have hidle := tell_of_scripted (s := s) (t := idle) (q := q) rfl rfl
  have hrecorder : s.recorder.MeetsOrdinaryErrors s.logging q := by
    apply Recorder.MeetsOrdinaryErrors.of_settings
    · rintro cls ⟨⟩
      rfl
    · rfl
    · exact List.forall_mem_singleton.mpr (Sink.takes_capture "memory")
  have hordinary : s.MeetsOrdinaryErrors q registry := by
    rw [hregistry]
    refine ⟨fun t ht r hr => ?_, fun t ht script hrole => ?_,
      fun t ht f hf x hx => ?_⟩
    · simp only [List.mem_cons, List.not_mem_nil, or_false] at ht
      rcases ht with rfl | rfl | rfl
      · cases hr
      · cases hr
        exact hrecorder
      · cases hr
    · simp only [List.mem_cons, List.not_mem_nil, or_false] at ht
      rcases ht with rfl | rfl | rfl
      · cases hrole
        intro f hf
        cases hf
        rfl
      · cases hrole
      · cases hrole
        intro f hf
        cases hf
    · rw [hsinks] at hx
      rw [List.mem_singleton.mp hx]
      simp only [List.mem_cons, List.not_mem_nil, or_false] at ht
      rcases ht with rfl | rfl | rfl
      · rw [hbroken] at hf
        cases hf
        refine ⟨rfl, fun g hg => ?_⟩
        cases hg
        rfl
      · rw [result_tell_of_recorder rfl hrecorder] at hf
        cases hf
      · rw [hidle] at hf
        cases hf
  have hdelivered : s.logging.deliveries (complaint s.logging broken bug)
      (complaintText broken) =
        [.captured "memory" "Latency tracker <tracker broken> failed"
          (complaint s.logging broken bug)] := by
    rw [Logging.deliveries, if_pos (by decide), hsinks]
    rfl
  obtain ⟨-, htold, -, -, -, -, hrecords, hcalls, -, -⟩ :=
    notify_isolates_trackers s _ q hordinary
  have hmem : ∀ t ∈ [broken, recorder, idle], t ∈ registry := by
    intro t ht
    rw [hregistry]
    exact ht
  have hfirst := hcalls broken (hmem broken (by simp)) _ rfl rfl
  have hsecond := hrecords recorder (hmem recorder (by simp)) s.recorder rfl
  have hthird := hcalls idle (hmem idle (by simp)) _ rfl rfl
  refine htold.trans (congrArg (Run.mk · (.ok ())) ?_)
  rw [show Registry.run [] _ = [broken, recorder, idle] from hregistry,
    List.flatMap_cons, List.flatMap_cons, List.flatMap_singleton, hfirst,
    hsecond, hthird]
  change (Event.called ⟨"broken", q⟩ ::
    List.map Event.logged (s.logging.deliveries _ _)) ++
    (Event.called ⟨recorderName, q⟩ :: _ ++ [Event.called ⟨"idle", q⟩]) = _
  rw [hdelivered]
  rfl

end Session

end QueryJournal

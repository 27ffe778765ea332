import QueryJournal.Proofs.Logging.Delivery

/-!
# Failures of runs

Which failures a run may end with, told step by step.  A record of the journal
can fail at a capturing sink only: with the error that the sink throws, or
because the failure that is recorded refuses to be printed.  Where these are
ordinary, the run is contained.
-/

namespace QueryJournal

namespace Run

variable {ε α β : Type} {P : Failure → Prop}

/-- A run that fails, if at all, with a failure of some kind. -/
def OnlyFails (P : Failure → Prop) (r : Run ε α) : Prop :=
  ∀ f, r.result = .error f → P f

theorem OnlyFails.of_ok {r : Run ε α} {a : α} (h : r.result = .ok a) :
    r.OnlyFails P := by
  intro f hf
  rw [h] at hf
  cases hf

theorem OnlyFails.fail {f : Failure} (h : P f) :
    (fail f : Run ε α).OnlyFails P := by
  intro g hg
  cases hg
  exact h

theorem OnlyFails.bind
    {r : Run ε α} {next : α → Run ε β} (h : r.OnlyFails P)
    (hnext : ∀ a, r.result = .ok a → (next a).OnlyFails P) :
    (r >>= next).OnlyFails P := by
  intro f hf
  cases hr : r.result with
  | ok a =>
    rw [bind_of_ok hr] at hf
    exact hnext a hr f hf
  | error g =>
    rw [bind_of_error hr] at hf
    rw [← Except.error.inj hf]
    exact h g hr

theorem exists_of_bind_result_ok
    {r : Run ε α} {next : α → Run ε β} {b : β}
    (h : (r >>= next).result = .ok b) :
    ∃ a, r.result = .ok a ∧ (next a).result = .ok b := by
  cases hr : r.result with
  | ok a =>
    rw [bind_of_ok hr] at h
    exact ⟨a, rfl, h⟩
  | error f =>
    rw [bind_of_error hr] at h
    cases h

theorem exists_of_mem_events_bind
    {r : Run ε α} {next : α → Run ε β} {e : ε} (h : e ∈ (r >>= next).events) :
    e ∈ r.events ∨ ∃ a, r.result = .ok a ∧ e ∈ (next a).events := by
  cases hr : r.result with
  | ok a =>
    rw [bind_of_ok hr] at h
    exact (List.mem_append.mp h).imp_right fun hnext => ⟨a, rfl, hnext⟩
  | error f =>
    rw [bind_of_error hr] at h
    exact Or.inl h

theorem of_mem_events_bind
    {r : Run ε α} {next : α → Run ε β} {e : ε} (h : e ∈ (r >>= next).events) :
    e ∈ r.events ∨ ∃ a, e ∈ (next a).events :=
  (exists_of_mem_events_bind h).imp_right fun ⟨a, _, ha⟩ => ⟨a, ha⟩

theorem of_mem_events_recoverOrdinary
    {r : Run ε α} {handle : Failure → Run ε α} {e : ε}
    (h : e ∈ (r.recoverOrdinary handle).events) :
    e ∈ r.events ∨ ∃ f, e ∈ (handle f).events := by
  rw [recoverOrdinary, recover] at h
  cases hr : r.result with
  | ok a =>
    rw [hr] at h
    exact Or.inl h
  | error f =>
    rw [hr] at h
    dsimp only at h
    split at h
    · exact (List.mem_append.mp h).imp_right fun hhandle => ⟨f, hhandle⟩
    · rw [fail, List.append_nil] at h
      exact Or.inl h

theorem recoverOrdinary_of_ok
    {r : Run ε α} {a : α} (h : r.result = .ok a) (handle : Failure → Run ε α) :
    r.recoverOrdinary handle = r := by
  rw [recoverOrdinary, recover, h]

theorem recoverOrdinary_of_error
    {r : Run ε α} {f : Failure}
    (h : r.result = .error f) (hf : f.isOrdinary = true)
    (handle : Failure → Run ε α) :
    r.recoverOrdinary handle =
      ⟨r.events ++ (handle f).events, (handle f).result⟩ := by
  rw [recoverOrdinary, recover, h]
  dsimp only
  rw [if_pos hf]

/-- A run whose failures are ordinary is contained. -/
theorem result_contain
    {r : Run ε Unit} (h : r.OnlyFails fun f => f.isOrdinary = true) :
    r.contain.result = .ok () := by
  cases hr : r.result with
  | ok a => rw [contain, recoverOrdinary_of_ok hr, hr]
  | error f =>
    rw [contain, recoverOrdinary_of_error hr (h f hr)]
    rfl

end Run

/-! ## Failures that are met while logging -/

namespace ErrorValue

theorem cls_ofMessage (cls : FailureClass) (message : String) :
    (ofMessage cls message).cls = cls := by
  cases cls with
  | journal own => cases own <;> rfl
  | _ => rfl

/-- An error that carries a message alone can be printed. -/
theorem exists_plain_ofMessage (cls : FailureClass) (message : String) :
    ∃ s, (ofMessage cls message).toValue.plain = .ok s := by
  have hcommon : ∃ s, (Value.fault cls [.text message] []).plain = .ok s := by
    rw [Value.plain]
    split
    · exact ⟨_, rfl⟩
    · exact ⟨_, rfl⟩
  cases cls with
  | journal own => exact ⟨_, rfl⟩
  | _ => exact hcommon

end ErrorValue

namespace Failure

/-- An ordinary failure which nothing but ordinary failures keeps from being
printed. -/
structure IsContainable (f : Failure) : Prop where
  ordinary : f.isOrdinary = true
  printing : ∀ g, f.ensurePrinted = .error g → g.isOrdinary = true

/-- A failure that comes from outside: an error that some object has thrown, or
could not be made to throw. -/
def IsThrown (f : Failure) : Prop :=
  (∃ e, f = .thrown e) ∨ ∃ arity, f = .messageAlone arity

theorem isThrown_ofMessage (cls : FailureClass) (message : String) :
    (ofMessage cls message).IsThrown := by
  unfold ofMessage
  split
  next n _ => exact Or.inr ⟨n, rfl⟩
  next => exact Or.inl ⟨_, rfl⟩

theorem cls_ofMessage (cls : FailureClass) (message : String) :
    (ofMessage cls message).cls = cls.thrown := by
  unfold ofMessage FailureClass.thrown
  cases harity : cls.arity? with
  | some n => rfl
  | none => exact ErrorValue.cls_ofMessage cls message

theorem ensurePrinted_ofMessage (cls : FailureClass) (message : String) :
    (ofMessage cls message).ensurePrinted = .ok () := by
  unfold ofMessage
  split
  · rfl
  · obtain ⟨s, hs⟩ := ErrorValue.exists_plain_ofMessage cls message
    rw [ensurePrinted, hs]
    rfl

theorem isOrdinary_thrown {cls : FailureClass} (h : cls.isOrdinary = true) :
    cls.thrown.isOrdinary = true := by
  unfold FailureClass.thrown
  split
  · rfl
  · exact h

/-- What goes wrong where an object refuses to be printed can itself be
printed. -/
theorem isContainable_ofMessage
    {cls : FailureClass} {message : String}
    (h : (ofMessage cls message).isOrdinary = true) :
    (ofMessage cls message).IsContainable where
  ordinary := h
  printing g hg := by
    rw [ensurePrinted_ofMessage] at hg
    cases hg

theorem exists_ofMessage_of_ensurePrinted
    {f g : Failure} (h : f.ensurePrinted = .error g) :
    ∃ cls message, g = ofMessage cls message := by
  cases f with
  | thrown e =>
    rw [ensurePrinted] at h
    cases hprint : e.toValue.plain with
    | ok s =>
      rw [hprint] at h
      cases h
    | error u =>
      rw [hprint] at h
      cases h
      exact ⟨u.cls, "unprintable", rfl⟩
  | _ => cases h

theorem exists_of_forM_ensurePrinted
    {failure : Option Failure} {g : Failure}
    (h : failure.toList.forM ensurePrinted = .error g) :
    ∃ f ∈ failure, f.ensurePrinted = .error g := by
  cases failure with
  | none => cases h
  | some f =>
    refine ⟨f, rfl, ?_⟩
    cases hf : f.ensurePrinted with
    | ok u => simp [hf, bind, Except.bind, pure, Except.pure] at h
    | error k => simpa [hf, bind, Except.bind] using h

end Failure

/-! ## Failures of sinks -/

namespace Sink

/-- A sink at which a record of a failure is met with nothing that is not
contained. -/
def Contains (failure : Option Failure) : Sink → Prop
  | .capture c =>
    (∀ e ∈ c.fault, (Failure.thrown e).IsContainable) ∧
      ∀ f ∈ failure, ∀ g, f.ensurePrinted = .error g → g.isOrdinary = true
  | .console _ | .file _ => True

variable {r : LogRecord} {message : String}

theorem onlyFails_receive
    (hproper : r.IsProper) (htext : r.text = .ok message) {s : Sink}
    (hs : s.Contains r.failure) :
    (s.receive r).OnlyFails fun f => f.IsThrown ∧ f.IsContainable := by
  cases s with
  | capture c =>
    rw [receive, htext]
    refine Run.OnlyFails.bind (Run.OnlyFails.of_ok rfl) fun _ _ => ?_
    refine Run.OnlyFails.bind ?_ fun _ _ =>
      Run.OnlyFails.bind (Run.OnlyFails.of_ok rfl) fun _ _ => ?_
    · intro g hg
      obtain ⟨f, hf, hg⟩ := Failure.exists_of_forM_ensurePrinted hg
      have hordinary := hs.2 f hf g hg
      obtain ⟨cls, text, rfl⟩ := Failure.exists_ofMessage_of_ensurePrinted hg
      exact ⟨Failure.isThrown_ofMessage cls text,
        Failure.isContainable_ofMessage hordinary⟩
    · cases hfault : c.fault with
      | none => exact Run.OnlyFails.of_ok rfl
      | some e => exact Run.OnlyFails.fail ⟨Or.inl ⟨e, rfl⟩, hs.1 e hfault⟩
  | console layout =>
    rw [receive, hproper.writeLine_eq htext]
    exact Run.OnlyFails.of_ok rfl
  | file index =>
    rw [receive, hproper.writeLine_eq htext]
    exact Run.OnlyFails.of_ok rfl

theorem onlyFails_receiveAll
    (hproper : r.IsProper) (htext : r.text = .ok message) {sinks : List Sink}
    (hsinks : ∀ s ∈ sinks, s.Contains r.failure) :
    (receiveAll r sinks).OnlyFails fun f => f.IsThrown ∧ f.IsContainable := by
  induction sinks with
  | nil => exact Run.OnlyFails.of_ok rfl
  | cons s sinks ih =>
    rw [receiveAll]
    refine Run.OnlyFails.bind ?_ fun _ _ => ih fun t ht =>
      hsinks t (List.mem_cons_of_mem _ ht)
    exact onlyFails_receive hproper htext (hsinks s List.mem_cons_self)

/-- Sinks keep the record that they are given. -/
theorem record_of_mem_receive
    (hproper : r.IsProper) (htext : r.text = .ok message) {s : Sink}
    {name kept : String} {record : LogRecord}
    (h : Delivery.captured name kept record ∈ (s.receive r).events) :
    record = r := by
  cases s with
  | capture c =>
    rw [receive, htext] at h
    rcases Run.of_mem_events_bind h with h | ⟨_, h⟩
    · cases h
    rcases Run.of_mem_events_bind h with h | ⟨_, h⟩
    · cases h
    rcases Run.of_mem_events_bind h with h | ⟨_, h⟩
    · cases List.mem_singleton.mp h
      rfl
    · cases hfault : c.fault with
      | none =>
        rw [hfault] at h
        cases h
      | some e =>
        rw [hfault] at h
        cases h
  | console layout =>
    rw [receive, hproper.writeLine_eq htext] at h
    simp at h
  | file index =>
    rw [receive, hproper.writeLine_eq htext] at h
    simp at h

theorem record_of_mem_receiveAll
    (hproper : r.IsProper) (htext : r.text = .ok message) {sinks : List Sink}
    {name kept : String} {record : LogRecord}
    (h : Delivery.captured name kept record ∈ (receiveAll r sinks).events) :
    record = r := by
  induction sinks with
  | nil => cases h
  | cons s sinks ih =>
    rw [receiveAll] at h
    rcases Run.of_mem_events_bind h with h | ⟨_, h⟩
    · exact record_of_mem_receive hproper htext h
    · exact ih h

/-! ## Records whose failure can be printed -/

section Printed

variable (hproper : r.IsProper) (htext : r.text = .ok message)
variable (hprinted : ∀ f ∈ r.failure, f.ensurePrinted = .ok ())

include hproper htext hprinted

/-- How sinks end does not depend on what a record says. -/
theorem result_receiveAll (sinks : List Sink) :
    (receiveAll r sinks).result = forM sinks ending := by
  induction sinks with
  | nil => rfl
  | cons s sinks ih =>
    have hreceive := receive_of_printed hproper htext hprinted s
    rw [receiveAll, List.forM_cons]
    cases hending : s.ending with
    | ok _ =>
      rw [hending] at hreceive
      rw [hreceive, Run.bind_of_ok rfl]
      exact ih
    | error f =>
      rw [hending] at hreceive
      rw [hreceive, Run.bind_of_error rfl]
      rfl

theorem exists_of_mem_receiveAll
    {sinks : List Sink} {d : Delivery} (h : d ∈ (receiveAll r sinks).events) :
    ∃ s ∈ sinks, d ∈ s.deliveries r message := by
  induction sinks with
  | nil => exact absurd h List.not_mem_nil
  | cons s sinks ih =>
    have hfirst : (s.receive r).events = s.deliveries r message := by
      rw [receive_of_printed hproper htext hprinted s]
    rw [receiveAll] at h
    rcases Run.of_mem_events_bind h with hs | ⟨-, hrest⟩
    · exact ⟨s, List.mem_cons_self, hfirst ▸ hs⟩
    · obtain ⟨t, ht, hd⟩ := ih hrest
      exact ⟨t, List.mem_cons_of_mem _ ht, hd⟩

end Printed

end Sink

namespace Logging

variable {l : Logging} {r : LogRecord} {message : String}

/-- How logging ends at a logger and a level, for records whose failure can be
printed. -/
def ending (l : Logging) (logger : String) (level : Int) :
    Except Failure Unit :=
  if l.loggers.isEnabled logger level then
    forM (l.sinksOf logger) Sink.ending else .ok ()

theorem result_log_of_printed
    (hproper : r.IsProper) (htext : r.text = .ok message)
    (hprinted : ∀ f ∈ r.failure, f.ensurePrinted = .ok ()) :
    (l.log r).result = l.ending r.logger r.level := by
  unfold log ending
  split
  · exact Sink.result_receiveAll hproper htext hprinted _
  · rfl

theorem exists_of_mem_log_of_printed
    (hproper : r.IsProper) (htext : r.text = .ok message)
    (hprinted : ∀ f ∈ r.failure, f.ensurePrinted = .ok ())
    {d : Delivery} (h : d ∈ (l.log r).events) :
    ∃ s ∈ l.sinksOf r.logger, d ∈ s.deliveries r message := by
  unfold log at h
  split at h
  · exact Sink.exists_of_mem_receiveAll hproper htext hprinted h
  · exact absurd h List.not_mem_nil

end Logging

/-- Whether or not a sink fails, only the record that is logged is kept. -/
theorem Logging.record_of_mem_log
    {l : Logging} {r : LogRecord} {message : String} (hproper : r.IsProper)
    (htext : r.text = .ok message) {name kept : String} {record : LogRecord}
    (h : Delivery.captured name kept record ∈ (l.log r).events) :
    record = r := by
  unfold log at h
  split at h
  · exact Sink.record_of_mem_receiveAll hproper htext h
  · cases h

theorem Logging.onlyFails_log
    (l : Logging) {r : LogRecord} {message : String} (hproper : r.IsProper)
    (htext : r.text = .ok message)
    (hsinks : ∀ s ∈ l.sinksOf r.logger, s.Contains r.failure) :
    (l.log r).OnlyFails fun f => f.IsThrown ∧ f.IsContainable := by
  unfold log
  split
  · exact Sink.onlyFails_receiveAll hproper htext hsinks
  · exact Run.OnlyFails.of_ok rfl

end QueryJournal

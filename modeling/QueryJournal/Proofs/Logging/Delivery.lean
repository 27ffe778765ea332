import Mathlib.Data.List.Basic
import QueryJournal.Logging.Basic
import QueryJournal.Proofs.Json.Standard.Writer
import QueryJournal.Proofs.Logging.Entries

/-!
# Where records arrive

A record whose properties nothing replaces and whose message can be formed
arrives at every sink of its logger, once at each.  Only capturing sinks can
fail on such a record: the console and files drop a record that cannot be laid
out.  The results of this module open `Logging.log` for records of this kind,
which are the only ones that the journal makes by itself.
-/

namespace QueryJournal

/-- A text, a number, or an object that is shown by a text. -/
def Value.IsSimple : Value → Prop
  | .text _ | .int _ | .float _ | .decimal _ | .object _ _ => True
  | _ => False

namespace Value

/-- Entries whose keys and values are texts and numbers. -/
def AreSimple (entries : List (Value × Value)) : Prop :=
  ∀ e ∈ entries, e.1.IsSimple ∧ e.2.IsSimple

theorem IsSimple.exists_literal {v : Value} (h : v.IsSimple) :
    ∃ s, v.literal = .ok s := by
  cases v with
  | text s => exact ⟨_, rfl⟩
  | int n => exact ⟨_, rfl⟩
  | float x => exact ⟨_, rfl⟩
  | decimal d => exact ⟨_, rfl⟩
  | object cls shown => exact ⟨_, rfl⟩
  | _ => exact h.elim

theorem exists_literals
    {vs : List Value} (h : ∀ v ∈ vs, v.IsSimple) :
    ∃ items, literals vs = .ok items := by
  induction vs with
  | nil => exact ⟨[], rfl⟩
  | cons v vs ih =>
    obtain ⟨s, hs⟩ := (h v List.mem_cons_self).exists_literal
    obtain ⟨items, hitems⟩ := ih fun w hw => h w (List.mem_cons_of_mem _ hw)
    refine ⟨s :: items, ?_⟩
    rw [literals, hs, hitems]
    rfl

theorem IsSimple.hasItems_eq {v : Value} (h : v.IsSimple) :
    v.hasItems = false := by
  cases v with
  | text s => rfl
  | int n => rfl
  | float x => rfl
  | decimal d => rfl
  | object cls shown => rfl
  | _ => exact h.elim

section Written

variable {fault : Json.Fault}

/-- What is asked back of the platform while a structured line is written. -/
abbrev hook : Json.Hook :=
  (Json.Platform.standard none).hook

theorem fault_of_integer {n : Int}
    (h : (Json.integer n).mapError .thrown = .error fault) :
    fault = .thrown .tooManyDigits := by
  unfold Json.integer at h
  split at h
  · cases h
    rfl
  · cases h

theorem IsSimple.fault_of_keyText {v : Value} (h : v.IsSimple)
    (hv : Json.keyText hook v = .error fault) :
    fault = .thrown .tooManyDigits := by
  cases v with
  | text s => cases hv
  | int n => exact fault_of_integer hv
  | float x => cases hv
  | decimal d => cases hv
  | object cls shown => cases hv
  | _ => exact h.elim

theorem IsSimple.fault_of_scalar {v : Value} (h : v.IsSimple)
    (hv : Json.scalar hook v = .error fault) :
    fault = .thrown .tooManyDigits := by
  cases v with
  | text s => cases hv
  | int n => exact fault_of_integer hv
  | float x => cases hv
  | decimal d => cases hv
  | object cls shown => cases hv
  | _ => exact h.elim

theorem AreSimple.fault_of_writeEntries
    {entries : List (Value × Value)} (h : AreSimple entries) {depth : Nat}
    (hentries : Json.writeEntries hook depth entries = .error fault) :
    fault = .thrown .tooManyDigits := by
  induction entries with
  | nil => cases hentries
  | cons entry entries ih =>
    obtain ⟨key, v⟩ := entry
    obtain ⟨hkey, hv⟩ := h (key, v) List.mem_cons_self
    rw [Json.writeEntries] at hentries
    rcases eq_error_or_of_bind hentries with herror | ⟨name, -, hrest⟩
    · exact hkey.fault_of_keyText herror
    rcases eq_error_or_of_bind hrest with herror | ⟨item, -, hrest⟩
    · rw [Json.write_of_not_hasItems hv.hasItems_eq] at herror
      exact hv.fault_of_scalar herror
    rcases eq_error_or_of_bind hrest with herror | ⟨members, -, hrest⟩
    · exact ih (fun e he => h e (List.mem_cons_of_mem _ he)) herror
    · cases hrest

end Written

/-- Simple entries have a JSON text, unless an integer among them has too many
digits. -/
theorem AreSimple.encode_error
    {entries : List (Value × Value)} (h : AreSimple entries) {f : Failure}
    (hf : (Json.Platform.standard none).encode (.mapping entries) = .error f) :
    f = .unencodable "dict" := by
  have hwrite : Json.write hook (Value.mapping entries).depth
      (.mapping entries) =
      (Json.writeEntries hook (depthIn entries) entries).map Json.object := by
    rw [depth, Json.write]
  cases hentries : Json.writeEntries hook (depthIn entries) entries with
  | error fault =>
    rw [hentries] at hwrite
    rw [Json.encode_standard, hwrite, h.fault_of_writeEntries hentries] at hf
    cases hf
    rfl
  | ok members =>
    rw [hentries] at hwrite
    rw [Json.encode_standard, hwrite] at hf
    cases hf

end Value

theorem Timestamp.dateText_error
    {seconds : Int} {f : Failure} (h : dateText seconds = .error f) :
    f = .timeOverflow ∨ f = .unknownYear := by
  unfold dateText at h
  dsimp only [throw, throwThe, MonadExceptOf.throw, bind, Except.bind, pure,
    Except.pure] at h
  split at h
  · cases h
    exact Or.inl rfl
  · split at h
    · cases h
      exact Or.inr rfl
    · split at h
      · cases h
        exact Or.inl rfl
      · cases h

theorem Timestamp.text_int (seconds millis : Int) :
    text (.int seconds) (.int millis) =
      (dateText seconds).map fun date =>
        date ++ "," ++ Number.paddedText 3 millis := by
  unfold text
  rw [show Timestamp.seconds (.int seconds) = .ok seconds from rfl]
  change (dateText seconds >>= _) = _
  cases dateText seconds with
  | ok date => rfl
  | error f => rfl

/-- Only a container among the arguments may stand for all of them. -/
theorem Message.pack_of_simple
    {args : List Value} (h : ∀ v ∈ args, v.IsSimple) :
    pack args = .tuple args := by
  unfold pack
  split
  next entry entries =>
    have hmapping : (Value.mapping (entry :: entries)).IsSimple :=
      h _ (List.mem_singleton_self _)
    exact hmapping.elim
  next => rfl

/-! ## Records that the journal makes -/

namespace LogRecord

/-- The names under which the application may replace something that a layout
reads. -/
def propertyNames : List String :=
  ["getMessage", "msg", "args", "created", "msecs", "levelname", "name",
    "module", "funcName", "lineno", "exc_info", "extra_fields"]

/-- A record of simple values that replaces none of its own properties. -/
structure IsProper (r : LogRecord) : Prop where
  args : ∀ v ∈ r.args, v.IsSimple
  values : ∀ e ∈ r.extra, e.2.IsSimple
  names : ∀ e ∈ r.extra, e.1 ∉ propertyNames
  fields : r.fields = none

namespace IsProper

variable {r : LogRecord}

theorem added?_eq_none
    (h : r.IsProper) {name : String} (hname : name ∈ propertyNames) :
    r.added? name = none := by
  rw [added?, Option.map_eq_none_iff, List.find?_eq_none]
  intro e he hsame
  have hextra : e ∈ r.extra := List.mem_reverse.mp he
  have heq : e.1 = name := by simpa using hsame
  exact h.names e hextra (heq ▸ hname)

theorem property_eq
    (h : r.IsProper) {name : String}
    (hname : name ∈ propertyNames) (own : Value) :
    r.property name own = own := by
  rw [property, h.added?_eq_none hname]
  rfl

theorem arguments_eq (h : r.IsProper) : r.arguments = Message.pack r.args := by
  rw [arguments, h.property_eq (by decide)]

/-- The message is the template filled with the arguments. -/
theorem text_eq (h : r.IsProper) :
    r.text = Message.fill r.message (Message.pack r.args) := by
  rw [text, h.added?_eq_none (by decide), h.property_eq (by decide),
    h.arguments_eq]
  rfl

theorem timestamp_eq (h : r.IsProper) :
    r.timestamp = Timestamp.text (.int r.time.seconds)
      (.int r.time.millis) := by
  rw [timestamp, h.property_eq (by decide), h.property_eq (by decide)]

theorem reported_eq (h : r.IsProper) :
    r.reported = .ok (r.failure.map fun f => r.trace.around f.line) := by
  rw [reported, h.added?_eq_none (by decide)]

theorem addedEntries_eq (h : r.IsProper) : r.addedEntries = .ok [] := by
  rw [addedEntries, h.fields, h.added?_eq_none (by decide)]
  rfl

/-! ## Laying records out -/

theorem entries_of_timestamp_ok
    (h : r.IsProper) {message timestamp : String} (htext : r.text = .ok message)
    (htime : r.timestamp = .ok timestamp) :
    ∃ entries, r.entries = .ok entries ∧ Value.AreSimple entries := by
  have hfixed : ∀ e ∈ r.fixedEntries timestamp message, e.2.IsSimple := by
    rw [fixedEntries, levelName, loggerName, h.property_eq (by decide),
      h.property_eq (by decide), h.property_eq (by decide),
      h.property_eq (by decide), h.property_eq (by decide)]
    simp [Value.IsSimple]
  have hlisting :
      Value.AreSimple (r.listing timestamp message []
        (r.failure.map fun f => r.trace.around f.line)) := by
    intro e he
    rw [listing, List.append_nil] at he
    rcases List.mem_append.mp he with hnamed | hlast
    · obtain ⟨named, hmem, rfl⟩ := List.mem_map.mp hnamed
      rcases List.mem_append.mp hmem with hown | hcopied
      · exact ⟨trivial, hfixed named hown⟩
      · exact ⟨trivial, h.values named (List.mem_filter.mp hcopied).1⟩
    · obtain ⟨line, -, rfl⟩ := List.mem_map.mp hlast
      exact ⟨trivial, trivial⟩
  refine ⟨_, entries_eq htime htext h.addedEntries_eq h.reported_eq, ?_⟩
  intro e he
  obtain ⟨⟨first, hfirst, hkey⟩, last, hlast, hvalue⟩ := exists_of_mem_merge he
  rw [← hkey, ← hvalue]
  exact ⟨(hlisting first hfirst).1, (hlisting last hlast).2⟩

theorem format_error_of_timestamp_ok
    (h : r.IsProper) {message timestamp : String} (htext : r.text = .ok message)
    (htime : r.timestamp = .ok timestamp) {layout : RecordLayout} {f : Failure}
    (hf : r.format layout = .error f) : f = .unencodable "dict" := by
  cases layout with
  | structured =>
    obtain ⟨entries, hentries, hsimple⟩ := h.entries_of_timestamp_ok htext htime
    rw [format, structured, hentries] at hf
    exact hsimple.encode_error hf
  | simple =>
    rw [format, LogRecord.simple, htext, htime, loggerName, levelName,
      h.property_eq (by decide), h.property_eq (by decide), h.reported_eq] at hf
    cases hfailure : r.failure with
    | none =>
      rw [hfailure] at hf
      cases hf
    | some g =>
      rw [hfailure] at hf
      cases hf

theorem format_of_timestamp_error
    {message : String} (htext : r.text = .ok message) {f : Failure}
    (htime : r.timestamp = .error f) (layout : RecordLayout) :
    r.format layout = .error f := by
  cases layout with
  | structured =>
    rw [format, structured, entries, htime]
    rfl
  | simple =>
    rw [format, LogRecord.simple, htext, htime]
    rfl

/-! ## Dropping records -/

theorem timestamp_error
    (h : r.IsProper) {f : Failure} (htime : r.timestamp = .error f) :
    f = .timeOverflow ∨ f = .unknownYear := by
  rw [h.timestamp_eq, Timestamp.text_int] at htime
  cases hdate : Timestamp.dateText r.time.seconds with
  | ok date =>
    rw [hdate] at htime
    cases htime
  | error g =>
    rw [hdate] at htime
    cases htime
    exact Timestamp.dateText_error hdate

/-- A record that cannot be laid out is dropped. -/
theorem passesSinks_of_format_error
    (h : r.IsProper) {message : String} (htext : r.text = .ok message)
    {layout : RecordLayout} {f : Failure} (hf : r.format layout = .error f) :
    f.passesSinks = false := by
  cases htime : r.timestamp with
  | ok timestamp =>
    rw [h.format_error_of_timestamp_ok htext htime hf]
    rfl
  | error g =>
    rw [format_of_timestamp_error htext htime layout] at hf
    cases hf
    rcases h.timestamp_error htime with rfl | rfl
    · rfl
    · rfl

/-- The arguments of a dropped record can be shown. -/
theorem showArguments_eq (h : r.IsProper) : r.showArguments = ⟨[], .ok ()⟩ := by
  obtain ⟨items, hitems⟩ := Value.exists_literals h.args
  rw [showArguments, h.arguments_eq, Message.pack_of_simple h.args, Value.plain,
    Value.literal, hitems]
  · rfl
  all_goals simp

end IsProper

/-- The lines that a record is laid out as: one, unless it cannot be laid
out. -/
def lines (r : LogRecord) (layout : RecordLayout) : List String :=
  match r.format layout with
  | .ok s => [s ++ "\n"]
  | .error _ => []

theorem IsProper.writeLine_eq
    {r : LogRecord} (h : r.IsProper) {message : String}
    (htext : r.text = .ok message)
    (layout : RecordLayout) (deliver : String → Delivery) :
    r.writeLine layout deliver = ⟨(r.lines layout).map deliver, .ok ()⟩ := by
  rw [writeLine, lines]
  cases hformat : r.format layout with
  | ok s => rfl
  | error f =>
    have hpasses := h.passesSinks_of_format_error htext hformat
    simp only [Run.ofExcept, Run.recover, bind, Run.andThen, hpasses,
      h.showArguments_eq]
    rfl

end LogRecord

/-! ## Sinks -/

namespace Sink

/-- A sink that does not fail on the records of a failure: a capturing sink
throws nothing by itself and can print the failure. -/
def Takes (failure : Option Failure) : Sink → Prop
  | .capture c => c.fault = none ∧ ∀ f ∈ failure, f.ensurePrinted = .ok ()
  | .console _ | .file _ => True

theorem takes_capture (name : String) : (capture ⟨name, none⟩).Takes none :=
  ⟨rfl, fun f hf => absurd hf (Option.not_mem_none f)⟩

/-- What a sink does with a record on which it does not fail. -/
def deliveries (r : LogRecord) (message : String) : Sink → List Delivery
  | .capture c => [.captured c.name message r]
  | .console layout => (r.lines layout).map .printed
  | .file index => (r.lines .structured).map (.appended index)

variable {r : LogRecord} {message : String}

/-- How a sink ends that has received a record: a capturing one may throw
then. -/
def ending : Sink → Except Failure Unit
  | .capture c =>
    match c.fault with
    | some e => .error (.thrown e)
    | none => .ok ()
  | .console _ | .file _ => .ok ()

theorem receive_capture
    (htext : r.text = .ok message)
    (hprinted : ∀ f ∈ r.failure, f.ensurePrinted = .ok ()) (c : Capture) :
    (capture c).receive r =
      ⟨(capture c).deliveries r message, (capture c).ending⟩ := by
  have hfailure : r.failure.toList.forM Failure.ensurePrinted = .ok () := by
    cases hr : r.failure with
    | none => rfl
    | some f =>
      have hf : f.ensurePrinted = .ok () := hprinted f hr
      simp [hf, bind, Except.bind, pure, Except.pure]
  rw [receive, htext, hfailure, ending]
  cases c.fault with
  | none => rfl
  | some e => rfl

theorem receive_of_takes
    (hproper : r.IsProper) (htext : r.text = .ok message) {s : Sink}
    (hs : s.Takes r.failure) :
    s.receive r = ⟨s.deliveries r message, .ok ()⟩ := by
  cases s with
  | capture c => rw [receive_capture htext hs.2, ending, hs.1]
  | console layout => exact hproper.writeLine_eq htext layout .printed
  | file index => exact hproper.writeLine_eq htext .structured (.appended index)

/-- What is done with a record whose failure can be printed does not depend on
how the sink ends. -/
theorem receive_of_printed
    (hproper : r.IsProper) (htext : r.text = .ok message)
    (hprinted : ∀ f ∈ r.failure, f.ensurePrinted = .ok ()) (s : Sink) :
    s.receive r = ⟨s.deliveries r message, s.ending⟩ := by
  cases s with
  | capture c => exact receive_capture htext hprinted c
  | console layout => exact hproper.writeLine_eq htext layout .printed
  | file index => exact hproper.writeLine_eq htext .structured (.appended index)

/-- A record goes to some sinks in turn if none of them fails. -/
theorem receiveAll_of_ok
    {sinks : List Sink} (h : ∀ s ∈ sinks, (s.receive r).result = .ok ()) :
    receiveAll r sinks = ⟨sinks.flatMap fun s =>
      (s.receive r).events, .ok ()⟩ := by
  induction sinks with
  | nil => rfl
  | cons s sinks ih =>
    have hs := h s List.mem_cons_self
    have hrest := ih fun t ht => h t (List.mem_cons_of_mem _ ht)
    rw [receiveAll, Run.bind_of_ok hs, hrest, List.flatMap_cons]

theorem receiveAll_of_takes
    (hproper : r.IsProper) (htext : r.text = .ok message) {sinks : List Sink}
    (hsinks : ∀ s ∈ sinks, s.Takes r.failure) :
    receiveAll r sinks = ⟨sinks.flatMap (deliveries r message), .ok ()⟩ := by
  have hreceive : ∀ s ∈ sinks, s.receive r = ⟨s.deliveries r message, .ok ()⟩ :=
    fun s hs => receive_of_takes hproper htext (hsinks s hs)
  have hevents : (sinks.flatMap fun s => (s.receive r).events) =
      sinks.flatMap (deliveries r message) :=
    List.flatMap_congr fun s hs => by rw [hreceive s hs]
  rw [receiveAll_of_ok fun s hs => by rw [hreceive s hs], hevents]

end Sink

namespace Logging

/-- The sinks of a logger with what each of them does with a record: nothing if
the logger does not take the record. -/
def deliveries (l : Logging) (r : LogRecord) (message : String) :
    List Delivery :=
  if l.loggers.isEnabled r.logger r.level then
    (l.sinksOf r.logger).flatMap (Sink.deliveries r message)
  else []

/-- Sinks keep the record that they are given. -/
theorem record_of_mem_deliveries
    {l : Logging} {r : LogRecord} {message name kept : String}
    {record : LogRecord}
    (h : Delivery.captured name kept record ∈ l.deliveries r message) :
    record = r := by
  unfold deliveries at h
  split at h
  · obtain ⟨s, -, hs⟩ := List.mem_flatMap.mp h
    cases s with
    | capture c =>
      cases List.mem_singleton.mp hs
      rfl
    | console layout => simp [Sink.deliveries] at hs
    | file index => simp [Sink.deliveries] at hs
  · cases h

/-- A record that is logged arrives once at every sink of its logger. -/
theorem log_of_takes
    (l : Logging) {r : LogRecord} {message : String} (hproper : r.IsProper)
    (htext : r.text = .ok message)
    (hsinks : ∀ s ∈ l.sinksOf r.logger, s.Takes r.failure) :
    l.log r = ⟨l.deliveries r message, .ok ()⟩ := by
  unfold log deliveries
  split
  · exact Sink.receiveAll_of_takes hproper htext hsinks
  · rfl

/-- Without sinks of its own the journal uses those of the root. -/
theorem sinksOf_of_journalSinks_eq_nil
    {l : Logging} (hjournal : l.journalSinks = [])
    (hpropagates : l.propagates = true)
    (logger : String) : l.sinksOf logger = l.rootSinks := by
  rw [sinksOf, hjournal, if_pos hpropagates, List.nil_append, ite_self]

theorem mem_of_mem_sinksOf
    {l : Logging} {logger : String} {s : Sink} (h : s ∈ l.sinksOf logger) :
    s ∈ l.rootSinks ++ l.journalSinks := by
  unfold sinksOf at h
  split at h
  · rcases List.mem_append.mp h with hjournal | hroot
    · exact List.mem_append_right _ hjournal
    · split at hroot
      · exact List.mem_append_left _ hroot
      · exact absurd hroot List.not_mem_nil
  · exact List.mem_append_left _ h

end Logging

end QueryJournal

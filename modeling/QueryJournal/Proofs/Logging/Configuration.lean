import Mathlib.Data.List.Nodup
import QueryJournal.Logging.Configure
import QueryJournal.Proofs.FirstOccurrences
import QueryJournal.Proofs.Logging.Delivery
import QueryJournal.Proofs.Logging.Levels

/-!
# The configuration in force

A configuration takes the place of the one before it, whatever that was, and one
whose level is refused changes nothing.  So after any number of them the last
one that was not refused is in force, as if it were the only one.  From then on
the records of the journal go to its sinks, once to each, and to no others.
-/

namespace QueryJournal

namespace Loggers

variable {ls : Loggers} {name : String}

/-! ## The loggers of the journal -/

/-- A logger belongs to the journal. -/
def IsOfJournal (ls : Loggers) (name : String) : Prop :=
  name = journalName ∨ ls.IsAbove name journalName

theorem journalName_mem_lineage_iff :
    journalName ∈ ls.lineage name ↔ ls.IsOfJournal name := by
  by_cases hname : canonical name = rootName
  · rw [lineage, if_pos hname]
    refine iff_of_false List.not_mem_nil ?_
    rintro (rfl | habove)
    · exact absurd hname (by decide)
    · exact not_liesBelow_of_root hname habove.1.liesBelow
  · rw [mem_lineage_iff hname, IsOfJournal, eq_comm]

/-- The loggers below the journal's are of the journal, unless their names have
two dots in a row there. -/
theorem isOfJournal_of_dot {rest : List Char}
    (hknown : ls.knows journalName = true)
    (hname : name.toList = journalName.toList ++ '.' :: rest)
    (hrest : rest.head? ≠ some '.') :
    ls.IsOfJournal name := by
  have hpasses : ls.passesOver journalName rest = false := by
    rw [passesOver]
    rintro rest' rfl
    exact hrest rfl
  have hlate : ¬ls.IsLate name journalName := fun h => absurd h.1 (by decide)
  exact .inr ⟨⟨by decide, hknown, rest, hname, hpasses⟩, hlate⟩

end Loggers

namespace Logging

open Loggers (journalName)

variable {l : Logging} {c : Configuration} {level : ℤ} {f : Failure}

/-! ## The sinks of a configuration -/

namespace Configuration

theorem distinctExtras_eq (c : Configuration) :
    c.distinctExtras = c.extras.foldl (addNew Capture.name) [] :=
  rfl

theorem map_name_distinctExtras (c : Configuration) :
    c.distinctExtras.map Capture.name =
      (c.extras.map Capture.name).eraseDups := by
  rw [distinctExtras_eq, map_foldl_addNew]

theorem distinctExtras_sublist (c : Configuration) :
    c.distinctExtras.Sublist c.extras := by
  rw [distinctExtras_eq]
  exact foldl_addNew_sublist Capture.name c.extras

theorem nodup_sinks (c : Configuration) : c.sinks.Nodup := by
  have hfile : (c.file.toList.map Sink.file).Nodup := by
    cases c.file with
    | none => exact List.nodup_nil
    | some index => exact List.nodup_singleton _
  have hnames : (c.distinctExtras.map Capture.name).Nodup := by
    rw [map_name_distinctExtras]
    exact nodup_eraseDups _
  have hextras : (c.distinctExtras.map Sink.capture).Nodup :=
    (List.Nodup.of_map _ hnames).map fun _ _ h => Sink.capture.inj h
  rw [sinks, List.cons_append, List.nodup_cons, List.nodup_append]
  refine ⟨?_, hfile, hextras, ?_⟩
  · simp
  · rintro s hs t ht rfl
    obtain ⟨index, -, rfl⟩ := List.mem_map.mp hs
    obtain ⟨e, -, he⟩ := List.mem_map.mp ht
    cases he

/-- A configuration with its level, unless that is refused. -/
def accepted? (c : Configuration) : Option (Configuration × ℤ) :=
  match c.level.resolve with
  | .ok level => some (c, level)
  | .error _ => none

/-- The last of some configurations that is not refused, with its level. -/
def inForce (calls : List Configuration) : Option (Configuration × ℤ) :=
  (calls.filterMap accepted?).getLast?

theorem inForce_concat (calls : List Configuration) (c : Configuration) :
    inForce (calls ++ [c]) = c.accepted?.or (inForce calls) := by
  rw [inForce, inForce, List.filterMap_append, List.getLast?_append]
  cases h : c.accepted? with
  | none => simp [h]
  | some a => simp [h]

end Configuration

/-! ## One configuration -/

theorem configure_of_error (h : c.level.resolve = .error f) :
    l.configure c = (l, Run.fail f) := by
  rw [configure, h]

theorem configure_of_ok (h : c.level.resolve = .ok level) :
    (l.configure c).1 = l.apply c level := by
  rw [configure, h]

/-- A level of an unknown name is refused before anything is changed. -/
theorem configure_of_unknown_name {name : String} (hname : c.level = .name name)
    (h : Level.ofName? name = none) :
    l.configure c = (l, Run.fail (.unknownLevel name)) := by
  apply configure_of_error
  rw [hname, LevelChoice.resolve, h]

/-- Nothing of a configuration is left once another one is applied. -/
theorem apply_apply (l : Logging) (c c' : Configuration) (m n : ℤ) :
    (l.apply c m).apply c' n = l.apply c' n := by
  have hloggers := l.loggers.setLevel_setLevel journalName m n
  simp only [apply, setLevel]
  rw [hloggers]

/-! ## Many configurations -/

/-- Configures the journal's log some times in turn. -/
def configureAll (l : Logging) (calls : List Configuration) : Logging :=
  calls.foldl (fun l c => (l.configure c).1) l

/-- After some configurations only the last one that was not refused matters. -/
theorem configureAll_eq (l : Logging) (calls : List Configuration) :
    l.configureAll calls =
      match Configuration.inForce calls with
      | some (c, level) => l.apply c level
      | none => l := by
  induction calls using List.reverseRecOn with
  | nil => rfl
  | append_singleton calls c ih =>
    have hlast : l.configureAll (calls ++ [c]) =
        ((l.configureAll calls).configure c).1 := by
      rw [configureAll, List.foldl_append]
      rfl
    rw [hlast, Configuration.inForce_concat]
    cases hlevel : c.level.resolve with
    | error f =>
      have hrefused : c.accepted? = none := by
        rw [Configuration.accepted?, hlevel]
      rw [configure_of_error hlevel, hrefused, Option.none_or, ih]
    | ok level =>
      have haccepted : c.accepted? = some (c, level) := by
        rw [Configuration.accepted?, hlevel]
      rw [configure_of_ok hlevel, haccepted, Option.some_or, ih]
      cases Configuration.inForce calls with
      | none => rfl
      | some before => exact apply_apply l before.1 c before.2 level

/-! ## Where records go -/

theorem sinksOf_of_isOfJournal {name : String} (h : l.loggers.IsOfJournal name)
    (hpropagates : l.propagates = false) : l.sinksOf name = l.journalSinks := by
  rw [sinksOf, if_pos (Loggers.journalName_mem_lineage_iff.mpr h), hpropagates]
  exact List.append_nil _

theorem sinksOf_of_not_isOfJournal {name : String}
    (h : ¬l.loggers.IsOfJournal name) :
    l.sinksOf name = l.rootSinks :=
  if_neg fun hmem => h (Loggers.journalName_mem_lineage_iff.mp hmem)

/-- The records of the journal go to the sinks of its configuration. -/
theorem log_of_isOfJournal {r : LogRecord} (h : l.loggers.IsOfJournal r.logger)
    (henabled : l.loggers.isEnabled r.logger r.level = true)
    (hpropagates : l.propagates = false) :
    l.log r = Sink.receiveAll r l.journalSinks := by
  rw [log, if_pos henabled, sinksOf_of_isOfJournal h hpropagates]

theorem log_of_not_isOfJournal {r : LogRecord}
    (h : ¬l.loggers.IsOfJournal r.logger)
    (henabled : l.loggers.isEnabled r.logger r.level = true) :
    l.log r = Sink.receiveAll r l.rootSinks := by
  rw [log, if_pos henabled, sinksOf_of_not_isOfJournal h]

theorem levelOf_apply (l : Logging) (c : Configuration) (level : ℤ) :
    (l.apply c level).loggers.levelOf journalName = level :=
  (Loggers.levelOf_setLevel journalName level journalName).trans (if_pos rfl)

theorem knows_journalName_apply (l : Logging) (c : Configuration) (level : ℤ) :
    (l.apply c level).loggers.knows journalName = true := by
  refine (Loggers.knows_setLevel (by decide) journalName).trans ?_
  simp

/-- The last configuration whose level is not refused is in force: it gives the
journal its level and its sinks, each once, and keeps the records of the journal
from the root.  A level of an unknown name is refused, and nothing is changed
then. -/
theorem last_configuration_is_in_force (l : Logging)
    (calls : List Configuration) :
    let configured := l.configureAll calls
    (∀ c name, c.level = .name name → Level.ofName? name = none →
      configured.configure c = (configured, Run.fail (.unknownLevel name)) ∧
        (Failure.unknownLevel name).cls = .value) ∧
    (Configuration.inForce calls = none → configured = l) ∧
    ∀ c level, Configuration.inForce calls = some (c, level) →
      configured = l.apply c level ∧
      configured.loggers.levelOf journalName = level ∧
      configured.propagates = false ∧
      configured.journalSinks =
        .console (.ofStyle c.style) :: c.file.toList.map Sink.file ++
        c.distinctExtras.map Sink.capture ∧
      c.distinctExtras.Sublist c.extras ∧
      c.distinctExtras.map Capture.name =
        (c.extras.map Capture.name).eraseDups ∧
      configured.journalSinks.Nodup ∧
      ∀ ls, configured.loggers.Later ls →
        let later := { configured with loggers := ls }
        (∀ r, ls.IsOfJournal r.logger → ls.isEnabled r.logger r.level = true →
          later.log r = Sink.receiveAll r c.sinks ∧
          ((∀ s ∈ c.sinks, (s.receive r).result = .ok ()) →
            later.log r = ⟨c.sinks.flatMap fun s =>
              (s.receive r).events, .ok ()⟩)) ∧
        (∀ r, ¬ls.IsOfJournal r.logger → ls.isEnabled r.logger r.level = true →
          later.log r = Sink.receiveAll r l.rootSinks) ∧
        ∀ name rest, name.toList = journalName.toList ++ '.' :: rest →
        rest.head? ≠ some '.' →
          ls.IsOfJournal name := by
  intro configured
  have hlast := l.configureAll_eq calls
  refine ⟨fun c name hname hunknown =>
    ⟨configure_of_unknown_name hname hunknown, rfl⟩, ?_, ?_⟩
  · intro hnone
    rw [hnone] at hlast
    exact hlast
  · intro c level hsome
    rw [hsome] at hlast
    have hconfigured : configured = l.apply c level := hlast
    rw [hconfigured]
    refine ⟨rfl, l.levelOf_apply c level, rfl, rfl, c.distinctExtras_sublist,
      c.map_name_distinctExtras, c.nodup_sinks, ?_⟩
    intro ls hlater later
    have hknown : ls.knows journalName = true :=
      hlater.knows (l.knows_journalName_apply c level)
    refine ⟨?_, ?_, fun name rest => Loggers.isOfJournal_of_dot hknown⟩
    · intro r hjournal henabled
      have hlog : later.log r = Sink.receiveAll r c.sinks :=
        log_of_isOfJournal hjournal henabled rfl
      exact ⟨hlog, fun hsinks => hlog.trans (Sink.receiveAll_of_ok hsinks)⟩
    · intro r hother henabled
      exact log_of_not_isOfJournal hother henabled

/-- A refused configuration leaves the one before it in force, and a sink that
is listed twice gets every record once. -/
theorem last_configuration_is_in_force_of_refused :
    let a : Capture := ⟨"a", none⟩
    let b : Capture := ⟨"b", none⟩
    let l :=
      Logging.initial [.capture ⟨"root", none⟩] ⟨"client", "run", 7⟩ ⟨0, 0⟩
    let first : Configuration := ⟨.name "info", .text "structured", some 0, [a]⟩
    let last : Configuration :=
      ⟨.number Level.debug, .text "simple", none, [b, a, b]⟩
    let refused : Configuration :=
      ⟨.name "LOUD", .text "structured", some 1, [a]⟩
    let configured := l.configureAll [first, last, refused]
    let r := configured.record "querylog.query.normal" Level.debug "done" []
    configured.loggers.levelOf journalName = Level.debug ∧
      configured.journalSinks = [.console .simple, .capture b, .capture a] ∧
      configured.log r = Sink.receiveAll r [.console .simple, .capture b,
        .capture a] := by
  intro a b l first last refused configured r
  obtain ⟨-, -, hlast⟩ :=
    last_configuration_is_in_force l [first, last, refused]
  have hforce : Configuration.inForce [first, last, refused] =
      some (last, Level.debug) := rfl
  obtain ⟨-, hlevel, -, hsinks, -, -, -, hlater⟩ :=
    hlast last Level.debug hforce
  obtain ⟨hlog, -, hnames⟩ := hlater configured.loggers .refl
  have hjournal : configured.loggers.IsOfJournal r.logger :=
    hnames _ "query.normal".toList (by decide) (by decide)
  exact ⟨hlevel, hsinks, (hlog r hjournal (by decide)).1⟩

/-- A logger whose name is put below that of the journal does not belong to it:
a dot follows the one after the journal's name, so that its records go to the
root's sinks only. -/
theorem dotted_logger_stays_outside :
    let source : LogRecord.Source := ⟨"driver", "call", 1⟩
    let l := Logging.initial [.capture ⟨"root", none⟩] source ⟨0, 0⟩
    let standard : Configuration :=
      ⟨Configuration.standardLevel, Configuration.standardStyle, none,
        [⟨"extra0", none⟩]⟩
    let configured := l.configureAll [standard]
    let name := Loggers.withinJournal (some ".x")
    let r := configured.record name Level.error "lost" []
    Configuration.inForce [standard] = some (standard, Level.info) ∧
    name = "querylog..x" ∧
    configured.loggers.isEnabled name Level.error = true ∧
    (configured.log r).events = [.captured "root" "lost" r] := by
  refine ⟨rfl, by decide, by decide, rfl⟩

end Logging

end QueryJournal

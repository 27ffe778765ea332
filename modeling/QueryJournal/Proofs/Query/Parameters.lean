import QueryJournal.Proofs.Query.Line

/-!
# Bound values in the line

Where details are asked for, every bound value is printed on its own.  A value
that cannot be printed is left out and reported, and the others are shown as if
it were not there.  While the journal's own sinks work, this never fails.
-/

namespace QueryJournal

/-- The values bound to a statement with the names of their variables. -/
def Statement.boundValues : Statement → List (String × BoundValue)
  | .bound b => b.named
  | _ => []

theorem Bound.named_eq_nil_iff (b : Bound) : b.named = [] ↔ b.values = [] := by
  rw [← List.length_eq_zero_iff, ← List.length_eq_zero_iff, Bound.named,
    List.length_zip, List.length_map, ← b.length_eq, Nat.min_self]

/-- Failures to print a bound value can be printed themselves. -/
theorem BoundValue.ensurePrinted_of_render_error
    {v : BoundValue} {limit : Int} {f : Failure}
    (h : v.render limit = .error f) :
    f.ensurePrinted = .ok () := by
  unfold render at h
  split at h
  · cases h
  · split at h
    · cases h
    · cases h
      rfl

theorem Sink.Takes.of_printed
    {s : Sink} {failure other : Option Failure} (h : s.Takes failure)
    (hother : ∀ f ∈ other, f.ensurePrinted = .ok ()) : s.Takes other := by
  cases s with
  | capture c => exact ⟨h.1, hother⟩
  | console layout => trivial
  | file index => trivial

namespace Recorder

/-! ## Values that are shown and values that are left out -/

/-- The texts of the named values that can be printed, in their order. -/
def printed (limit : Int) (values : List (String × BoundValue)) : List String :=
  values.filterMap fun (name, v) =>
    match v.render limit with
    | .ok s => some (name ++ ":" ++ s)
    | .error _ => none

/-- The names of the values that cannot be printed, in their order, with the
failures to print them. -/
def omitted (limit : Int) (values : List (String × BoundValue)) :
    List (String × Failure) :=
  values.filterMap fun (name, v) =>
    match v.render limit with
    | .ok _ => none
    | .error f => some (name, f)

section Cons

variable {limit : Int} {name : String} {v : BoundValue}
  (values : List (String × BoundValue))

theorem printed_cons_of_ok {s : String} (h : v.render limit = .ok s) :
    printed limit ((name, v) :: values) =
      (name ++ ":" ++ s) :: printed limit values := by
  simp [printed, h]

theorem printed_cons_of_error {f : Failure} (h : v.render limit = .error f) :
    printed limit ((name, v) :: values) = printed limit values := by
  simp [printed, h]

theorem omitted_cons_of_ok {s : String} (h : v.render limit = .ok s) :
    omitted limit ((name, v) :: values) = omitted limit values := by
  simp [omitted, h]

theorem omitted_cons_of_error {f : Failure} (h : v.render limit = .error f) :
    omitted limit ((name, v) :: values) =
      (name, f) :: omitted limit values := by
  simp [omitted, h]

end Cons

theorem ne_empty_of_mem_printed
    {limit : Int} {values : List (String × BoundValue)} {s : String}
    (h : s ∈ printed limit values) : s ≠ "" := by
  obtain ⟨⟨name, v⟩, -, hv⟩ := List.mem_filterMap.mp h
  dsimp only at hv
  split at hv
  · cases hv
    simp
  · cases hv

/-! ## Reports of values that are left out -/

/-- The report that a value is left out. -/
def omission (l : Logging) (name : String) (f : Failure) : LogRecord :=
  { l.record Loggers.troubleName Level.debug
    "Omitting bound value %r from query log"
      [.text name] with failure := some f }

/-- The message of the report that a value is left out. -/
def omissionText (name : String) : String :=
  "Omitting bound value " ++ Text.quoted name ++ " from query log"

theorem omission_isProper (l : Logging) (name : String) (f : Failure) :
    (omission l name f).IsProper where
  args := by simp [omission, Logging.record, Value.IsSimple]
  values := List.forall_mem_nil _
  names := List.forall_mem_nil _
  fields := rfl

theorem omission_text (l : Logging) (name : String) (f : Failure) :
    (omission l name f).text = .ok (omissionText name) := by
  rw [(omission_isProper l name f).text_eq]
  exact Message.fill_literal (by simp [omission, Logging.record])
    (by decide) (by decide) (Value.literal_text name)

/-- The reports of all values that are left out. -/
def omissions
    (l : Logging) (limit : Int) (values : List (String × BoundValue)) :
    List Delivery :=
  (omitted limit values).flatMap fun (name, f) =>
    l.deliveries (omission l name f) (omissionText name)

/-! ## Printing bound values -/

/-- The texts of the values that can be printed, and a report for each of the
others. -/
theorem renderParameters_eq
    {l : Logging} (hsinks : ∀ s ∈ l.sinksOf Loggers.troubleName, s.Takes none)
    (limit : Int) (values : List (String × BoundValue)) :
    renderParameters l limit values =
      ⟨omissions l limit values, .ok (printed limit values)⟩ := by
  induction values with
  | nil => rfl
  | cons entry values ih =>
    obtain ⟨name, v⟩ := entry
    cases hv : v.render limit with
    | ok s =>
      rw [renderParameters, hv, omissions, omitted_cons_of_ok values hv,
        printed_cons_of_ok values hv]
      change (renderParameters l limit values >>= _) = _
      rw [ih, Run.bind_of_ok rfl]
      exact congrArg (Run.mk · _) (List.append_nil _)
    | error f =>
      have hreport : l.log (omission l name f) =
          ⟨l.deliveries (omission l name f) (omissionText name), .ok ()⟩ := by
        refine l.log_of_takes (omission_isProper l name f)
          (omission_text l name f) ?_
        intro s hs
        refine (hsinks s hs).of_printed fun g hg => ?_
        have hf : f = g := Option.some.inj hg
        rw [← hf]
        exact BoundValue.ensurePrinted_of_render_error hv
      rw [renderParameters, hv, omissions, omitted_cons_of_error values hv,
        printed_cons_of_error values hv, List.flatMap_cons]
      change (l.log (omission l name f) >>= _) = _
      rw [hreport, Run.bind_of_ok rfl, ih]
      rfl

/-- The bound values that a gate asks for. -/
def details (g : Gate) (ls : Loggers) (s : Statement) :
    List (String × BoundValue) :=
  if g.detailEnabled ls then s.boundValues else []

theorem details_of_boundValues_eq_nil
    {s : Statement} (h : s.boundValues = []) (g : Gate) (ls : Loggers) :
    details g ls s = [] := by
  rw [details, h, ite_self]

/-- Where the gate answers, its answer tells whether the bound values are
shown. -/
theorem parameters_eq
    {l : Logging} (hsinks : ∀ s ∈ l.sinksOf Loggers.troubleName, s.Takes none)
    {g : Gate} {s : Statement}
    (hg : s.boundValues ≠ [] → g.check .detail = .ok ()) (limit : Int) :
    parameters l g limit s =
      ⟨omissions l limit (details g l.loggers s),
        .ok (printed limit (details g l.loggers s))⟩ := by
  cases s with
  | bound b =>
    rw [parameters]
    by_cases hempty : b.values = []
    · have hnamed : (Statement.bound b).boundValues = [] :=
        b.named_eq_nil_iff.mpr hempty
      rw [if_pos (List.isEmpty_iff.mpr hempty),
        details_of_boundValues_eq_nil hnamed]
      rfl
    · have hask : g.askDetail l.loggers = .ok (g.detailEnabled l.loggers) := by
        rw [Gate.askDetail, Gate.ask, hg (mt b.named_eq_nil_iff.mp hempty)]
        rfl
      rw [if_neg (mt List.isEmpty_iff.mp hempty), hask,
        Run.bind_of_ok rfl, details]
      by_cases henabled : g.detailEnabled l.loggers
      · rw [if_pos henabled, if_pos henabled, renderParameters_eq hsinks]
        rfl
      · rw [if_neg henabled, if_neg henabled]
        rfl
  | _ =>
    rw [details_of_boundValues_eq_nil rfl]
    rfl

end Recorder

end QueryJournal

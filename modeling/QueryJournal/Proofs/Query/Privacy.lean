import QueryJournal.Proofs.Query.Containment
import QueryJournal.Proofs.Query.Independence

/-!
# Bound values stay private

Two statements differ in the bytes of their bound values only if nothing is left
to tell them apart once these bytes are taken out.  Such statements are recorded
in the same way unless the gate asks for details and the statement is not a
batch.  Where details are shown, the line depends on the texts of the values
within their limit, and on nothing else.

The second part needs care where values cannot be printed: the reports of these
come before the line and may differ, and a sink may fail on one of them.  So two
runs are compared that are the same from some point on, with reports before it.
-/

namespace QueryJournal

/-! ## Taking out bytes -/

/-- The place of a value, without its bytes. -/
def BoundValue.masked (v : BoundValue) : BoundValue :=
  { v with raw := none }

/-- A bound statement without the bytes of its values. -/
def Bound.masked (b : Bound) : Bound where
  prepared := b.prepared
  values := b.values.map BoundValue.masked
  length_eq := by rw [List.length_map, b.length_eq]

namespace Statement

mutual

/-- A statement without the bytes of its bound values, at any depth. -/
def masked : Statement → Statement
  | .bound b => .bound b.masked
  | .batch type members => .batch type (maskedMembers members)
  | s => s

/-- Some statements without the bytes of their bound values. -/
def maskedMembers : List Statement → List Statement
  | [] => []
  | member :: members => masked member :: maskedMembers members

end

theorem isInternal_masked (s : Statement) :
    s.masked.isInternal = s.isInternal := by
  cases s <;> rfl

theorem masked_ne_internal {s : Statement} (h : s ≠ .internal) :
    s.masked ≠ .internal := by
  intro hmasked
  apply h
  rw [← isInternal_eq_true_iff, ← isInternal_masked, hmasked]
  rfl

mutual

/-- No byte of a value is written with a statement. -/
theorem writeTo_masked :
    ∀ (b : Budget) (s : Statement), s.masked.writeTo b = s.writeTo b
  | b, .batch type members => by
    rw [masked, writeTo, writeTo, writeMembers_maskedMembers _ members]
  | _, .bound _ => rfl
  | _, .internal => rfl
  | _, .plain _ => rfl
  | _, .prepared _ => rfl
  | _, .foreign => rfl

theorem writeMembers_maskedMembers :
    ∀ (b : Budget) (members : List Statement),
      writeMembers b (maskedMembers members) = writeMembers b members
  | _, [] => rfl
  | b, member :: members => by
    rw [maskedMembers]
    by_cases hinternal : member = .internal
    · subst hinternal
      exact writeMembers_maskedMembers b members
    · rw [writeMembers_cons_of_ne_internal (masked_ne_internal hinternal),
        writeMembers_cons_of_ne_internal hinternal,
        writeTo_masked (b.append " ") member]
      exact writeMembers_maskedMembers _ members

end

theorem renderWithin_masked (limit : Int) (s : Statement) :
    s.masked.renderWithin limit = s.renderWithin limit := by
  simp only [renderWithin, writeTo_masked]

theorem exists_bound_of_masked_eq
    {s : Statement} {b : Bound} (h : s.masked = (Statement.bound b).masked) :
    ∃ b', s = .bound b' := by
  cases s with
  | bound b' => exact ⟨b', rfl⟩
  | _ => cases h

theorem prepared_eq_of_masked_eq
    {b b' : Bound}
    (h : (Statement.bound b).masked = (Statement.bound b').masked) :
    b.prepared = b'.prepared := by
  rw [masked, masked] at h
  have hbound : b.masked = b'.masked := Statement.bound.inj h
  have hprepared := congrArg Bound.prepared hbound
  exact hprepared

end Statement

/-! ## Texts of values -/

namespace BoundValue

/-- The text of a bound value within a limit, none if it cannot be printed. -/
def text? (limit : Int) (v : BoundValue) : Option String :=
  (v.render limit).toOption

theorem text?_of_render_ok {v : BoundValue} {limit : Int} {s : String}
    (h : v.render limit = .ok s) :
    v.text? limit = some s := by
  rw [text?, h]
  rfl

theorem text?_of_render_error
    {v : BoundValue} {limit : Int} {f : Failure}
    (h : v.render limit = .error f) :
    v.text? limit = none := by
  rw [text?, h]
  rfl

theorem text?_eq_cut
    {v : BoundValue} (hnull : v.isNull = false) {s : String}
    (h : v.text? (-1) = some s)
    (limit : Int) : v.text? limit = some (Text.cut limit s) := by
  unfold text? render at h ⊢
  rw [if_neg (by simp [hnull])] at h ⊢
  cases hprint : v.type.print v.bytes with
  | ok printed =>
    rw [hprint] at h
    have hsame : printed = s := Option.some.inj h
    rw [hsame]
    rfl
  | error fault =>
    rw [hprint] at h
    cases h

end BoundValue

theorem Text.cut_of_lt_length {n : Nat} {s : String} (h : n < s.length) :
    cut n s = take n s ++ ellipsis := by
  have hnone : ¬((n : Int) = -1 ∨ (s.length : Int) ≤ n) := by omega
  have hnonneg : ¬((n : Int) < 0) := by omega
  rw [cut, if_neg hnone, if_neg hnonneg]
  rfl

/-- Of a text that is too long only the beginning counts. -/
theorem BoundValue.text?_eq_of_take_eq
    {n : Nat} {v w : BoundValue} {s t : String}
    (hv : v.isNull = false) (hw : w.isNull = false)
    (hs : v.text? (-1) = some s) (ht : w.text? (-1) = some t)
    (hslong : n < s.length) (htlong : n < t.length)
    (h : Text.take n s = Text.take n t) :
    v.text? n = w.text? n := by
  rw [text?_eq_cut hv hs, text?_eq_cut hw ht, Text.cut_of_lt_length hslong,
    Text.cut_of_lt_length htlong, h]

/-! ## Runs that are the same from some point on -/

namespace Run

variable {ε α β : Type} {P : ε → Prop}

/-- The run with some events before it. -/
def after (before : List ε) (r : Run ε α) : Run ε α :=
  ⟨before ++ r.events, r.result⟩

theorem bind_eq_after
    {r : Run ε α} {a : α} (h : r.result = .ok a) (next : α → Run ε β) :
    r >>= next = (next a).after r.events :=
  bind_of_ok h next

theorem recoverOrdinary_after
    (before : List ε) (r : Run ε α) (handle : Failure → Run ε α) :
    (r.after before).recoverOrdinary handle =
      (r.recoverOrdinary handle).after before := by
  obtain ⟨events, result⟩ := r
  cases result with
  | ok a => rfl
  | error f =>
    unfold recoverOrdinary recover after
    dsimp only
    rw [List.append_assoc]

/-- Two runs that do the same and end in the same way, apart from events of one
kind at their starts. -/
def SameAfter (P : ε → Prop) (r s : Run ε α) : Prop :=
  ∃ (before before' : List ε) (rest : Run ε α),
    (∀ e ∈ before, P e) ∧ (∀ e ∈ before', P e) ∧
      r = rest.after before ∧ s = rest.after before'

theorem SameAfter.refl (r : Run ε α) : SameAfter P r r :=
  ⟨[], [], r, List.forall_mem_nil _, List.forall_mem_nil _, rfl, rfl⟩

/-- The first steps of the runs end in the same way, and the others are the
same. -/
theorem SameAfter.bind
    {r s : Run ε α} (hr : ∀ e ∈ r.events, P e) (hs : ∀ e ∈ s.events, P e)
    (h : r.result = s.result) (next : α → Run ε β) :
    SameAfter P (r >>= next) (s >>= next) := by
  cases hresult : r.result with
  | ok a =>
    exact ⟨r.events, s.events, next a, hr, hs, bind_eq_after hresult next,
      bind_eq_after (h.symm.trans hresult) next⟩
  | error f =>
    refine ⟨r.events, s.events, fail f, hr, hs, ?_, ?_⟩
    · rw [bind_of_error hresult, after, fail, List.append_nil]
    · rw [bind_of_error (h.symm.trans hresult), after, fail, List.append_nil]

/-- The first steps do nothing and are the same. -/
theorem SameAfter.ofExcept_bind
    (x : Except Failure α) {f g : α → Run ε β}
    (h : ∀ a, SameAfter P (f a) (g a)) :
    SameAfter P (ofExcept x >>= f) (ofExcept x >>= g) := by
  cases x with
  | ok a => exact h a
  | error failure => exact SameAfter.refl _

theorem SameAfter.recoverOrdinary
    {r s : Run ε α} (h : SameAfter P r s) (handle : Failure → Run ε α) :
    SameAfter P (r.recoverOrdinary handle) (s.recoverOrdinary handle) := by
  obtain ⟨before, before', rest, hbefore, hbefore', rfl, rfl⟩ := h
  exact ⟨before, before', rest.recoverOrdinary handle, hbefore, hbefore',
    recoverOrdinary_after before rest handle,
    recoverOrdinary_after before' rest handle⟩

end Run

namespace Recorder

variable {r : Recorder} {l : Logging} {q : Query} {timedOut : Bool}
  {s t : Statement}

/-! ## Values that the gate does not ask for -/

/-- The gate of the query's outcome says that bound values are shown. -/
def ShowsValues (r : Recorder) (l : Logging) (q : Query)
    (timedOut : Bool) : Prop :=
  ∃ millis o, q.assess timedOut (r.settings.get .slowThreshold) =
    .ok (millis, o) ∧
    (r.channels o).askDetail l.loggers = .ok true

/-- Values are not looked at before the gate has asked for them. -/
theorem parameters_masked
    {g : Gate} (h : g.askDetail l.loggers ≠ .ok true ∨ ∀ b, s ≠ .bound b)
    (limit : Int) :
    parameters l g limit s.masked = parameters l g limit s := by
  cases s with
  | bound b =>
    have hask : g.askDetail l.loggers ≠ .ok true := by
      rcases h with hask | hbound
      · exact hask
      · exact absurd rfl (hbound b)
    have hempty : b.masked.values.isEmpty = b.values.isEmpty := List.isEmpty_map
    rw [Statement.masked, parameters, parameters, hempty]
    split
    · rfl
    · cases hanswer : g.askDetail l.loggers with
      | error f => rfl
      | ok shown =>
        cases shown with
        | false => rfl
        | true => exact absurd hanswer hask
  | _ => rfl

theorem record_masked
    (h : ¬r.ShowsValues l q timedOut ∨ ∀ b, s ≠ .bound b) :
    r.record l (q.withStatement s.masked) timedOut =
      r.record l (q.withStatement s) timedOut := by
  apply record_congr s.isInternal_masked fun limit =>
    s.renderWithin_masked limit
  intro millis o hassess
  apply parameters_masked
  rcases h with hshows | hbound
  · left
    intro hask
    exact hshows ⟨millis, o, hassess, hask⟩
  · exact Or.inr hbound

theorem record_eq_of_masked_eq
    (hmasked : s.masked = t.masked)
    (h : ¬r.ShowsValues l q timedOut ∨ ∀ b, s ≠ .bound b) :
    r.record l (q.withStatement s) timedOut =
      r.record l (q.withStatement t) timedOut := by
  have ht : ¬r.ShowsValues l q timedOut ∨ ∀ b, t ≠ .bound b := by
    refine h.imp_right fun hbound b htb => ?_
    subst htb
    obtain ⟨b', hs⟩ := Statement.exists_bound_of_masked_eq hmasked
    exact hbound b' hs
  rw [← record_masked h, hmasked, record_masked ht]

/-! ## Values that are shown -/

/-- What a sink of the journal does with the report that a value is left out. -/
def IsOmission (l : Logging) (d : Delivery) : Prop :=
  ∃ name f, ∃ s ∈ l.sinksOf Loggers.troubleName,
    d ∈ s.deliveries (omission l name f) (omissionText name)

/-- The texts of the values that can be printed, if all reports of the others
end well. -/
def shownTexts
    (reporting : Except Failure Unit) :
    List (String × Option String) → Except Failure (List String)
  | [] => .ok []
  | (name, some text) :: rest =>
    (shownTexts reporting rest).map fun texts => (name ++ ":" ++ text) :: texts
  | (_, none) :: rest => do
    reporting
    shownTexts reporting rest

/-- The names of values with their texts within a limit. -/
def readable (limit : Int) (values : List (String × BoundValue)) :
    List (String × Option String) :=
  values.map fun e => (e.1, e.2.text? limit)

theorem printed_of_mem_omission
    {v : BoundValue} {limit : Int} {f : Failure}
    (h : v.render limit = .error f) (name : String) :
    ∀ g ∈ (omission l name f).failure, g.ensurePrinted = .ok () := by
  intro g hg
  have hf : f = g := Option.some.inj hg
  rw [← hf]
  exact BoundValue.ensurePrinted_of_render_error h

/-- How printing the values ends is told by their texts within the limit. -/
theorem result_renderParameters (limit : Int)
    (values : List (String × BoundValue)) :
    (renderParameters l limit values).result =
      shownTexts (l.ending Loggers.troubleName Level.debug)
        (readable limit values) := by
  induction values with
  | nil => rfl
  | cons entry values ih =>
    obtain ⟨name, v⟩ := entry
    rw [readable, List.map_cons, ← readable, renderParameters]
    cases hv : v.render limit with
    | ok text =>
      rw [BoundValue.text?_of_render_ok hv, shownTexts, ← ih]
      cases hrest : (renderParameters l limit values).result with
      | ok texts =>
        dsimp only
        rw [Run.bind_of_ok hrest]
        rfl
      | error f =>
        dsimp only
        rw [Run.bind_of_error hrest]
        rfl
    | error f =>
      have hreport : (l.log (omission l name f)).result =
          l.ending Loggers.troubleName Level.debug :=
        Logging.result_log_of_printed (omission_isProper l name f)
          (omission_text l name f)
          (printed_of_mem_omission hv name)
      rw [BoundValue.text?_of_render_error hv, shownTexts, ← ih, ← hreport]
      change (l.log (omission l name f) >>= _).result = _
      cases hlog : (l.log (omission l name f)).result with
      | ok _ =>
        rw [Run.bind_of_ok hlog]
        rfl
      | error g =>
        rw [Run.bind_of_error hlog]
        rfl

/-- While values are printed nothing is logged but that some are left out. -/
theorem isOmission_of_mem_renderParameters
    {limit : Int} {values : List (String × BoundValue)} :
    ∀ d ∈ (renderParameters l limit values).events, IsOmission l d := by
  intro d hd
  induction values with
  | nil => exact absurd hd List.not_mem_nil
  | cons entry values ih =>
    obtain ⟨name, v⟩ := entry
    rw [renderParameters] at hd
    cases hv : v.render limit with
    | ok text =>
      rw [hv] at hd
      rcases Run.of_mem_events_bind hd with hrest | ⟨_, hanswer⟩
      · exact ih hrest
      · exact absurd hanswer List.not_mem_nil
    | error f =>
      rw [hv] at hd
      rcases Run.of_mem_events_bind hd with hreport | ⟨-, hrest⟩
      · have hlog : d ∈ (l.log (omission l name f)).events := hreport
        exact ⟨name, f,
          Logging.exists_of_mem_log_of_printed (omission_isProper l name f)
          (omission_text l name f) (printed_of_mem_omission hv name) hlog⟩
      · exact ih hrest

theorem readable_named
    {b b' : Bound} (hprepared : b.prepared = b'.prepared) {limit : Int}
    (h : b.values.map (BoundValue.text? limit) =
      b'.values.map (BoundValue.text? limit)) :
    readable limit b.named = readable limit b'.named := by
  have hzip : ∀ c : Bound, readable limit c.named =
      (c.prepared.columns.map Column.name).zip
        (c.values.map (BoundValue.text? limit)) := by
    intro c
    rw [readable, Bound.named, List.zip_map_right]
    rfl
  rw [hzip, hzip, hprepared, h]

/-- A bound statement whose values have the same texts is treated in the same
way up to the reports of values that are left out. -/
theorem sameAfter_parameters
    {b b' : Bound} (hprepared : b.prepared = b'.prepared) {limit : Int}
    (h : b.values.map (BoundValue.text? limit) =
      b'.values.map (BoundValue.text? limit))
    (g : Gate) {β : Type} (next : List String → Run Delivery β) :
    Run.SameAfter (IsOmission l) (parameters l g limit (.bound b) >>= next)
      (parameters l g limit (.bound b') >>= next) := by
  have hempty : b.values.isEmpty = b'.values.isEmpty := by
    rw [← List.isEmpty_map (f := BoundValue.text? limit), h, List.isEmpty_map]
  rw [parameters, parameters, hempty]
  split
  · exact Run.SameAfter.refl _
  · cases g.askDetail l.loggers with
    | error f => exact Run.SameAfter.refl _
    | ok shown =>
      cases shown with
      | false => exact Run.SameAfter.refl _
      | true =>
        have hresult : (renderParameters l limit b.named).result =
            (renderParameters l limit b'.named).result := by
          rw [result_renderParameters, result_renderParameters,
            readable_named hprepared h]
        exact Run.SameAfter.bind isOmission_of_mem_renderParameters
          isOmission_of_mem_renderParameters hresult next

section Bound

variable {b b' : Bound} (hprepared : b.prepared = b'.prepared)
variable (h : b.values.map (BoundValue.text? (r.settings.get .valueLength)) =
  b'.values.map (BoundValue.text? (r.settings.get .valueLength)))

include hprepared h

theorem sameAfter_pass (millis : Millis) (o : Outcome) :
    Run.SameAfter (IsOmission l)
      (r.pass l (q.withStatement (.bound b)) millis o)
      (r.pass l (q.withStatement (.bound b')) millis o) := by
  have htext : (Statement.bound b).renderWithin (r.settings.get .queryLength) =
      (Statement.bound b').renderWithin (r.settings.get .queryLength) := by
    simp only [Statement.renderWithin, Statement.writeTo, hprepared]
  unfold pass passBy
  change Run.SameAfter _
    (Run.ofExcept ((Statement.bound b).renderWithin _) >>= _) _
  rw [htext]
  apply Run.SameAfter.ofExcept_bind
  intro statement
  exact sameAfter_parameters hprepared h _ _

theorem sameAfter_attempt :
    Run.SameAfter (IsOmission l)
      (r.attempt l (q.withStatement (.bound b)) timedOut)
      (r.attempt l (q.withStatement (.bound b')) timedOut) := by
  cases hassess : q.assess timedOut (r.settings.get .slowThreshold) with
  | error f =>
    rw [attempt_of_assess_error (q := q.withStatement (.bound b)) rfl hassess,
      attempt_of_assess_error (q := q.withStatement (.bound b')) rfl hassess]
    exact Run.SameAfter.refl _
  | ok assessed =>
    obtain ⟨millis, o⟩ := assessed
    rw [attempt_of_assess (q := q.withStatement (.bound b)) rfl hassess,
      attempt_of_assess (q := q.withStatement (.bound b')) rfl hassess]
    apply Run.SameAfter.ofExcept_bind
    intro isOpen
    split
    · exact sameAfter_pass hprepared h millis o
    · exact Run.SameAfter.refl _

theorem sameAfter_record :
    Run.SameAfter (IsOmission l)
      (r.record l (q.withStatement (.bound b)) timedOut)
      (r.record l (q.withStatement (.bound b')) timedOut) :=
  (sameAfter_attempt hprepared h).recoverOrdinary _

end Bound

/-- Bytes of bound values do not get into a log but through the texts of values
that a gate asks for, and of a text that is longer than the limit only the
beginning counts. Statements that differ in nothing else have the same records,
apart from the reports of values that cannot be printed. -/
theorem bound_values_stay_private
    (r : Recorder) (l : Logging) (q : Query) {s t : Statement}
    (hmasked : s.masked = t.masked) :
    (∀ timedOut,
      ((¬r.ShowsValues l q timedOut ∨ ∃ batch : Batch, s = batch.toStatement) →
        r.record l (q.withStatement s) timedOut =
          r.record l (q.withStatement t) timedOut) ∧
      ∀ b b', s = .bound b → t = .bound b' →
        b.values.map (BoundValue.text? (r.settings.get .valueLength)) =
          b'.values.map (BoundValue.text? (r.settings.get .valueLength)) →
        ∃ (before before' : List Delivery) (rest : Run Delivery Unit),
          (∀ d ∈ before ++ before', IsOmission l d) ∧
          r.record l (q.withStatement s) timedOut = ⟨before ++ rest.events,
            rest.result⟩ ∧
          r.record l (q.withStatement t) timedOut = ⟨before' ++ rest.events,
            rest.result⟩) ∧
    (∀ u : Statement, r.update l (q.withStatement u) =
      r.record l (q.withStatement u) q.failedByTimeout) ∧
    ∀ (n : Nat) (v w : BoundValue) (text text' : String),
      v.isNull = false → w.isNull = false →
      v.text? (-1) = some text → w.text? (-1) = some text' →
      n < text.length → n < text'.length →
      Text.take n text = Text.take n text' →
      v.text? n = w.text? n := by
  refine ⟨fun timedOut => ⟨?_, ?_⟩, fun _ => rfl, ?_⟩
  · intro h
    apply record_eq_of_masked_eq hmasked
    refine h.imp_right ?_
    rintro ⟨batch, rfl⟩ b hbatch
    cases hbatch
  · rintro b b' rfl rfl htexts
    have hprepared := Statement.prepared_eq_of_masked_eq hmasked
    have hrecord : Run.SameAfter (IsOmission l)
        (r.record l (q.withStatement (.bound b)) timedOut)
        (r.record l (q.withStatement (.bound b')) timedOut) :=
      sameAfter_record hprepared htexts
    obtain ⟨before, before', rest, hbefore, hbefore', hs, ht⟩ := hrecord
    refine ⟨before, before', rest, ?_, hs, ht⟩
    intro d hd
    exact (List.mem_append.mp hd).elim (hbefore d) (hbefore' d)
  · intro n v w text text' hv hw htext htext' hlong hlong' hsame
    exact BoundValue.text?_eq_of_take_eq hv hw htext htext' hlong hlong' hsame

/-- Two passwords, one of which is no text: at the base level of a gate they
cannot be told apart, and at its detail level only if one of them can be
printed. -/
theorem bound_values_stay_private_of_passwords :
    let l :=
      Logging.initial [.capture ⟨"memory", none⟩] ⟨"client", "run", 7⟩ ⟨0, 0⟩
    let base := l.setLevel "querylog.query.normal" Level.debug
    let detail := l.setLevel "querylog.query.normal" Level.trace
    let p : Prepared := ⟨"UPDATE users SET password = ?", [⟨"password", .text⟩]⟩
    let s : Bound := ⟨p, [⟨some [115, 101, 99, 114, 101, 116], .text⟩], rfl⟩
    let t : Bound := ⟨p, [⟨some [255], .text⟩], rfl⟩
    let u : Bound := ⟨p, [⟨some [255, 255], .text⟩], rfl⟩
    let q : Query := ⟨.text "db-1", .bound s, none, .int 2500000⟩
    let r := ofSettings .standard
    (r.record base q false).events.length = 1 ∧
      r.record base q false = r.record base (q.withStatement (.bound t)) false ∧
      ∃ (before before' : List Delivery) (rest : Run Delivery Unit),
        (∀ d ∈ before ++ before', IsOmission detail d) ∧
        r.record detail (q.withStatement (.bound t)) false =
          ⟨before ++ rest.events, rest.result⟩ ∧
        r.record detail (q.withStatement (.bound u)) false =
          ⟨before' ++ rest.events, rest.result⟩ := by
  intro l base detail p s t u q r
  have hshows : ¬r.ShowsValues base q false := by
    rintro ⟨millis, o, hassess, hask⟩
    rw [Query.assess_of_nanos (q := q) rfl] at hassess
    cases hassess
    have hshut :
        (r.gateOf q 2500000 false).detailEnabled base.loggers = false := by
      decide
    have hanswer :
        (r.gateOf q 2500000 false).askDetail base.loggers = .ok false :=
      congrArg Except.ok hshut
    cases hanswer.symm.trans hask
  have hunreadable : t.values.map
      (BoundValue.text? (r.settings.get .valueLength)) =
      u.values.map (BoundValue.text? (r.settings.get .valueLength)) := by
    decide
  refine ⟨by decide +kernel, ?_, ?_⟩
  · have hbase := bound_values_stay_private r base q (s := .bound s)
      (t := .bound t) rfl
    exact (hbase.1 false).1 (Or.inl hshows)
  · have hdetail := bound_values_stay_private r detail q (s := .bound t)
      (t := .bound u) rfl
    exact (hdetail.1 false).2 t u rfl rfl hunreadable

end Recorder

end QueryJournal

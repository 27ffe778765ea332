import QueryJournal.Proofs.Number.Digits
import QueryJournal.Proofs.Query.Containment

/-!
# Hosts in log lines

The text of a host determines its address and its port, whatever the address
looks like: the last colon stands before the port, and the address is in
brackets exactly if it has colons itself.  Every line about a query shows that
text twice, so it tells which host the query ran on.
-/

namespace QueryJournal

/-! ## Texts of hosts -/

/-- A text is cut in one way only before a part without the separator. -/
theorem Text.append_separator_inj
    {separator : Char} {before before' after after' : List Char}
    (hafter : separator ∉ after) (hafter' : separator ∉ after')
    (h : before ++ separator :: after = before' ++ separator :: after') :
    before = before' ∧ after = after' := by
  have hshort : ∀ {more rest rest' : List Char}, separator ∉ rest →
      separator :: rest = more ++ separator :: rest' →
      more = [] ∧ rest = rest' := by
    intro more rest rest' hrest hmore
    cases more with
    | nil => exact ⟨rfl, (List.cons.inj hmore).2⟩
    | cons c more =>
      have hmem : separator ∈ rest := by
        rw [(List.cons.inj hmore).2]
        exact List.mem_append_right _ List.mem_cons_self
      exact absurd hmem hrest
  rcases List.append_eq_append_iff.mp h with
    ⟨more, hbefore, hrest⟩ | ⟨more, hbefore, hrest⟩
  · obtain ⟨rfl, hparts⟩ := hshort hafter hrest
    exact ⟨by rw [hbefore, List.append_nil], hparts⟩
  · obtain ⟨rfl, hparts⟩ := hshort hafter' hrest
    exact ⟨by rw [hbefore, List.append_nil], hparts.symm⟩

namespace Host

/-- The part of a host's text before the port: the address, in brackets if it
has colons. -/
def shownAddress (address : List Char) : List Char :=
  if ':' ∈ address then '[' :: (address ++ [']']) else address

theorem toList_text (h : Host) :
    h.text.toList = shownAddress h.address.toList ++ ':' ::
      (Number.text h.port).toList := by
  have hsplit : ∀ address port : String,
      (address ++ ":" ++ port).toList =
          address.toList ++ ':' :: port.toList := by
    intro address port
    rw [String.toList_append, String.toList_append, List.append_assoc]
    rfl
  rw [text, shownAddress]
  split
  · rw [hsplit, String.toList_append, String.toList_append]
    rfl
  · exact hsplit _ _

/-- Brackets are around addresses with colons only, so none is mistaken for a
part of the address. -/
theorem shownAddress_injective {a b : List Char}
    (h : shownAddress a = shownAddress b) : a = b := by
  unfold shownAddress at h
  split at h
  next ha =>
    split at h
    next hb => exact List.append_cancel_right (List.cons.inj h).2
    next hb =>
      have hmem : ':' ∈ b := by
        rw [← h]
        exact List.mem_cons_of_mem _ (List.mem_append_left _ ha)
      exact absurd hmem hb
  next ha =>
    split at h
    next hb =>
      have hmem : ':' ∈ a := by
        rw [h]
        exact List.mem_cons_of_mem _ (List.mem_append_left _ hb)
      exact absurd hmem ha
    next hb => exact h

theorem text_inj {h other : Host} : h.text = other.text ↔ h = other := by
  constructor
  · intro htext
    have hlists := congrArg String.toList htext
    rw [toList_text, toList_text] at hlists
    have hcolon : ∀ port : ℤ, ':' ∉ (Number.text port).toList :=
      Number.not_mem_text (by decide) (by decide)
    obtain ⟨hshown, hports⟩ :=
      Text.append_separator_inj (hcolon _) (hcolon _) hlists
    have haddress : h.address = other.address :=
      String.toList_injective (shownAddress_injective hshown)
    have hport : h.port = other.port :=
      Number.text_injective (String.toList_injective hports)
    cases h
    cases other
    exact congrArg₂ Host.mk haddress hport
  · rintro rfl
    rfl

/-- An address that has brackets already gets further ones. -/
example : (mk "::1" 9042).text = "[::1]:9042" ∧
    (mk "[::1]" 9042).text = "[[::1]]:9042" := by
  decide

end Host

/-! ## Lines about queries -/

namespace Recorder

variable {r : Recorder} {l : Logging} {q : Query} {timedOut : Bool}
  {line : LogRecord}

/-- A sink keeps a record while a query is logged. -/
def Keeps (r : Recorder) (l : Logging) (q : Query) (timedOut : Bool)
    (line : LogRecord) : Prop :=
  ∃ name message,
  Delivery.captured name message line ∈ (r.record l q timedOut).events

/-- A record that is no line about a query, or the line of a query, which shows
what the query ran on in its message and once among the values added to it. -/
inductive Shows (q : Query) (line : LogRecord) : Prop
  | report (h : line.extra = [])
  | query {host : String} {values : List (String × Value)}
      (hprint : q.target.print = .ok host)
      (hmessage : ∃ o millis statement shown,
        line.text = .ok (sentence o host millis statement shown))
      (hvalues : line.extra = ("db_host", .text host) :: values)
      (hothers : ∀ v, ("db_host", v) ∉ values)

theorem shows_lineOf
    {millis : Millis} {o : Outcome} {host : String}
    (hprint : q.target.print = .ok host)
    (statement : String) {shown : List String} (hshown : ∀ s ∈ shown, s ≠ "") :
    Shows q (r.lineOf l q millis o host statement shown) :=
  .query hprint ⟨_, _, statement, shown, entry_text _ _ _ _ _ _ _ hshown⟩ rfl
    fun v hv => by simp at hv

theorem shows_of_mem_renderParameters
    {limit : ℤ} {values : List (String × BoundValue)} {name message : String}
    (h : .captured name message
      line ∈ (renderParameters l limit values).events) :
    Shows q line := by
  induction values with
  | nil => cases h
  | cons entry values ih =>
    obtain ⟨column, v⟩ := entry
    rw [renderParameters] at h
    cases hv : v.render limit with
    | ok s =>
      rw [hv] at h
      rcases Run.of_mem_events_bind h with hrest | ⟨_, hnone⟩
      · exact ih hrest
      · cases hnone
    | error f =>
      rw [hv] at h
      rcases Run.of_mem_events_bind h with hreport | ⟨_, hrest⟩
      · rw [Logging.record_of_mem_log (omission_isProper l column f)
          (omission_text l column f) hreport]
        exact .report rfl
      · exact ih hrest

theorem shows_of_mem_parameters
    {g : Gate} {limit : ℤ} {s : Statement} {name message : String}
    (h : .captured name message line ∈ (parameters l g limit s).events) :
    Shows q line := by
  cases s with
  | bound b =>
    rw [parameters] at h
    split at h
    · cases h
    · rcases Run.of_mem_events_bind h with hnone | ⟨asked, hasked⟩
      · cases hnone
      · split at hasked
        · exact shows_of_mem_renderParameters hasked
        · cases hasked
  | _ => cases h

theorem shows_of_mem_pass
    {millis : Millis} {o : Outcome} {name message : String}
    (h : .captured name message line ∈ (r.pass l q millis o).events) :
    Shows q line := by
  rw [pass, passBy] at h
  rcases Run.exists_of_mem_events_bind h with hnone | ⟨statement, -, h⟩
  · cases hnone
  rcases Run.exists_of_mem_events_bind h with hreport | ⟨shown, hshown, h⟩
  · exact shows_of_mem_parameters hreport
  rcases Run.exists_of_mem_events_bind h with hnone | ⟨host, hhost, h⟩
  · cases hnone
  rcases Run.exists_of_mem_events_bind h with hnone | ⟨_, -, hlog⟩
  · cases hnone
  have hprint : q.target.print = .ok host := by
    cases hprint : q.target.print with
    | ok s =>
      rw [hprint] at hhost
      rw [Except.ok.inj hhost]
    | error u =>
      rw [hprint] at hhost
      cases hhost
  rw [Logging.record_of_mem_log
    (r.lineOf_isProper l q millis o host statement shown)
    (entry_text _ _ _ _ _ _ _ (ne_empty_of_mem_parameters hshown)) hlog]
  exact shows_lineOf hprint statement (ne_empty_of_mem_parameters hshown)

theorem shows_of_mem_attempt
    {name message : String}
    (h : .captured name message line ∈ (r.attempt l q timedOut).events) :
    Shows q line := by
  by_cases hinternal : q.isInternal = true
  · rw [attempt_of_internal hinternal] at h
    cases h
  · have hother : q.isInternal = false := Bool.of_not_eq_true hinternal
    cases hassess : q.assess timedOut (r.settings.get .slowThreshold) with
    | error f =>
      rw [attempt_of_assess_error hother hassess] at h
      cases h
    | ok assessed =>
      rw [attempt_of_assess hother hassess] at h
      rcases Run.of_mem_events_bind h with hnone | ⟨isOpen, hpass⟩
      · cases hnone
      · split at hpass
        · exact shows_of_mem_pass hpass
        · cases hpass

theorem Keeps.shows (h : r.Keeps l q timedOut line) : Shows q line := by
  obtain ⟨name, message, hkept⟩ := h
  rw [record, reportTrouble] at hkept
  rcases Run.of_mem_events_recoverOrdinary hkept with hattempt | ⟨f, hreport⟩
  · exact shows_of_mem_attempt hattempt
  rcases Run.of_mem_events_recoverOrdinary hreport with hlog | ⟨_, hnone⟩
  · rw [Logging.record_of_mem_log (trouble_isProper l f)
      (trouble_text l f) hlog]
    exact .report rfl
  · cases hnone

/-- The host of a line about a query is the one that the query ran on. -/
theorem Keeps.host_eq
    (h : r.Keeps l q timedOut line) {host : Host}
    (htarget : q.target = .host host) {v : Value}
    (hv : ("db_host", v) ∈ line.extra) :
    v = .text host.text ∧ ∃ o millis statement shown,
      line.text = .ok (sentence o host.text millis statement shown) := by
  cases h.shows with
  | report hnone =>
    rw [hnone] at hv
    cases hv
  | query hprint hmessage hvalues hothers =>
    rw [htarget] at hprint
    cases hprint
    rw [hvalues] at hv
    rcases List.mem_cons.mp hv with hfirst | hrest
    · exact ⟨(Prod.mk.inj hfirst).2, hmessage⟩
    · exact absurd hrest (hothers v)

/-- Hosts with the same text have the same address and the same port.  A line
about a query shows the text of its host, so lines that show the same are about
queries on the same host. -/
theorem hosts_are_told_apart :
    (∀ h other : Host, h.text = other.text ↔
      h.address = other.address ∧ h.port = other.port) ∧
    (∀ (r : Recorder) (l : Logging) (q : Query) (timedOut : Bool)
      (line : LogRecord) (h : Host)
        (v : Value), r.Keeps l q timedOut line → q.target = .host h →
      ("db_host", v) ∈ line.extra →
      v = .text h.text ∧ ∃ o millis statement shown,
        line.text = .ok (sentence o h.text millis statement shown)) ∧
    ∀ (r r' : Recorder) (l l' : Logging) (q q' : Query)
      (timedOut timedOut' : Bool)
        (line line' : LogRecord) (h h' : Host) (v : Value),
      r.Keeps l q timedOut line → q.target = .host h →
      ("db_host", v) ∈ line.extra →
      r'.Keeps l' q' timedOut' line' → q'.target = .host h' →
      ("db_host", v) ∈ line'.extra →
      h.address = h'.address ∧ h.port = h'.port := by
  have htexts : ∀ h other : Host,
      h.text = other.text ↔ h.address = other.address ∧
          h.port = other.port := by
    intro h other
    rw [Host.text_inj, Host.mk.injEq]
  refine ⟨htexts, fun r l q timedOut line h v hkept htarget hv =>
    hkept.host_eq htarget hv, ?_⟩
  intro r r' l l' q q' timedOut timedOut' line line' h h' v hkept htarget hv
    hkept' htarget' hv'
  obtain ⟨hhost, -⟩ := hkept.host_eq htarget hv
  obtain ⟨hhost', -⟩ := hkept'.host_eq htarget' hv'
  exact (htexts h h').mp (Value.text.inj (hhost.symm.trans hhost'))

end Recorder

end QueryJournal

import QueryJournal.Proofs.Settings.Writing
import QueryJournal.Settings.Shelf

/-!
# Runs of operations on settings

Settings side by side do not get into each other's way.  An operation changes
what is stored under the name of its target, and only if it succeeds; writes in
turn alone keep what came before the failure.  So settings that are copied or
replaced stay what they are, whatever is done with the others afterwards.
-/

namespace QueryJournal.Settings

/-- The name under which an operation stores its result. -/
def Action.target? : Action → Option String
  | .new target _ | .set target _ _ | .setInTurn target _ | .replace _ target _
  | .copy _ target => some target
  | .equal _ _ | .equalValue _ => none

namespace Shelf

variable {shelf : Shelf} {name source target : String} {s t : Settings}
variable {fields : List (String × Value)}

/-- The shelf after some operations. -/
def after (shelf : Shelf) (actions : List Action) : Shelf :=
  actions.foldl (fun shelf a => (shelf.act a).1) shelf

theorem run_append_singleton (shelf : Shelf) (actions : List Action)
    (a : Action) :
    shelf.run (actions ++ [a]) =
      shelf.run actions ++ [(shelf.after actions).act a] := by
  induction actions generalizing shelf with
  | nil => rfl
  | cons first actions ih =>
    rw [List.cons_append, run, run, ih]
    rfl

theorem find_of_lookup (h : shelf.lookup name = some s) :
    shelf.find name = .ok s := by
  rw [find, h]

/-! ## What an operation leaves alone -/

theorem lookup_store_of_ne
    (shelf : Shelf) (h : name ≠ target) (result : Except Failure Settings) :
    (shelf.store target result).1.lookup name = shelf.lookup name := by
  cases result with
  | ok s => exact shelf.lookup_put_of_ne s h
  | error f => rfl

/-- An operation leaves alone what is not its target. -/
theorem lookup_act_of_ne_target
    {a : Action} (h : a.target? ≠ some name) (shelf : Shelf) :
    (shelf.act a).1.lookup name = shelf.lookup name := by
  have hname : ∀ target, a.target? = some target → name ≠ target := by
    rintro target htarget rfl
    exact h htarget
  cases a with
  | new target fields => exact shelf.lookup_store_of_ne (hname target rfl) _
  | set target field v => exact shelf.lookup_store_of_ne (hname target rfl) _
  | setInTurn target fields =>
    rw [act]
    cases shelf.find target with
    | ok s => exact shelf.lookup_put_of_ne _ (hname target rfl)
    | error f => rfl
  | replace source target fields =>
    exact shelf.lookup_store_of_ne (hname target rfl) _
  | copy source target => exact shelf.lookup_store_of_ne (hname target rfl) _
  | equal left right => rfl
  | equalValue left => rfl

/-- A run leaves alone what is the target of none of its operations. -/
theorem lookup_after_of_ne_target
    {actions : List Action}
    (h : ∀ a ∈ actions, a.target? ≠ some name) (shelf : Shelf) :
    (shelf.after actions).lookup name = shelf.lookup name := by
  induction actions generalizing shelf with
  | nil => rfl
  | cons a actions ih =>
    have hfirst := lookup_act_of_ne_target (h a List.mem_cons_self) shelf
    have hrest :=
      ih (fun b hb => h b (List.mem_cons_of_mem _ hb)) (shelf.act a).1
    exact hrest.trans hfirst

theorem store_eq_self_of_error
    {result : Except Failure Settings} {f : Failure}
    (h : (shelf.store target result).2 = .error f) :
    (shelf.store target result).1 = shelf := by
  cases result with
  | ok s => cases h
  | error g => rfl

/-- A failed operation changes nothing, unless it is a row of writes. -/
theorem act_eq_self_of_error
    {a : Action} {f : Failure} (h : (shelf.act a).2 = .error f)
    (hrow : ∀ target fields, a ≠ .setInTurn target fields) :
    (shelf.act a).1 = shelf := by
  cases a with
  | new target fields => exact store_eq_self_of_error h
  | set target field v => exact store_eq_self_of_error h
  | setInTurn target fields => exact absurd rfl (hrow target fields)
  | replace source target fields => exact store_eq_self_of_error h
  | copy source target => exact store_eq_self_of_error h
  | equal left right => rfl
  | equalValue left => rfl

/-! ## What an operation stores -/

/-- Under a condition an operation stores the settings that receive some values,
and otherwise it fails and changes nothing. -/
def Writes
    (shelf : Shelf) (a : Action) (condition : Prop) (target : String)
    (s : Settings) (fields : List (String × Value)) : Prop :=
  (condition → ∃ t, s.Receives fields t ∧
    shelf.act a = (shelf.put target t, .ok none)) ∧
    (¬condition → ∃ f, shelf.act a = (shelf, .error f))

theorem Writes.of_store
    {a : Action} {condition : Prop} {result : Except Failure Settings}
    (hact : shelf.act a = shelf.store target result)
    (hok : condition → ∃ t, result = .ok t ∧ s.Receives fields t)
    (herror : ¬condition → ∃ f, result = .error f) :
    shelf.Writes a condition target s fields := by
  constructor
  · intro h
    obtain ⟨t, rfl, hreceives⟩ := hok h
    exact ⟨t, hreceives, hact⟩
  · intro h
    obtain ⟨f, rfl⟩ := herror h
    exact ⟨f, hact⟩

theorem writes_new (shelf : Shelf) (target : String)
    (fields : List (String × Value)) :
    shelf.Writes (.new target fields)
      (AllKnown fields ∧ AllMeet fields) target standard
      fields :=
  .of_store rfl make_of_allMeet make_of_not_allMeet

theorem writes_set (hs : shelf.lookup target = some s)
    (field : String) (v : Value) :
    shelf.Writes (.set target field v) (Setting.Admits (field, v)) target s
      [(field, v)] := by
  have hact : shelf.act (.set target field v) =
      shelf.store target (s.setNamed field v) := by
    rw [act, find_of_lookup hs]
    rfl
  exact .of_store hact (setNamed_of_admits · s) (setNamed_of_not_admits · s)

theorem act_replace (hs : shelf.lookup source = some s) (target : String) :
    shelf.act (.replace source target fields) =
      shelf.store target (s.replace fields) := by
  rw [act, find_of_lookup hs]
  rfl

theorem writes_replace
    (hs : shelf.lookup source = some s) (target : String)
    (fields : List (String × Value)) :
    shelf.Writes (.replace source target fields)
      (AllKnown fields ∧ AllMeet fields) target s
      fields :=
  .of_store (act_replace hs target) (replace_of_allMeet · s)
    (replace_of_not_allMeet · s)

theorem act_copy (hs : shelf.lookup source = some s) (target : String) :
    shelf.act (.copy source target) = (shelf.put target s, .ok none) := by
  rw [act, find_of_lookup hs]
  rfl

theorem exists_act_setInTurn
    (hs : shelf.lookup target = some s) (fields : List (String × Value)) :
    ∃ done rest t, fields = done ++ rest ∧
      (∀ entry ∈ done, Setting.Admits entry) ∧
      s.Receives done t ∧
      (rest = [] ∧
        shelf.act (.setInTurn target fields) = (shelf.put target t, .ok none) ∨
        ∃ entry more f, rest = entry :: more ∧ ¬Setting.Admits entry ∧
          shelf.act (.setInTurn target fields) =
            (shelf.put target t, .error f)) := by
  obtain ⟨done, rest, t, hsplit, hdone, hreceives, hend⟩ :=
    s.exists_setInTurn fields
  refine ⟨done, rest, t, hsplit, hdone, hreceives, ?_⟩
  rw [act, find_of_lookup hs]
  dsimp only
  rcases hend with ⟨hrest, hturn⟩ | ⟨entry, more, f, hrest, hrefused, hturn⟩
  · left
    rw [hturn]
    exact ⟨hrest, rfl⟩
  · right
    rw [hturn]
    exact ⟨entry, more, f, hrest, hrefused, rfl⟩

end Shelf

/-- What the numbers of settings must be like. -/
structure IsValid (s : Settings) : Prop where
  threshold : 0 ≤ s.get .slowThreshold
  queryLength : s.get .queryLength = -1 ∨ 0 < s.get .queryLength
  valueLength : s.get .valueLength = -1 ∨ 0 < s.get .valueLength

theorem isValid (s : Settings) : s.IsValid := by
  have hmeets : ∀ field : Setting, field.Meets (.int (s.get field)) := by
    intro field
    exact (field.meets_int_iff _).mpr (s.accepted field)
  constructor
  · obtain ⟨n, hn, h⟩ := hmeets .slowThreshold
    cases hn
    exact h
  · obtain ⟨n, hn, h⟩ := hmeets .queryLength
    cases hn
    exact h
  · obtain ⟨n, hn, h⟩ := hmeets .valueLength
    cases hn
    exact h

open QueryJournal.Settings.Shelf in
/-- After every run, including one with failures, all settings are valid.  A
further operation succeeds exactly if the names and values are as they should
be, and changes its target only; otherwise it changes nothing, but a row of
writes keeps those before the one that fails. -/
theorem settings_stay_valid (shelf : Shelf) (actions : List Action) :
    let now := shelf.after actions
    (∀ a, shelf.run (actions ++ [a]) = shelf.run actions ++ [now.act a]) ∧
    (∀ entry ∈ now, entry.2.IsValid) ∧
    (∀ target fields,
      now.Writes (.new target fields) (AllKnown fields ∧ AllMeet fields)
      target standard fields) ∧
    (∀ target s, now.lookup target = some s →
      (∀ field v, now.Writes (.set target field v) (Setting.Admits (field, v))
        target s [(field, v)]) ∧
      ∀ fields, ∃ done rest t, fields = done ++ rest ∧
        (∀ entry ∈ done, Setting.Admits entry) ∧ s.Receives done t ∧
        (rest = [] ∧
          now.act (.setInTurn target fields) = (now.put target t, .ok none) ∨
          ∃ entry more f, rest = entry :: more ∧ ¬Setting.Admits entry ∧
            now.act (.setInTurn target fields) =
              (now.put target t, .error f))) ∧
    (∀ source target s, now.lookup source = some s →
      now.act (.copy source target) = (now.put target s, .ok none) ∧
      ∀ fields,
        now.Writes (.replace source target fields)
          (AllKnown fields ∧ AllMeet fields)
          target s fields ∧
        (¬AllKnown fields → ∃ f : Failure, f.cls = .type ∧
          ∀ others : List (String × Value),
            others.map Prod.fst = fields.map Prod.fst →
            now.act (.replace source target others) = (now, .error f))) ∧
    (∀ a f, (now.act a).2 = .error f →
      (∀ target fields, a ≠ .setInTurn target fields) →
      (now.act a).1 = now) ∧
    (∀ a name, a.target? ≠ some name →
      (now.act a).1.lookup name = now.lookup name) ∧
    ∀ target t later,
      ((∀ a ∈ later, a.target? ≠ some target) →
        ((now.put target t).after later).lookup target = some t) ∧
      ∀ source ≠ target, (∀ a ∈ later, a.target? ≠ some source) →
        ((now.put target t).after later).lookup source = now.lookup source := by
  intro now
  refine ⟨run_append_singleton shelf actions, fun entry _ => entry.2.isValid,
    now.writes_new, ?_, ?_, fun a f => act_eq_self_of_error, fun a name h =>
      lookup_act_of_ne_target h now, ?_⟩
  · intro target s hs
    exact ⟨writes_set hs, exists_act_setInTurn hs⟩
  · intro source target s hs
    refine ⟨act_copy hs target,
      fun fields => ⟨writes_replace hs target fields, ?_⟩⟩
    intro hunknown
    obtain ⟨f, hf, hreplace⟩ := replace_of_not_allKnown hunknown
    refine ⟨f, hf, ?_⟩
    intro others hothers
    rw [act_replace hs, hreplace s others hothers]
    rfl
  · intro target t later
    constructor
    · intro h
      rw [lookup_after_of_ne_target h, lookup_put_same]
    · intro source hsource h
      rw [lookup_after_of_ne_target h, lookup_put_of_ne now t hsource]

/-- A truth value is no integer, and the write before it is kept. -/
example :
    (standard.setInTurn [("slow_query_threshold_ms", .int 1),
      ("max_query_string_length", .truth true)]).1.get .slowThreshold = 1 := by
  rfl

end QueryJournal.Settings

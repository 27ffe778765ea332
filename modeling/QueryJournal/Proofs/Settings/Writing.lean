import QueryJournal.Settings.Basic

/-!
# Writing settings

Settings are written one field at a time, in turn, or all at once when they are
made.  In each case the write succeeds exactly if the fields exist and every
value meets the condition of its field, and then every field holds the last
value given for it or the number that it held before.  Writes in turn that fail
are kept up to the one that fails.
-/

namespace QueryJournal

/-- The condition on the values of a field.  No value but an integer meets
it. -/
def Setting.Meets (field : Setting) (v : Value) : Prop :=
  ∃ n, v = .int n ∧
    match field with
    | .slowThreshold => 0 ≤ n
    | .queryLength | .valueLength => n = -1 ∨ 0 < n

/-- Something that is given under the name of a field and meets its
condition. -/
def Setting.Admits (entry : String × Value) : Prop :=
  ∃ field : Setting, field.name = entry.1 ∧ field.Meets entry.2

namespace Setting

theorem meets_int_iff (field : Setting) (n : Int) :
    field.Meets (.int n) ↔ field.accepts n = true := by
  cases field <;> simp [Meets, accepts, or_comm]

theorem exists_of_meets {field : Setting} {v : Value} (h : field.Meets v) :
    ∃ n, v = .int n ∧ field.accepts n = true := by
  obtain ⟨n, rfl, hn⟩ := h
  exact ⟨n, rfl, (field.meets_int_iff n).mp ⟨n, rfl, hn⟩⟩

theorem mem_all (field : Setting) : field ∈ all := by
  cases field <;> decide

theorem nodup_all : all.Nodup := by
  decide

theorem ofName?_name (field : Setting) : ofName? field.name = some field := by
  cases field <;> decide

theorem name_eq_of_ofName? {name : String} {field : Setting}
    (h : ofName? name = some field) :
    field.name = name := by
  have hfound := List.find?_some h
  simpa using hfound

theorem name_injective {field other : Setting} (h : field.name = other.name) :
    field = other := by
  have hsame : some field = some other := by
    rw [← ofName?_name, ← ofName?_name, h]
  exact Option.some.inj hsame

end Setting

namespace Settings

variable {s t u : Settings} {field : Setting} {v : Value}
  {fields : List (String × Value)}

/-- Every field of the second settings holds the last value given for it, or
else the number that it has in the first. -/
def Receives (s : Settings) (fields : List (String × Value))
    (t : Settings) : Prop :=
  ∀ field, (given? field fields).getD (.int (s.get field)) = .int (t.get field)

theorem given?_append (field : Setting) (fields more : List (String × Value)) :
    given? field (fields ++ more) =
      (given? field more).or (given? field fields) := by
  rw [given?, List.reverse_append, List.find?_append, Option.map_or]
  rfl

theorem given?_singleton_same (field : Setting) (v : Value) :
    given? field [(field.name, v)] = some v := by
  simp [given?]

theorem given?_singleton_of_ne {other : Setting}
    (h : other ≠ field) (v : Value) :
    given? other [(field.name, v)] = none := by
  have hname : ¬field.name = other.name :=
    fun hsame => h (Setting.name_injective hsame).symm
  simp [given?, hname]

theorem Receives.refl (s : Settings) : s.Receives [] s :=
  fun _ => rfl

theorem Receives.append
    {more : List (String × Value)}
    (hs : s.Receives fields t) (ht : t.Receives more u) :
    s.Receives (fields ++ more) u := by
  intro field
  have hfirst := hs field
  have hsecond := ht field
  rw [given?_append]
  cases hmore : given? field more with
  | some v =>
    rw [hmore] at hsecond
    exact hsecond
  | none =>
    rw [hmore] at hsecond
    exact hfirst.trans hsecond

/-! ## One field -/

theorem set_of_meets (h : field.Meets v) (s : Settings) :
    ∃ t, s.set field v = .ok t ∧ v = .int (t.get field) ∧
      ∀ other ≠ field, t.get other = s.get other := by
  obtain ⟨n, rfl, hn⟩ := Setting.exists_of_meets h
  refine ⟨s.update field n hn, set_int s hn, ?_, ?_⟩
  · rw [get_update_same]
  · intro other hother
    exact s.get_update_of_ne n hn hother

theorem set_of_not_meets (h : ¬field.Meets v) (s : Settings) :
    s.set field v = .error (refusal field v) := by
  unfold set
  split
  next n =>
    rw [dif_neg]
    rwa [← Setting.meets_int_iff]
  next => rfl

theorem Receives.of_set
    (hfield : v = .int (t.get field))
    (hothers : ∀ other ≠ field, t.get other = s.get other) :
    s.Receives [(field.name, v)] t := by
  intro other
  by_cases hother : other = field
  · subst hother
    rw [given?_singleton_same]
    exact hfield
  · rw [given?_singleton_of_ne hother, ← hothers other hother]
    rfl

theorem setNamed_of_admits
    {name : String} (h : Setting.Admits (name, v)) (s : Settings) :
    ∃ t, s.setNamed name v = .ok t ∧ s.Receives [(name, v)] t := by
  obtain ⟨field, rfl, hmeets⟩ := h
  obtain ⟨t, ht, hfield, hothers⟩ := set_of_meets hmeets s
  refine ⟨t, ?_, Receives.of_set hfield hothers⟩
  rw [setNamed, Setting.ofName?_name]
  exact ht

theorem setNamed_of_not_admits
    {name : String} (h : ¬Setting.Admits (name, v)) (s : Settings) :
    ∃ f, s.setNamed name v = .error f := by
  unfold setNamed
  split
  next field hfield =>
    have hmeets : ¬field.Meets v :=
      fun hmeets => h ⟨field, Setting.name_eq_of_ofName? hfield, hmeets⟩
    exact ⟨_, set_of_not_meets hmeets s⟩
  next => exact ⟨_, rfl⟩

/-! ## Several fields in turn -/

/-- The writes before the first one that is refused are kept. -/
theorem exists_setInTurn (s : Settings) (fields : List (String × Value)) :
    ∃ done rest t, fields = done ++ rest ∧
      (∀ entry ∈ done, Setting.Admits entry) ∧
      s.Receives done t ∧
      (rest = [] ∧ s.setInTurn fields = (t, .ok ()) ∨
        ∃ entry more f, rest = entry :: more ∧ ¬Setting.Admits entry ∧
          s.setInTurn fields = (t, .error f)) := by
  induction fields generalizing s with
  | nil =>
    exact ⟨[], [], s, rfl, List.forall_mem_nil _, Receives.refl s,
      Or.inl ⟨rfl, rfl⟩⟩
  | cons entry fields ih =>
    obtain ⟨name, v⟩ := entry
    by_cases hadmits : Setting.Admits (name, v)
    · obtain ⟨changed, hset, hfirst⟩ := setNamed_of_admits hadmits s
      obtain ⟨done, rest, t, rfl, hdone, hreceives, hend⟩ := ih changed
      have hrun : s.setInTurn ((name, v) :: (done ++ rest)) =
          changed.setInTurn (done ++ rest) := by
        rw [setInTurn, hset]
      refine ⟨(name, v) :: done, rest, t, rfl, ?_, hfirst.append hreceives, ?_⟩
      · intro entry hentry
        rcases List.mem_cons.mp hentry with rfl | hentry
        · exact hadmits
        · exact hdone entry hentry
      · rw [hrun]
        exact hend
    · obtain ⟨f, hset⟩ := setNamed_of_not_admits hadmits s
      refine ⟨[], (name, v) :: fields, s, rfl, List.forall_mem_nil _,
        Receives.refl s, ?_⟩
      refine Or.inr ⟨(name, v), fields, f, rfl, hadmits, ?_⟩
      rw [setInTurn, hset]

/-! ## All fields at once -/

/-- All values given for fields meet the conditions on them. -/
def AllMeet (fields : List (String × Value)) : Prop :=
  ∀ (field : Setting) (v : Value), given? field fields = some v → field.Meets v

/-- Writes the value given for a field, if there is one. -/
def setGiven
    (fields : List (String × Value)) (s : Settings) (field : Setting) :
    Except Failure Settings :=
  match given? field fields with
  | some v => s.set field v
  | none => .ok s

theorem setGiven_of_allMeet (h : AllMeet fields) (s : Settings)
    (field : Setting) :
    ∃ t, setGiven fields s field = .ok t ∧
      (given? field fields).getD (.int (s.get field)) = .int (t.get field) ∧
      ∀ other ≠ field, t.get other = s.get other := by
  unfold setGiven
  cases hgiven : given? field fields with
  | some v => exact set_of_meets (h field v hgiven) s
  | none => exact ⟨s, rfl, rfl, fun _ _ => rfl⟩

theorem foldlM_setGiven_of_allMeet
    (h : AllMeet fields) {order : List Setting}
    (horder : order.Nodup) (s : Settings) :
    ∃ t, order.foldlM (setGiven fields) s = .ok t ∧
      (∀ field ∈ order,
        (given? field fields).getD (.int (s.get field)) = .int (t.get field)) ∧
      ∀ field ∉ order, t.get field = s.get field := by
  induction order generalizing s with
  | nil => exact ⟨s, rfl, List.forall_mem_nil _, fun _ _ => rfl⟩
  | cons field order ih =>
    obtain ⟨hfresh, hrest⟩ := List.nodup_cons.mp horder
    obtain ⟨changed, hset, hfield, hothers⟩ := setGiven_of_allMeet h s field
    obtain ⟨t, ht, hinside, houtside⟩ := ih hrest changed
    refine ⟨t, ?_, ?_, ?_⟩
    · rw [List.foldlM_cons, hset]
      exact ht
    · intro other hother
      rcases List.mem_cons.mp hother with rfl | hother
      · rw [houtside other hfresh]
        exact hfield
      · have hne : other ≠ field := fun hsame => hfresh (hsame ▸ hother)
        rw [← hothers other hne]
        exact hinside other hother
    · intro other hother
      have hne : other ≠ field :=
        fun hsame => hother (hsame ▸ List.mem_cons_self)
      rw [houtside other fun hmem => hother (List.mem_cons_of_mem _ hmem),
        hothers other hne]

theorem foldlM_setGiven_of_not_meets
    {order : List Setting}
    (hfield : field ∈ order) (hgiven : given? field fields = some v)
    (h : ¬field.Meets v) (s : Settings) :
    ∃ f, order.foldlM (setGiven fields) s = .error f := by
  induction order generalizing s with
  | nil => exact absurd hfield List.not_mem_nil
  | cons first order ih =>
    rw [List.foldlM_cons]
    cases hset : setGiven fields s first with
    | error f => exact ⟨f, rfl⟩
    | ok changed =>
      have hne : field ≠ first := by
        rintro rfl
        rw [setGiven, hgiven] at hset
        dsimp only at hset
        rw [set_of_not_meets h] at hset
        cases hset
      exact ih (List.mem_of_ne_of_mem hne hfield) changed

theorem setAll_of_allMeet (h : AllMeet fields) (s : Settings) :
    ∃ t, s.setAll fields = .ok t ∧ s.Receives fields t := by
  obtain ⟨t, ht, hinside, -⟩ := foldlM_setGiven_of_allMeet h Setting.nodup_all s
  exact ⟨t, ht, fun field => hinside field field.mem_all⟩

theorem setAll_of_not_allMeet (h : ¬AllMeet fields) (s : Settings) :
    ∃ f, s.setAll fields = .error f := by
  simp only [AllMeet, Classical.not_forall] at h
  obtain ⟨field, v, hgiven, hmeets⟩ := h
  exact foldlM_setGiven_of_not_meets field.mem_all hgiven hmeets s

/-- Every name is the name of a field. -/
def AllKnown (fields : List (String × Value)) : Prop :=
  ∀ entry ∈ fields, ∃ field : Setting, field.name = entry.1

theorem unknown?_eq_none_iff (fields : List (String × Value)) :
    unknown? fields = none ↔ AllKnown fields := by
  have hname : ∀ name, (Setting.ofName? name).isNone = false ↔
      ∃ field : Setting, field.name = name := by
    intro name
    cases hfield : Setting.ofName? name with
    | none =>
      simp only [Option.isNone_none, Bool.true_eq_false, false_iff]
      rintro ⟨field, rfl⟩
      rw [Setting.ofName?_name] at hfield
      cases hfield
    | some field => simpa using ⟨field, Setting.name_eq_of_ofName? hfield⟩
  rw [unknown?, List.find?_eq_none, List.forall_mem_map]
  simp only [Bool.not_eq_true, hname]
  rfl

/-- No field has the name by which an operation knows its object. -/
theorem ownName_ne_name (field : Setting) : field.name ≠ ownName := by
  cases field <;> decide

theorem make_of_allKnown (h : AllKnown fields) :
    make fields = standard.setAll fields := by
  rw [make, (unknown?_eq_none_iff fields).mpr h]
  rfl

theorem make_of_not_allKnown (h : ¬AllKnown fields) :
    make fields = .error .badArguments := by
  rw [← unknown?_eq_none_iff] at h
  rw [make, if_pos (Option.isSome_iff_ne_none.mpr h)]

theorem replace_of_allKnown (h : AllKnown fields) (s : Settings) :
    s.replace fields = s.setAll fields := by
  have hown : ¬fields.any (·.1 == ownName) = true := by
    rw [List.any_eq_true]
    rintro ⟨entry, hentry, hsame⟩
    obtain ⟨field, hfield⟩ := h entry hentry
    exact ownName_ne_name field (hfield.trans (by simpa using hsame))
  rw [replace, if_neg hown, (unknown?_eq_none_iff fields).mpr h]

/-! ## Made and replaced settings -/

theorem make_of_allMeet (h : AllKnown fields ∧ AllMeet fields) :
    ∃ t, make fields = .ok t ∧ standard.Receives fields t := by
  rw [make_of_allKnown h.1]
  exact setAll_of_allMeet h.2 standard

theorem make_of_not_allMeet (h : ¬(AllKnown fields ∧ AllMeet fields)) :
    ∃ f, make fields = .error f := by
  by_cases hknown : AllKnown fields
  · rw [make_of_allKnown hknown]
    exact setAll_of_not_allMeet (fun hmeet => h ⟨hknown, hmeet⟩) standard
  · exact ⟨_, make_of_not_allKnown hknown⟩

theorem replace_of_allMeet (h : AllKnown fields ∧ AllMeet fields)
    (s : Settings) :
    ∃ t, s.replace fields = .ok t ∧ s.Receives fields t := by
  rw [replace_of_allKnown h.1]
  exact setAll_of_allMeet h.2 s

/-- Unknown names are refused before any value is looked at. -/
theorem replace_of_not_allKnown (h : ¬AllKnown fields) :
    ∃ f : Failure, f.cls = .type ∧
      ∀ (s : Settings) (others : List (String × Value)),
        others.map Prod.fst = fields.map Prod.fst →
        s.replace others = .error f := by
  have hunknown : ∃ name, unknown? fields = some name := by
    rw [← unknown?_eq_none_iff] at h
    exact Option.ne_none_iff_exists'.mp h
  obtain ⟨name, hname⟩ := hunknown
  have hany : ∀ entries : List (String × Value),
      entries.any (·.1 == ownName) =
          (entries.map Prod.fst).any (· == ownName) := by
    intro entries
    rw [List.any_map]
    rfl
  by_cases hown : fields.any (·.1 == ownName) = true
  · refine ⟨.badArguments, rfl, ?_⟩
    intro s others hothers
    rw [replace, hany, hothers, ← hany, if_pos hown]
  · refine ⟨.notASetting name, rfl, ?_⟩
    intro s others hothers
    have hsame : unknown? others = some name := by
      rw [← hname]
      exact congrArg (List.find? _) hothers
    rw [replace, hany, hothers, ← hany, if_neg hown, hsame]

theorem replace_of_not_allMeet (h : ¬(AllKnown fields ∧ AllMeet fields))
    (s : Settings) :
    ∃ f, s.replace fields = .error f := by
  by_cases hknown : AllKnown fields
  · rw [replace_of_allKnown hknown]
    exact setAll_of_not_allMeet (fun hmeet => h ⟨hknown, hmeet⟩) s
  · obtain ⟨f, -, hf⟩ := replace_of_not_allKnown hknown
    exact ⟨f, hf s fields rfl⟩

end Settings

end QueryJournal

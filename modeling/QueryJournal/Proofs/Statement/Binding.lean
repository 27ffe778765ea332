import Mathlib.Data.List.Nodup
import QueryJournal.Proofs.Results
import QueryJournal.Statement.Bind

/-!
# Where bound values go

Which value belongs to a variable is said here without putting any in place: the
one under its name, if the variable is the first of that name, else the one at
its place, else none.  Binding gives every variable its own value as bytes, in
whatever way the values are passed, and fails with the first of the reasons that
there are: too many values, an unknown name, and a value that its variable does
not take.
-/

namespace QueryJournal

/-- The value as bytes of the type of a variable. -/
inductive Column.Holds (c : Column) : Value → BoundValue → Prop
  | null : Holds c .null ⟨none, c.type⟩
  | value {v : Value} {raw : Bytes} (hv : v ≠ .null)
      (h : c.type.encode v = .ok raw) :
      Holds c v ⟨some raw, c.type⟩

namespace BoundValue

variable {c : Column} {v : Value} {b : BoundValue} {fault : CodecFault}

theorem ofValue_of_ne_null (hv : v ≠ .null) (type : ColumnType) :
    ofValue type v = (type.encode v).map fun raw => ⟨some raw, type⟩ := by
  cases v with
  | null => exact absurd rfl hv
  | _ =>
    rw [ofValue]
    · rfl
    · exact nofun

theorem ofValue_eq_ok_iff : ofValue c.type v = .ok b ↔ c.Holds v b := by
  constructor
  · intro h
    by_cases hv : v = .null
    · subst hv
      cases h
      exact .null
    · rw [ofValue_of_ne_null hv] at h
      obtain ⟨raw, hencode, rfl⟩ := exists_of_map_eq_ok h
      exact .value hv hencode
  · intro h
    cases h with
    | null => rfl
    | value hv hencode =>
      rw [ofValue_of_ne_null hv, hencode]
      rfl

theorem ofValue_eq_error_iff :
    ofValue c.type v = .error fault ↔
      v ≠ .null ∧ c.type.encode v = .error fault := by
  by_cases hv : v = .null
  · subst hv
    exact iff_of_false nofun fun h => h.1 rfl
  · rw [ofValue_of_ne_null hv, map_eq_error_iff]
    exact (and_iff_right hv).symm

end BoundValue

namespace Prepared

variable {p : Prepared} {positional : List Value}
  {named : List (String × Value)}
variable {i : ℕ} {c : Column}

/-- The names of the variables in their order. -/
def names (p : Prepared) : List String :=
  p.columns.map Column.name

/-- The value that belongs to a variable at a place. -/
def given (p : Prepared) (positional : List Value)
    (named : List (String × Value))
    (i : ℕ) (c : Column) : Value :=
  if c.name ∈ p.names.take i then positional.getD i .null
  else (named.lookup c.name).getD (positional.getD i .null)

/-! ## Places -/

theorem hasVariable_iff {name : String} :
    p.hasVariable name = true ↔ name ∈ p.names := by
  simp [hasVariable, names]

theorem findIdx_eq_iff (hc : p.columns[i]? = some c) (name : String) :
    p.columns.findIdx (·.name == name) = i ↔
      c.name = name ∧ name ∉ p.names.take i := by
  obtain ⟨hi, hget⟩ := List.getElem?_eq_some_iff.mp hc
  rw [List.findIdx_eq hi, hget, beq_iff_eq, names, ← List.map_take]
  refine and_congr_right fun _ => ?_
  simp only [beq_eq_false_iff_ne, List.mem_map, not_exists, not_and,
    List.mem_take_iff_getElem]
  constructor
  · rintro h _ ⟨j, hj, rfl⟩
    exact h j (by omega)
  · intro h j hj
    exact h _ ⟨j, by omega, rfl⟩

theorem length_place (slots : List Value) (entry : String × Value) :
    (p.place slots entry).length = slots.length :=
  List.length_set

/-- One named value changes the place of the first variable of its name only. -/
theorem getElem?_place {slots : List Value}
    (hlength : slots.length = p.columns.length)
    (hc : p.columns[i]? = some c) (name : String) (v : Value) :
    (p.place slots (name, v))[i]? =
      if c.name = name ∧ name ∉ p.names.take i then some v else slots[i]? := by
  obtain ⟨hi, -⟩ := List.getElem?_eq_some_iff.mp hc
  have hplace := findIdx_eq_iff hc name
  rw [place, List.getElem?_set]
  by_cases hfirst : c.name = name ∧ name ∉ p.names.take i
  · have hat := hplace.mpr hfirst
    rw [if_pos hfirst, if_pos hat, hat, if_pos (hlength ▸ hi)]
  · rw [if_neg hfirst, if_neg (mt hplace.mp hfirst)]

/-- Named values stay where they were put, as long as no name is given twice. -/
theorem getElem?_foldl_place (hnames : (named.map Prod.fst).Nodup) :
    ∀ {slots : List Value}, slots.length = p.columns.length →
    p.columns[i]? = some c →
      (named.foldl p.place slots)[i]? =
        if c.name ∈ p.names.take i then slots[i]?
        else (named.lookup c.name).or slots[i]? := by
  induction named with
  | nil =>
    intro slots _ _
    simp
  | cons entry named ih =>
    intro slots hlength hc
    obtain ⟨name, v⟩ := entry
    obtain ⟨hfresh, hrest⟩ := List.nodup_cons.mp hnames
    have hlength' : (p.place slots (name, v)).length = p.columns.length := by
      rw [length_place, hlength]
    rw [List.foldl_cons, ih hrest hlength' hc, getElem?_place hlength hc]
    by_cases hname : c.name = name
    · have hnone : named.lookup name = none := by
        rw [List.lookup_eq_none_iff]
        intro other hother
        have hne : name ≠ other.1 := by
          intro h
          exact hfresh (List.mem_map.mpr ⟨other, hother, h.symm⟩)
        simpa using hne
      rw [hname, hnone, List.lookup_cons_self]
      by_cases hfirst : name ∈ p.names.take i
      · simp [hfirst]
      · simp [hfirst]
    · have hother : (c.name == name) = false := by simpa using hname
      simp [hname, List.lookup_cons, hother]

theorem length_slots (hfit : positional.length ≤ p.columns.length) :
    (p.slots positional named).length = p.columns.length := by
  have hfold : ∀ slots : List Value,
      (named.foldl p.place slots).length = slots.length := by
    induction named with
    | nil => exact fun _ => rfl
    | cons entry named ih =>
      intro slots
      rw [List.foldl_cons, ih, length_place]
  rw [slots, hfold, List.length_append, List.length_replicate]
  omega

/-- Every variable has the value that belongs to it. -/
theorem getElem?_slots (hnames : (named.map Prod.fst).Nodup)
    (hfit : positional.length ≤ p.columns.length)
    (hc : p.columns[i]? = some c) :
    (p.slots positional named)[i]? = some (p.given positional named i c) := by
  obtain ⟨hi, -⟩ := List.getElem?_eq_some_iff.mp hc
  have hlength :
      (positional ++ List.replicate (p.columns.length - positional.length)
      Value.null).length = p.columns.length := by
    rw [List.length_append, List.length_replicate]
    omega
  have horder :
      (positional ++ List.replicate (p.columns.length - positional.length)
      Value.null)[i]? = some (positional.getD i .null) := by
    rw [List.getElem?_append, List.getElem?_replicate,
      List.getD_eq_getElem?_getD]
    by_cases hplace : i < positional.length
    · simp [hplace]
    · have hmissing : i - positional.length <
          p.columns.length - positional.length := by omega
      simp [hplace, hmissing]
  rw [slots, getElem?_foldl_place hnames hlength hc, horder, given]
  split
  · rfl
  · cases named.lookup c.name with
    | none => rfl
    | some v => rfl

/-! ## Rows of conversions -/

/-- The bytes are those of the values of some variables, one for each. -/
structure AllHold (cs : List Column) (value : ℕ → Column → Value)
    (bs : List BoundValue) : Prop where
  length : bs.length = cs.length
  holds : ∀ (i : ℕ) (c : Column), cs[i]? = some c →
    ∃ b, bs[i]? = some b ∧ c.Holds (value i c) b

/-- The first variable that does not take its value is at a place. -/
structure FirstRefused (cs : List Column) (value : ℕ → Column → Value) (i : ℕ)
    (fault : CodecFault) : Prop where
  refused : ∃ c : Column, cs[i]? = some c ∧ value i c ≠ .null ∧
    c.type.encode (value i c) = .error fault
  earlier : ∀ j < i, ∀ c : Column, cs[j]? = some c → ∃ b, c.Holds (value j c) b

section Rows

variable {cs : List Column} {vs : List Value} {value : ℕ → Column → Value}
variable {bs : List BoundValue} {fault : CodecFault}

theorem encodeAll_cons (c : Column) (cs : List Column) (v : Value)
    (vs : List Value) :
    encodeAll (c :: cs) (v :: vs) =
      (BoundValue.ofValue c.type v).bind fun b =>
        (encodeAll cs vs).map (b :: ·) :=
  rfl

theorem allHold_cons_iff {b : BoundValue} :
    AllHold (c :: cs) value (b :: bs) ↔
      c.Holds (value 0 c) b ∧ AllHold cs (fun i => value (i + 1)) bs := by
  constructor
  · intro h
    obtain ⟨b', hb', hhead⟩ := h.holds 0 c rfl
    cases hb'
    exact ⟨hhead, Nat.succ.inj h.length, fun i d hd => h.holds (i + 1) d hd⟩
  · rintro ⟨hhead, htail⟩
    refine ⟨congrArg Nat.succ htail.length, ?_⟩
    intro i d hd
    cases i with
    | zero =>
      cases hd
      exact ⟨b, rfl, hhead⟩
    | succ i => exact htail.holds i d hd

theorem firstRefused_zero_iff :
    FirstRefused (c :: cs) value 0 fault ↔
      value 0 c ≠ .null ∧ c.type.encode (value 0 c) = .error fault := by
  constructor
  · rintro ⟨⟨d, hd, hrefused⟩, -⟩
    cases hd
    exact hrefused
  · intro h
    exact ⟨⟨c, rfl, h⟩, fun j hj => absurd hj (Nat.not_lt_zero j)⟩

theorem firstRefused_succ_iff :
    FirstRefused (c :: cs) value (i + 1) fault ↔
      (∃ b, c.Holds (value 0 c) b) ∧
      FirstRefused cs (fun i => value (i + 1)) i fault := by
  constructor
  · intro h
    refine ⟨h.earlier 0 (Nat.succ_pos i) c rfl, h.refused, ?_⟩
    intro j hj d hd
    exact h.earlier (j + 1) (Nat.succ_lt_succ hj) d hd
  · rintro ⟨hhead, hrefused, hearlier⟩
    refine ⟨hrefused, ?_⟩
    intro j hj d hd
    cases j with
    | zero =>
      cases hd
      exact hhead
    | succ j => exact hearlier j (Nat.lt_of_succ_lt_succ hj) d hd

/-- A row of conversions gives the bytes of all values, or the fault of the
first value that is refused. -/
theorem encodeAll_spec
    (hvs : ∀ i c, cs[i]? = some c → vs[i]? = some (value i c)) :
    (∀ bs, encodeAll cs vs = .ok bs ↔ AllHold cs value bs) ∧
      ∀ fault, encodeAll cs vs = .error fault ↔
        ∃ i, FirstRefused cs value i fault := by
  induction cs generalizing vs value with
  | nil =>
    constructor
    · intro bs
      constructor
      · intro h
        cases h
        exact ⟨rfl, nofun⟩
      · intro h
        rw [List.length_eq_zero_iff.mp h.length]
        rfl
    · intro fault
      refine iff_of_false nofun ?_
      rintro ⟨i, ⟨c, hc, -⟩, -⟩
      cases hc
  | cons c cs ih =>
    obtain ⟨v, vs, rfl⟩ : ∃ v rest, vs = v :: rest := by
      have hhead := hvs 0 c rfl
      cases vs with
      | nil => cases hhead
      | cons v rest => exact ⟨v, rest, rfl⟩
    obtain rfl : v = value 0 c := Option.some.inj (hvs 0 c rfl)
    obtain ⟨hok, herror⟩ := ih fun i d hd => hvs (i + 1) d hd
    rw [encodeAll_cons]
    constructor
    · intro bs
      cases bs with
      | nil =>
        refine iff_of_false ?_ fun h => nomatch h.length
        intro h
        obtain ⟨b, -, hrest⟩ := exists_of_bind_eq_ok h
        obtain ⟨items, -, hitems⟩ := exists_of_map_eq_ok hrest
        cases hitems
      | cons b bs =>
        rw [allHold_cons_iff, ← BoundValue.ofValue_eq_ok_iff, ← hok]
        constructor
        · intro h
          obtain ⟨b', hhead, hrest⟩ := exists_of_bind_eq_ok h
          obtain ⟨items, htail, hitems⟩ := exists_of_map_eq_ok hrest
          cases hitems
          exact ⟨hhead, htail⟩
        · rintro ⟨hhead, htail⟩
          rw [hhead, htail]
          rfl
    · intro fault
      rw [← Nat.or_exists_add_one, firstRefused_zero_iff,
        ← BoundValue.ofValue_eq_error_iff]
      simp only [firstRefused_succ_iff, ← BoundValue.ofValue_eq_ok_iff,
        exists_and_left]
      rw [← herror]
      constructor
      · intro h
        obtain hhead | ⟨b, hhead, hrest⟩ := eq_error_or_of_bind h
        · exact .inl hhead
        · exact .inr ⟨⟨b, hhead⟩, map_eq_error_iff.mp hrest⟩
      · rintro (hhead | ⟨⟨b, hhead⟩, hrest⟩)
        · rw [hhead]
          rfl
        · rw [hhead]
          exact map_eq_error_iff.mpr hrest

end Rows

/-! ## The phases of binding -/

section Phases

variable (hself : ownName ∉ named.map Prod.fst)

include hself

theorem any_ownName : ¬named.any (·.1 == ownName) = true := by
  intro h
  obtain ⟨entry, hentry, hname⟩ := List.any_eq_true.mp h
  exact hself (List.mem_map.mpr ⟨entry, hentry, by simpa using hname⟩)

theorem bind_of_lt (hlong : p.columns.length < positional.length) :
    p.bind positional named =
      .error (.tooManyValues p.columns.length positional.length) := by
  rw [bind, if_neg (any_ownName hself), if_pos hlong]
  rfl

variable (hfit : positional.length ≤ p.columns.length)

include hfit

theorem bind_of_unknown {before after : List (String × Value)}
    {name : String} {v : Value}
    (hnamed : named = before ++ (name, v) :: after)
    (hbefore : ∀ e ∈ before, e.1 ∈ p.names) (hname : name ∉ p.names) :
    p.bind positional named = .error (.notAVariable name) := by
  have hfind : (named.find? fun entry => !p.hasVariable entry.1) =
      some (name, v) := by
    rw [List.find?_eq_some_iff_append]
    refine ⟨?_, before, after, hnamed, ?_⟩
    · simpa [← hasVariable_iff] using hname
    · intro e he
      simpa using hasVariable_iff.mpr (hbefore e he)
  rw [bind, if_neg (any_ownName hself), if_neg (Nat.not_lt.mpr hfit), hfind]
  rfl

theorem bind_of_known (hknown : ∀ e ∈ named, e.1 ∈ p.names) :
    p.bind positional named =
      ((encodeAll p.columns (p.slots positional named)).mapError
        conversionFailure).bind
        p.withValues := by
  have hfind : (named.find? fun entry => !p.hasVariable entry.1) = none := by
    rw [List.find?_eq_none]
    intro e he
    simpa using hasVariable_iff.mpr (hknown e he)
  rw [bind, if_neg (any_ownName hself), if_neg (Nat.not_lt.mpr hfit), hfind]
  rfl

theorem exists_bind_of_not_known (hunknown : ¬∀ e ∈ named, e.1 ∈ p.names) :
    ∃ name, p.bind positional named = .error (.notAVariable name) := by
  cases hfind : named.find? fun entry => !p.hasVariable entry.1 with
  | none =>
    rw [List.find?_eq_none] at hfind
    refine absurd ?_ hunknown
    intro e he
    rw [← hasVariable_iff]
    simpa using hfind e he
  | some entry =>
    refine ⟨entry.1, ?_⟩
    rw [bind, if_neg (any_ownName hself), if_neg (Nat.not_lt.mpr hfit), hfind]
    rfl

end Phases

/-- The statement has its values as bytes, each in the place of its variable. -/
structure IsBinding (p : Prepared) (positional : List Value)
    (named : List (String × Value)) (b : Bound) : Prop where
  prepared : b.prepared = p
  values : AllHold p.columns (p.given positional named) b.values

section Bound

variable (hnames : (named.map Prod.fst).Nodup)
  (hself : ownName ∉ named.map Prod.fst)
variable (hfit : positional.length ≤ p.columns.length)
  (hknown : ∀ e ∈ named, e.1 ∈ p.names)

include hnames hself hfit hknown

theorem bind_eq_ok_iff (b : Bound) :
    p.bind positional named = .ok b ↔ p.IsBinding positional named b := by
  obtain ⟨hok, -⟩ := encodeAll_spec fun i c hc => getElem?_slots hnames hfit hc
  rw [bind_of_known hself hfit hknown]
  constructor
  · intro h
    obtain ⟨bs, hbs, hb⟩ := exists_of_bind_eq_ok h
    have hall := (hok bs).mp (mapError_eq_ok_iff.mp hbs)
    rw [withValues, dif_pos hall.length] at hb
    cases hb
    exact ⟨rfl, hall⟩
  · rintro ⟨rfl, hall⟩
    rw [(hok _).mpr hall]
    change b.prepared.withValues b.values = .ok b
    rw [withValues, dif_pos hall.length]

theorem bind_eq_error_iff (f : Failure) :
    p.bind positional named = .error f ↔
      ∃ i fault, FirstRefused p.columns (p.given positional named) i fault ∧
        f = if fault.cls.isExhaustion then .strayEnd else fault.toFailure := by
  obtain ⟨hok, herror⟩ :=
    encodeAll_spec fun i c hc => getElem?_slots hnames hfit hc
  rw [bind_of_known hself hfit hknown, exists_comm]
  simp only [exists_and_right, ← herror, ← conversionFailure.eq_def,
    ← mapError_eq_error_iff]
  constructor
  · intro h
    obtain hfault | ⟨bs, hbs, hb⟩ := eq_error_or_of_bind h
    · exact hfault
    · -- as many bytes as variables are never refused
      have hall := (hok bs).mp (mapError_eq_ok_iff.mp hbs)
      rw [withValues, dif_pos hall.length] at hb
      cases hb
  · intro h
    rw [h]
    rfl

end Bound

/-- Whenever binding succeeds every variable has its own value. -/
theorem isBinding_of_bind {b : Bound} (hnames : (named.map Prod.fst).Nodup)
    (h : p.bind positional named = .ok b) : p.IsBinding positional named b := by
  have hself : ownName ∉ named.map Prod.fst := by
    intro hmem
    obtain ⟨entry, hentry, hname⟩ := List.mem_map.mp hmem
    have hany : named.any (·.1 == ownName) = true :=
      List.any_eq_true.mpr ⟨entry, hentry, by simpa using hname⟩
    rw [bind, if_pos hany] at h
    cases h
  have hfit : positional.length ≤ p.columns.length := by
    by_contra hlong
    rw [bind_of_lt hself (Nat.lt_of_not_le hlong)] at h
    cases h
  have hknown : ∀ e ∈ named, e.1 ∈ p.names := by
    by_contra hunknown
    obtain ⟨name, hrefused⟩ := exists_bind_of_not_known hself hfit hunknown
    rw [hrefused] at h
    cases h
  exact (bind_eq_ok_iff hnames hself hfit hknown b).mp h

/-! ## Ways of passing the same values -/

theorem lookup_eq_some_iff_mem (hnames : (named.map Prod.fst).Nodup)
    {name : String} {v : Value} :
    named.lookup name = some v ↔ (name, v) ∈ named := by
  rw [List.lookup_eq_some_iff]
  constructor
  · rintro ⟨before, after, rfl, -⟩
    simp
  · intro h
    obtain ⟨before, after, rfl⟩ := List.append_of_mem h
    refine ⟨before, after, rfl, ?_⟩
    intro e he
    rw [List.map_append, List.nodup_append] at hnames
    have hne : e.1 ≠ name := hnames.2.2 _ (List.mem_map_of_mem he) _ (by simp)
    simpa using hne.symm

theorem lookup_eq_of_perm (hnames : (named.map Prod.fst).Nodup)
    {other : List (String × Value)}
    (hperm : named.Perm other) (name : String) :
    other.lookup name = named.lookup name := by
  have hother : (other.map Prod.fst).Nodup :=
    (hperm.map Prod.fst).nodup_iff.mp hnames
  ext v
  rw [lookup_eq_some_iff_mem hother, lookup_eq_some_iff_mem hnames,
    hperm.mem_iff]

theorem slots_eq_of_given {positional' : List Value}
    {named' : List (String × Value)}
    (hnames : (named.map Prod.fst).Nodup)
    (hfit : positional.length ≤ p.columns.length)
    (hnames' : (named'.map Prod.fst).Nodup)
    (hfit' : positional'.length ≤ p.columns.length)
    (hgiven : ∀ i c, p.columns[i]? = some c →
      p.given positional' named' i c = p.given positional named i c) :
    p.slots positional' named' = p.slots positional named := by
  apply List.ext_getElem?
  intro i
  cases hc : p.columns[i]? with
  | some c =>
    rw [getElem?_slots hnames hfit hc, getElem?_slots hnames' hfit' hc,
      hgiven i c hc]
  | none =>
    have hle := List.getElem?_eq_none_iff.mp hc
    have hnone : (p.slots positional named)[i]? = none := by
      rwa [List.getElem?_eq_none_iff, length_slots hfit]
    have hnone' : (p.slots positional' named')[i]? = none := by
      rwa [List.getElem?_eq_none_iff, length_slots hfit']
    rw [hnone, hnone']

theorem given_eq_of_perm (hnames : (named.map Prod.fst).Nodup)
    {other : List (String × Value)}
    (hperm : named.Perm other) (positional : List Value) (i : ℕ) (c : Column) :
    p.given positional other i c = p.given positional named i c := by
  rw [given, given, lookup_eq_of_perm hnames hperm]

/-- Named values may be given in any order, although it decides which unknown
name is reported. -/
theorem bind_of_perm (hnames : (named.map Prod.fst).Nodup)
    (hself : ownName ∉ named.map Prod.fst)
    {other : List (String × Value)} (hperm : named.Perm other) :
    p.bind positional other = p.bind positional named ∨
      ∃ name name', p.bind positional named = .error (.notAVariable name) ∧
        p.bind positional other = .error (.notAVariable name') := by
  have hnames' : (other.map Prod.fst).Nodup :=
    (hperm.map Prod.fst).nodup_iff.mp hnames
  have hself' : ownName ∉ other.map Prod.fst :=
    mt (hperm.map Prod.fst).mem_iff.mpr hself
  rcases Nat.lt_or_ge p.columns.length positional.length with hlong | hfit
  · exact .inl ((bind_of_lt hself' hlong).trans (bind_of_lt hself hlong).symm)
  · by_cases hknown : ∀ e ∈ named, e.1 ∈ p.names
    · have hknown' : ∀ e ∈ other, e.1 ∈ p.names := fun e he =>
        hknown e (hperm.mem_iff.mpr he)
      have hslots := slots_eq_of_given hnames hfit hnames' hfit fun i c _ =>
        given_eq_of_perm hnames hperm positional i c
      left
      rw [bind_of_known hself hfit hknown,
        bind_of_known hself' hfit hknown', hslots]
    · have hunknown' : ¬∀ e ∈ other, e.1 ∈ p.names :=
        fun h => hknown fun e he => h e (hperm.mem_iff.mp he)
      obtain ⟨name, hname⟩ := exists_bind_of_not_known hself hfit hknown
      obtain ⟨name', hname'⟩ := exists_bind_of_not_known hself' hfit hunknown'
      exact .inr ⟨name, name', hname, hname'⟩

/-- The named values are those that belong to the variables from a place on. -/
def NamesFrom (p : Prepared) (values : List Value) (j : ℕ)
    (named : List (String × Value)) : Prop :=
  ∀ name v, (name, v) ∈ named ↔
    ∃ i, j ≤ i ∧ p.names[i]? = some name ∧ values[i]? = some v

theorem lookup_of_namesFrom (hnames : (named.map Prod.fst).Nodup)
    (hdistinct : p.names.Nodup)
    {values : List Value} {j : ℕ} (hnamed : p.NamesFrom values j named)
    (hc : p.names[i]? = some c.name) :
    named.lookup c.name = if j ≤ i then values[i]? else none := by
  obtain ⟨hi, -⟩ := List.getElem?_eq_some_iff.mp hc
  ext v
  rw [lookup_eq_some_iff_mem hnames, hnamed]
  constructor
  · rintro ⟨k, hk, hname, hv⟩
    obtain rfl : i = k :=
      (List.getElem?_inj hi hdistinct).mp (hc.trans hname.symm)
    rwa [if_pos hk]
  · intro h
    split at h
    next hj => exact ⟨i, hj, hc, h⟩
    next => cases h

/-- Some first values by order and the others by name are as good as all by
order. -/
theorem bind_of_namesFrom (hnames : (named.map Prod.fst).Nodup)
    (hself : ownName ∉ named.map Prod.fst) (hdistinct : p.names.Nodup)
    {values : List Value}
    (hfit : values.length ≤ p.columns.length) {j : ℕ}
    (hnamed : p.NamesFrom values j named) :
    p.bind (values.take j) named = p.bind values [] := by
  have hfit' : (values.take j).length ≤ p.columns.length :=
    Nat.le_trans (List.length_take_le' _ _) hfit
  have hknown : ∀ e ∈ named, e.1 ∈ p.names := by
    intro e he
    obtain ⟨i, -, hname, -⟩ := (hnamed e.1 e.2).mp he
    exact List.mem_of_getElem? hname
  have hslots : p.slots (values.take j) named = p.slots values [] := by
    apply slots_eq_of_given (by simp) hfit hnames hfit'
    intro i c hc
    have hname : p.names[i]? = some c.name := by
      rw [names, List.getElem?_map, hc, Option.map_some]
    obtain ⟨hi, hget⟩ := List.getElem?_eq_some_iff.mp hname
    have hfirst : c.name ∉ p.names.take i := by
      intro hmem
      obtain ⟨k, hk, hkname⟩ := List.mem_take_iff_getElem.mp hmem
      have hki : k = i :=
        (List.Nodup.getElem_inj_iff hdistinct).mp (hkname.trans hget.symm)
      omega
    rw [given, given, if_neg hfirst,
      lookup_of_namesFrom hnames hdistinct hnamed hname]
    simp only [List.lookup_nil, Option.getD_none, ite_self,
      List.getD_eq_getElem?_getD, List.getElem?_take]
    by_cases hj : j ≤ i
    · simp [hj, Nat.not_lt.mpr hj]
    · simp [hj, Nat.lt_of_not_le hj]
  rw [bind_of_known hself hfit' hknown,
    bind_of_known (by simp) hfit (by simp), hslots]

/-- Binding gives every variable the value that belongs to it, or tells the
first reason why it cannot.  It does so in whatever order and way the values are
passed. -/
theorem binding_places_every_value (p : Prepared) (positional : List Value)
    (named : List (String × Value)) (hnames : (named.map Prod.fst).Nodup)
    (hself : ownName ∉ named.map Prod.fst) :
    (p.columns.length < positional.length →
      p.bind positional named =
          .error (.tooManyValues p.columns.length positional.length) ∧
        (Failure.tooManyValues p.columns.length
          positional.length).cls = .value) ∧
    (positional.length ≤ p.columns.length →
      (∀ before name v after, named = before ++ (name, v) :: after →
        (∀ e ∈ before, e.1 ∈ p.names) → name ∉ p.names →
          p.bind positional named = .error (.notAVariable name) ∧
            (Failure.notAVariable name).cls = .value) ∧
      ((∀ e ∈ named, e.1 ∈ p.names) →
        (∀ b, p.bind positional named = .ok b ↔
          p.IsBinding positional named b) ∧
        ∀ f, p.bind positional named = .error f ↔
          ∃ i fault, FirstRefused p.columns (p.given positional named) i fault ∧
            f =
              if fault.cls.isExhaustion then .strayEnd
              else fault.toFailure)) ∧
    (∀ other, named.Perm other →
      p.bind positional other = p.bind positional named ∨
        ∃ name name', p.bind positional named = .error (.notAVariable name) ∧
          p.bind positional other = .error (.notAVariable name')) ∧
    (p.names.Nodup → ∀ values j,
      values.length ≤ p.columns.length → p.NamesFrom values j named →
      p.bind (values.take j) named = p.bind values []) := by
  refine ⟨fun hlong => ⟨bind_of_lt hself hlong, rfl⟩, ?_,
    fun other => bind_of_perm hnames hself,
    fun hdistinct values j hfit =>
      bind_of_namesFrom hnames hself hdistinct hfit⟩
  intro hfit
  constructor
  · intro before name v after hnamed hbefore hname
    exact ⟨bind_of_unknown hself hfit hnamed hbefore hname, rfl⟩
  · intro hknown
    exact ⟨bind_eq_ok_iff hnames hself hfit hknown,
      bind_eq_error_iff hnames hself hfit hknown⟩

/-- A value by name replaces the value by order of the first variable of its
name, and only of that. -/
theorem binding_places_every_value_of_twins :
    let p : Prepared := ⟨"UPDATE t SET a = ? WHERE k = ? AND a = ?",
      [⟨"a", .int⟩, ⟨"k", .text⟩, ⟨"a", .boolean⟩]⟩
    ∃ b, b.values = [⟨some [0, 0, 0, 2], .int⟩, ⟨none, .text⟩,
      ⟨some [1], .boolean⟩] ∧
      p.bind [.int 1, .null, .truth true] [("a", .int 2)] = .ok b ∧
      p.IsBinding [.int 1, .null, .truth true] [("a", .int 2)] b := by
  intro p
  obtain ⟨-, hfit, -⟩ :=
    binding_places_every_value p [.int 1, .null, .truth true]
    [("a", .int 2)] (by decide) (by decide)
  obtain ⟨hok, -⟩ := (hfit (by decide)).2 (by decide)
  let b : Bound :=
    ⟨p, [⟨some [0, 0, 0, 2], .int⟩, ⟨none, .text⟩, ⟨some [1], .boolean⟩], rfl⟩
  have hbind : p.bind [.int 1, .null, .truth true] [("a", .int 2)] = .ok b :=
    rfl
  exact ⟨b, rfl, hbind, (hok b).mp hbind⟩

/-- The end of a sequence that an object signals while it is printed is reported
as an error of another class. -/
theorem stray_end_is_reported_otherwise :
    let p : Prepared := ⟨"SELECT ?", [⟨"v", .text⟩]⟩
    let refused : CodecFault := .unprintable .exhaustion
    FirstRefused p.columns (p.given [.unprintable .exhaustion] []) 0 refused ∧
      refused.toFailure.cls = .exhaustion ∧
      p.bind [.unprintable .exhaustion] [] = .error .strayEnd ∧
      Failure.strayEnd.cls = .runtime ∧ Failure.strayEnd ≠ refused.toFailure :=
  ⟨⟨⟨⟨"v", .text⟩, rfl, nofun, rfl⟩, nofun⟩, rfl, rfl, rfl, nofun⟩

end Prepared

end QueryJournal

import QueryJournal.Proofs.Logging.Hierarchy

/-!
# Setting levels

What setting the level of a logger changes: the level of this logger, and
nothing about the levels of others and who was there first.  A logger that does
not exist yet comes into being, at the end.  So the level that counts changes
for the logger itself, and for those below it that get their level from nowhere
else on the way up.
-/

namespace QueryJournal.Loggers

variable {ls : Loggers} {name other p q : String} {level : ℤ}

/-! ## One setting -/

theorem setLevel_of_root (h : canonical other = rootName) (level : ℤ) :
    ls.setLevel other level = { ls with rootLevel := level } :=
  if_pos h

theorem setLevel_of_ne (h : canonical other ≠ rootName) (level : ℤ) :
    ls.setLevel other level = { ls.touch other with
      levels := (ls.touch other).levels.map fun l =>
    if l.1 = other then (other, level) else l } :=
  if_neg h

theorem rootLevel_touch : (ls.touch other).rootLevel = ls.rootLevel := by
  unfold touch
  split <;> rfl

theorem touch_of_known (h : ls.knows other = true) : ls.touch other = ls :=
  if_pos (.inr h)

theorem levels_touch_of_unknown (hother : canonical other ≠ rootName)
    (h : ls.knows other = false) :
    (ls.touch other).levels = ls.levels ++ [(other, 0)] := by
  rw [touch, if_neg]
  simp [hother, h]

theorem knows_touch (hother : canonical other ≠ rootName) (q : String) :
    (ls.touch other).knows q = (ls.knows q || other == q) := by
  cases h : ls.knows other with
  | true =>
    rw [touch_of_known h]
    by_cases hq : other = q
    · subst hq
      rw [h]
      rfl
    · simp [hq]
  | false =>
    rw [knows, levels_touch_of_unknown hother h, List.any_append, knows]
    simp

theorem any_map_setting (levels : List (String × ℤ)) (q : String) :
    (levels.map fun l =>
        if l.1 = other then (other, level) else l).any (·.1 == q) =
      levels.any (·.1 == q) := by
  rw [List.any_map]
  congr 1
  funext l
  by_cases h : l.1 = other
  · simp [h]
  · simp [h]

theorem knows_setLevel (hother : canonical other ≠ rootName) (q : String) :
    (ls.setLevel other level).knows q = (ls.knows q || other == q) := by
  rw [setLevel_of_ne hother, knows, any_map_setting]
  exact knows_touch hother q

/-- Loggers that exist stay there. -/
theorem knows_touch_of_known (h : ls.knows p = true) (name : String) :
    (ls.touch name).knows p = true := by
  by_cases hname : canonical name = rootName
  · rwa [Loggers.touch, if_pos (.inl hname)]
  · rw [knows_touch hname, h, Bool.true_or]

theorem knows_setLevel_of_known (h : ls.knows p = true)
    (name : String) (level : ℤ) :
    (ls.setLevel name level).knows p = true := by
  by_cases hname : canonical name = rootName
  · rwa [setLevel_of_root hname]
  · rw [knows_setLevel hname, h, Bool.true_or]

/-- No setting makes a logger of the root's name. -/
theorem knows_rootName_touch (h : ls.knows rootName = false) (other : String) :
    (ls.touch other).knows rootName = false := by
  by_cases hother : canonical other = rootName
  · rw [touch, if_pos (.inl hother), h]
  · rw [knows_touch hother, h]
    simp only [Bool.false_or, beq_eq_false_iff_ne]
    rintro rfl
    exact hother rfl

theorem knows_rootName_setLevel (h : ls.knows rootName = false)
    (other : String) (level : ℤ) :
    (ls.setLevel other level).knows rootName = false := by
  by_cases hother : canonical other = rootName
  · rw [setLevel_of_root hother]
    exact h
  · rw [setLevel_of_ne hother, knows, any_map_setting]
    exact knows_rootName_touch h other

theorem lookup_of_not_knows (h : ls.knows q = false) :
    ls.levels.lookup q = none := by
  rw [List.lookup_eq_none_iff]
  intro l hl
  have hne : l.1 ≠ q := by simpa using List.any_eq_false.mp h l hl
  simpa using hne.symm

theorem ownLevel_touch (other q : String) :
    (ls.touch other).ownLevel q = ls.ownLevel q := by
  by_cases h : canonical other = rootName ∨ ls.knows other = true
  · rw [touch, if_pos h]
  · have hunknown : ls.knows other = false := by simpa using (not_or.mp h).2
    rw [ownLevel, levels_touch_of_unknown (not_or.mp h).1 hunknown,
      List.lookup_append, ownLevel]
    by_cases hq : q = other
    · subst hq
      rw [lookup_of_not_knows hunknown]
      simp
    · have hq' : (q == other) = false := by simpa using hq
      simp [List.lookup_cons, hq']

theorem lookup_map_setting (levels : List (String × ℤ)) (q : String) :
    (levels.map fun l => if l.1 = other then (other, level) else l).lookup q =
      if q = other then (levels.lookup q).map fun _ => level
      else levels.lookup q := by
  induction levels with
  | nil => simp
  | cons l levels ih =>
    rw [List.map_cons, List.lookup_cons, List.lookup_cons, ih]
    by_cases hl : l.1 = other
    · by_cases hq : q = other
      · subst hq
        simp [hl]
      · have hne : (q == other) = false := by simpa using hq
        simp [hl, hq, hne]
    · by_cases hq : q = other
      · subst hq
        have hne : (q == l.1) = false := by simpa using Ne.symm hl
        simp [hl, hne]
      · simp [hl, hq]

theorem ownLevel_setLevel (hother : canonical other ≠ rootName) (q : String) :
    (ls.setLevel other level).ownLevel q =
      if q = other then level else ls.ownLevel q := by
  rw [setLevel_of_ne hother, ownLevel, lookup_map_setting]
  by_cases hq : q = other
  · subst hq
    have hknown : (ls.touch q).knows q = true := by
      rw [knows_touch hother]
      simp
    have hsome : ∃ v, (ls.touch q).levels.lookup q = some v := by
      cases h : (ls.touch q).levels.lookup q with
      | some v => exact ⟨v, rfl⟩
      | none =>
        rw [List.lookup_eq_none_iff] at h
        obtain ⟨l, hl, hname⟩ := List.any_eq_true.mp hknown
        have hne := h l hl
        simp only [beq_iff_eq] at hname
        simp [hname] at hne
    obtain ⟨v, hv⟩ := hsome
    rw [if_pos rfl, if_pos rfl, hv]
    rfl
  · rw [if_neg hq, if_neg hq]
    exact ownLevel_touch other q

theorem canonical_of_ne (h : canonical name ≠ rootName) :
    canonical name = name := by
  unfold canonical at h ⊢
  split
  next hempty => exact absurd (if_pos hempty) h
  next => rfl

theorem levelOf_touch (other q : String) :
    (ls.touch other).levelOf q = ls.levelOf q := by
  rw [levelOf, levelOf, rootLevel_touch, ownLevel_touch]

/-- A setting is about one logger. -/
theorem levelOf_setLevel (other : String) (level : ℤ) (q : String) :
    (ls.setLevel other level).levelOf q =
      if canonical other = canonical q then level else ls.levelOf q := by
  rw [levelOf, levelOf]
  by_cases hother : canonical other = rootName
  · rw [setLevel_of_root hother, hother]
    by_cases hq : canonical q = rootName
    · rw [if_pos hq, if_pos hq.symm]
    · rw [if_neg hq, if_neg hq, if_neg (Ne.symm hq)]
      rfl
  · by_cases hq : canonical q = rootName
    · rw [if_pos hq, if_pos hq, hq, if_neg hother, setLevel_of_ne hother]
      exact rootLevel_touch
    · rw [if_neg hq, if_neg hq, ownLevel_setLevel hother,
        canonical_of_ne hother, canonical_of_ne hq]
      simp only [eq_comm]

/-- Only the last level that is set for a logger in a row matters. -/
theorem setLevel_setLevel (ls : Loggers) (name : String) (m n : ℤ) :
    (ls.setLevel name m).setLevel name n = ls.setLevel name n := by
  by_cases hname : canonical name = rootName
  · rw [setLevel_of_root hname, setLevel_of_root hname, setLevel_of_root hname]
  · have hknown : (ls.setLevel name m).knows name = true := by
      rw [knows_setLevel hname]
      simp
    have hmaps : ∀ levels : List (String × ℤ),
        (levels.map fun l => if l.1 = name then (name, m) else l).map
          (fun l => if l.1 = name then (name, n) else l) =
        levels.map fun l => if l.1 = name then (name, n) else l := by
      intro levels
      rw [List.map_map]
      refine List.map_congr_left fun l _ => ?_
      by_cases hl : l.1 = name
      · simp [hl]
      · simp [hl]
    rw [setLevel_of_ne hname, touch_of_known hknown, setLevel_of_ne hname,
      setLevel_of_ne hname, hmaps]

/-! ## Who was there first -/

theorem findIdx_map_setting (levels : List (String × ℤ)) (q : String) :
    (levels.map fun l =>
        if l.1 = other then (other, level) else l).findIdx (·.1 == q) =
      levels.findIdx (·.1 == q) := by
  rw [List.findIdx_map]
  congr 1
  funext l
  by_cases h : l.1 = other
  · simp [h]
  · simp [h]

/-- Other loggers keep their order. -/
theorem precedes_touch (hp : p ≠ other) (hq : q ≠ other) :
    (ls.touch other).precedes q p = ls.precedes q p := by
  by_cases h : canonical other = rootName ∨ ls.knows other = true
  · rw [touch, if_pos h]
  · have hunknown : ls.knows other = false := by simpa using (not_or.mp h).2
    have hplace : ∀ x, x ≠ other →
        (ls.levels ++ [(other, (0 : ℤ))]).findIdx (·.1 == x) =
        if ls.levels.findIdx (·.1 == x) < ls.levels.length then
          ls.levels.findIdx (·.1 == x)
        else 1 + ls.levels.length := by
      intro x hx
      have hother : (other == x) = false := by simpa using Ne.symm hx
      rw [List.findIdx_append]
      simp [List.findIdx_cons, hother]
    have hleq : ls.levels.findIdx (·.1 == q) ≤ ls.levels.length :=
      List.findIdx_le_length
    have hlep : ls.levels.findIdx (·.1 == p) ≤ ls.levels.length :=
      List.findIdx_le_length
    rw [precedes, precedes, levels_touch_of_unknown (not_or.mp h).1 hunknown,
      hplace q hq, hplace p hp, decide_eq_decide]
    split <;> split <;> omega

/-- Two states of the loggers that do not differ in who was there first, one
logger apart. -/
structure AgreeApart (ls ls' : Loggers) (other : String) : Prop where
  knows : ∀ q, q ≠ other → ls'.knows q = ls.knows q
  precedes : ∀ q p, q ≠ other → p ≠ other → ls'.precedes q p = ls.precedes q p

theorem agreeApart_touch (ls : Loggers) (other : String) :
    AgreeApart ls (ls.touch other) other := by
  refine ⟨fun q hq => ?_, fun q p hq hp => precedes_touch hp hq⟩
  by_cases hother : canonical other = rootName
  · rw [touch, if_pos (.inl hother)]
  · have hne : (other == q) = false := by simpa using Ne.symm hq
    rw [knows_touch hother, hne, Bool.or_false]

theorem agreeApart_setLevel (ls : Loggers) (other : String) (level : ℤ) :
    AgreeApart ls (ls.setLevel other level) other := by
  by_cases hother : canonical other = rootName
  · rw [setLevel_of_root hother]
    exact ⟨fun _ _ => rfl, fun _ _ _ _ => rfl⟩
  · rw [setLevel_of_ne hother]
    refine ⟨fun q hq => ?_, fun q p hq hp => ?_⟩
    · rw [knows, any_map_setting]
      exact (agreeApart_touch ls other).knows q hq
    · rw [precedes, findIdx_map_setting, findIdx_map_setting]
      exact (agreeApart_touch ls other).precedes q p hq hp

section Apart

variable {ls' : Loggers} (h : AgreeApart ls ls' other)
variable (hlonger : ∀ q, LiesBelow name q → p.length < q.length → q ≠ other)

include h hlonger

theorem passesOver_congr {rest : List Char}
    (hname : name.toList = p.toList ++ '.' :: rest) :
    ls'.passesOver p rest = ls.passesOver p rest := by
  induction rest generalizing p with
  | nil => rfl
  | cons c rest ih =>
    by_cases hc : c = '.'
    · subst hc
      have hdotted : name.toList = (p ++ ".").toList ++ '.' :: rest := by
        rw [hname, String.toList_append, List.append_assoc]
        rfl
      have hlength : p.length < (p ++ ".").length := by
        rw [String.length_append]
        exact Nat.lt_succ_self _
      have hnonempty : p ++ "." ≠ "" := by
        intro hempty
        rw [hempty] at hlength
        exact absurd hlength (Nat.not_lt_zero _)
      have hne : p ++ "." ≠ other :=
        hlonger _ ⟨hnonempty, rest, hdotted⟩ hlength
      have htail :=
        ih (fun q hq hlt => hlonger q hq (Nat.lt_trans hlength hlt)) hdotted
      rw [passesOver, passesOver, h.knows _ hne, htail]
    · rw [passesOver_of_ne hc, passesOver_of_ne hc]

theorem meets_congr (hp : p ≠ other) : ls'.Meets name p ↔ ls.Meets name p := by
  constructor
  · rintro ⟨hne, hknown, rest, hrest, hpasses⟩
    refine ⟨hne, by rwa [← h.knows p hp], rest, hrest, ?_⟩
    rwa [← passesOver_congr h hlonger hrest]
  · rintro ⟨hne, hknown, rest, hrest, hpasses⟩
    refine ⟨hne, by rwa [h.knows p hp], rest, hrest, ?_⟩
    rwa [passesOver_congr h hlonger hrest]

/-- Whether a logger is above another one depends on those between them only. -/
theorem isAbove_congr (hname : name ≠ other) (hp : p ≠ other) :
    ls'.IsAbove name p ↔ ls.IsAbove name p := by
  have hway : ∀ x, p.length < x.length →
      ((x = name ∨ ls'.Meets name x) ↔ (x = name ∨ ls.Meets name x)) := by
    intro x hx
    by_cases hbelow : LiesBelow name x
    · have hlonger' : ∀ q, LiesBelow name q → x.length < q.length → q ≠ other :=
        fun q hq hlt => hlonger q hq (Nat.lt_trans hx hlt)
      rw [meets_congr h hlonger' (hlonger x hbelow hx)]
    · refine or_congr_right (iff_of_false ?_ ?_)
      · exact fun hmeets => hbelow hmeets.liesBelow
      · exact fun hmeets => hbelow hmeets.liesBelow
  have hnext : ∀ q, IsNext (fun x => x = name ∨ ls'.Meets name x) p q ↔
      IsNext (fun x => x = name ∨ ls.Meets name x) p q := by
    intro q
    constructor
    · rintro ⟨hmem, hlt, hleast⟩
      exact ⟨(hway q hlt).mp hmem, hlt,
        fun x hx hlt' => hleast x ((hway x hlt').mpr hx) hlt'⟩
    · rintro ⟨hmem, hlt, hleast⟩
      exact ⟨(hway q hlt).mpr hmem, hlt,
        fun x hx hlt' => hleast x ((hway x hlt').mp hx) hlt'⟩
  rw [IsAbove, IsAbove, meets_congr h hlonger hp, IsLate, IsLate]
  refine and_congr_right fun _ =>
    not_congr (and_congr_right fun _ => exists_congr fun q => ?_)
  rw [hnext]
  refine and_congr_right fun hq => ?_
  have hne : q ≠ other := by
    rcases hq.mem with rfl | hmeets
    · exact hname
    · exact hlonger q hmeets.liesBelow hq.longer
  rw [h.precedes q p hne hp]

end Apart

/-! ## What a setting changes -/

/-- A logger gets its level from another one, or would if that one had a level:
the other one is the root or stands before a dot of its name, and neither the
logger itself nor one above it, up to there, has a level. -/
structure ReliesOn (ls : Loggers) (level : String → ℤ)
    (name other : String) : Prop where
  below : canonical other = rootName ∨ LiesBelow name other
  own : level name = 0
  between : ∀ q, ls.IsAbove name q →
    (canonical other = rootName ∨ other.length < q.length) →
    level q = 0

/-- A logger that is met on the way up before another one: that is the root, or
not on the way, or further up. -/
def IsBefore (name other p : String) : Prop :=
  canonical other = rootName ∨ ¬LiesBelow name other ∨ other.length < p.length

theorem IsBefore.of_le (h : IsBefore name other p) (hle : p.length ≤ q.length) :
    IsBefore name other q :=
  h.imp_right fun h => h.imp_right fun hlt => Nat.lt_of_lt_of_le hlt hle

theorem isAbove_setLevel_iff (hname : canonical other ≠ canonical name)
    (hp : IsBefore name other p) :
    (ls.setLevel other level).IsAbove name p ↔ ls.IsAbove name p := by
  by_cases hbelow : LiesBelow name p
  · rcases hp with hother | hother | hlength
    · -- the root's level is no part of the hierarchy
      have hagree : AgreeApart ls (ls.setLevel other level) "" := by
        rw [setLevel_of_root hother]
        exact ⟨fun _ _ => rfl, fun _ _ _ _ => rfl⟩
      refine isAbove_congr hagree (fun q hq _ => hq.1) ?_ hbelow.1
      rintro rfl
      exact hname hother
    · have hne : ∀ q, LiesBelow name q → q ≠ other := by
        rintro q hq rfl
        exact hother hq
      exact isAbove_congr (agreeApart_setLevel ls other level)
        (fun q hq _ => hne q hq)
        (fun h => hname (by rw [h])) (hne p hbelow)
    · have hne : ∀ q, p.length ≤ q.length → q ≠ other := by
        rintro q hq rfl
        exact absurd hlength (Nat.not_lt.mpr hq)
      exact isAbove_congr (agreeApart_setLevel ls other level)
        (fun q _ hlt => hne q (Nat.le_of_lt hlt)) (fun h => hname (by rw [h]))
        (hne p (Nat.le_refl _))
  · exact iff_of_false (fun h => hbelow h.1.liesBelow) fun h =>
      hbelow h.1.liesBelow

theorem levelOf_setLevel_of_isBefore (hroot : ls.knows rootName = false)
    (hp : IsBefore name other p) (habove : ls.IsAbove name p) :
    (ls.setLevel other level).levelOf p = ls.levelOf p := by
  have hnotRoot : p ≠ rootName := by
    rintro rfl
    rw [habove.1.known] at hroot
    cases hroot
  have hself : canonical p = p := if_neg habove.1.nonempty
  rw [levelOf_setLevel, if_neg]
  intro hsame
  rw [hself] at hsame
  rcases hp with hother | hother
  · exact hnotRoot (hsame.symm.trans hother)
  · have hp : other = p := by
      rw [← hsame, canonical_of_ne]
      rw [hsame]
      exact hnotRoot
    rcases hother with hother | hlength
    · exact hother (hp ▸ habove.1.liesBelow)
    · exact absurd hlength (hp ▸ Nat.lt_irrefl _)

/-- The level that counts for a logger changes only with its own level and with
that of a logger that it relies on. -/
theorem effectiveLevel_setLevel (hroot : ls.knows rootName = false)
    (hname : canonical other ≠ canonical name)
    (hrelies : ¬ls.ReliesOn ls.levelOf name other) (level : ℤ) :
    (ls.setLevel other level).effectiveLevel name = ls.effectiveLevel name := by
  have hown' : (ls.setLevel other level).levelOf name = ls.levelOf name := by
    rw [levelOf_setLevel, if_neg hname]
  have hzero : ∀ {q}, IsBefore name other q →
      (ls.setLevel other level).IsAbove name q →
      (ls.IsAbove name q → ls.levelOf q = 0) →
      (ls.setLevel other level).levelOf q = 0 := by
    intro q hq habove hlevel
    have habove' := (isAbove_setLevel_iff hname hq).mp habove
    rw [levelOf_setLevel_of_isBefore hroot hq habove', hlevel habove']
  rw [← inherits_iff (knows_rootName_setLevel hroot other level)]
  have hinherits := inherits_effectiveLevel hroot name
  generalize ls.effectiveLevel name = v at hinherits
  cases hinherits with
  | own hown =>
    rw [← hown']
    exact .own (by rwa [hown'])
  | @above p hown hp hlevel hnearest =>
    have hbefore : IsBefore name other p := by
      by_contra hnot
      simp only [IsBefore, not_or, not_not, not_lt] at hnot
      obtain ⟨hother, hbelow, hle⟩ := hnot
      refine hrelies ⟨.inr hbelow, hown, ?_⟩
      rintro q hq (h | hlt)
      · exact absurd h hother
      · exact hnearest q hq (Nat.lt_of_le_of_lt hle hlt)
    rw [← levelOf_setLevel_of_isBefore hroot hbefore hp]
    refine .above (by rwa [hown'])
      ((isAbove_setLevel_iff hname hbefore).mpr hp) ?_ ?_
    · rwa [levelOf_setLevel_of_isBefore hroot hbefore hp]
    · intro q hq hlt
      exact hzero (hbefore.of_le (Nat.le_of_lt hlt)) hq fun habove =>
        hnearest q habove hlt
  | root hown hnone =>
    have hother : canonical other ≠ rootName ∧ ¬LiesBelow name other := by
      rw [ne_eq, ← not_or]
      exact fun h => hrelies ⟨h, hown, fun q hq _ => hnone q hq⟩
    have hbefore : ∀ q, IsBefore name other q := fun q => .inr (.inl hother.2)
    have hrootLevel : (ls.setLevel other level).levelOf rootName =
        ls.levelOf rootName := by
      rw [levelOf_setLevel, if_neg]
      exact hother.1
    rw [← hrootLevel]
    exact .root (by rwa [hown']) fun q hq => hzero (hbefore q) hq fun habove =>
      hnone q habove

/-! ## Histories of settings -/

/-- Loggers that come from others when some are made and levels are set. -/
inductive Later (ls : Loggers) : Loggers → Prop
  | refl : Later ls ls
  | touch {ls' : Loggers} (h : Later ls ls') (name : String) :
      Later ls (ls'.touch name)
  | setLevel {ls' : Loggers} (h : Later ls ls') (name : String) (level : ℤ) :
      Later ls (ls'.setLevel name level)

theorem Later.knows {ls' : Loggers}
    (hlater : ls.Later ls') (h : ls.knows p = true) :
    ls'.knows p = true := by
  induction hlater with
  | refl => exact h
  | touch _ name ih => exact knows_touch_of_known ih name
  | setLevel _ name level ih => exact knows_setLevel_of_known ih name level

/-- Sets the levels of some loggers in turn. -/
def setLevels (ls : Loggers) (settings : List (String × ℤ)) : Loggers :=
  settings.foldl (fun ls s => ls.setLevel s.1 s.2) ls

/-- The last setting that is about a logger, if there is one. -/
def lastSetting (settings : List (String × ℤ)) (name : String) : Option ℤ :=
  (settings.filter fun s =>
    canonical s.1 = canonical name).getLast?.map Prod.snd

/-- The level of a logger after some settings: the one that was set last, or the
one from before all settings, which only the root has. -/
def levelAfter (settings : List (String × ℤ)) (name : String) : ℤ :=
  (lastSetting settings name).getD
    (if canonical name = rootName then Level.warning else Level.unset)

theorem lastSetting_append (settings more : List (String × ℤ)) (name : String) :
    lastSetting (settings ++ more) name =
      (lastSetting more name).or (lastSetting settings name) := by
  rw [lastSetting, lastSetting, lastSetting, List.filter_append,
    List.getLast?_append]
  cases (more.filter fun s => canonical s.1 = canonical name).getLast? with
  | none => rfl
  | some s => rfl

theorem lastSetting_singleton (s : String × ℤ) (name : String) :
    lastSetting [s] name =
      if canonical s.1 = canonical name then some s.2 else none := by
  rw [lastSetting]
  by_cases h : canonical s.1 = canonical name
  · simp [h]
  · simp [h]

theorem levelOf_setLevels (ls : Loggers) (settings : List (String × ℤ))
    (name : String) :
    (ls.setLevels settings).levelOf name =
      (lastSetting settings name).getD (ls.levelOf name) := by
  induction settings generalizing ls with
  | nil => rfl
  | cons s settings ih =>
    rw [← List.singleton_append, lastSetting_append, lastSetting_singleton]
    refine (ih _).trans ?_
    rw [levelOf_setLevel]
    cases lastSetting settings name with
    | some v => rfl
    | none =>
      rw [Option.none_or, Option.getD_none]
      split <;> rfl

theorem knows_rootName_setLevels (h : ls.knows rootName = false)
    (settings : List (String × ℤ)) :
    (ls.setLevels settings).knows rootName = false := by
  induction settings generalizing ls with
  | nil => exact h
  | cons s settings ih => exact ih (knows_rootName_setLevel h s.1 s.2)

theorem levelOf_initial (name : String) :
    initial.levelOf name =
      if canonical name = rootName then Level.warning else Level.unset := by
  have hown : initial.ownLevel name = Level.unset := by
    rw [ownLevel, initial]
    simp only [List.lookup_cons, List.lookup_nil]
    repeat' split
    all_goals rfl
  rw [levelOf, hown]
  rfl

/-- The loggers after some settings, between which one logger is made. -/
def after (before later : List (String × ℤ)) (name : String) : Loggers :=
  ((initial.setLevels before).touch name).setLevels later

theorem knows_rootName_after (before later : List (String × ℤ))
    (name : String) :
    (after before later name).knows rootName = false :=
  knows_rootName_setLevels
    (knows_rootName_touch (knows_rootName_setLevels (by decide) before) name)
      later

theorem levelOf_after (before later : List (String × ℤ)) (name : String) :
    (after before later name).levelOf = levelAfter (before ++ later) := by
  funext other
  rw [after, levelOf_setLevels, levelOf_touch, levelOf_setLevels,
    levelOf_initial, levelAfter, lastSetting_append]
  cases lastSetting later other with
  | none => rw [Option.none_or, Option.getD_none]
  | some v => rfl

/-- A logger with a level exists. -/
theorem knows_of_levelOf_ne (hname : canonical p ≠ rootName)
    (h : ls.levelOf p ≠ 0) :
    ls.knows p = true := by
  by_contra hunknown
  have hnone := lookup_of_not_knows (Bool.of_not_eq_true hunknown)
  rw [levelOf, if_neg hname, ownLevel, hnone] at h
  exact h rfl

theorem mem_beginnings (h : p.toList <+: rootName.toList) (hne : p ≠ "")
    (hroot : p ≠ rootName) :
    p ∈ ["r", "ro", "roo"] := by
  have hmem : p.toList ∈ rootName.toList.inits := (List.mem_inits _ _).mpr h
  have hinits : rootName.toList.inits =
      ["", "r", "ro", "roo", "root"].map String.toList := by
    decide
  rw [hinits, List.mem_map] at hmem
  obtain ⟨q, hq, hqp⟩ := hmem
  have heq : q = p := String.toList_injective hqp
  subst heq
  simp only [List.mem_cons, List.not_mem_nil, or_false] at hq ⊢
  rcases hq with rfl | rfl | rfl | rfl | rfl
  · exact absurd rfl hne
  · exact .inl rfl
  · exact .inr (.inl rfl)
  · exact .inr (.inr rfl)
  · exact absurd rfl hroot

/-- A logger with a level that stands before a dot of a name is above the logger
of that name, unless another dot follows it there, or its name is a beginning of
the root's. -/
theorem isAbove_of_levelOf_ne (hlevel : ls.levelOf p ≠ 0) (hroot : p ≠ rootName)
    (h : LiesBelow name p) :
    ls.IsAbove name p ∨ p ∈ ["r", "ro", "roo"] ∨
      ∃ rest, name.toList = p.toList ++ '.' :: '.' :: rest := by
  obtain ⟨hne, rest, hrest⟩ := h
  have hself : canonical p = p := if_neg hne
  have hknown : ls.knows p = true := knows_of_levelOf_ne (by rwa [hself]) hlevel
  by_cases hdot : ∃ rest', rest = '.' :: rest'
  · obtain ⟨rest', rfl⟩ := hdot
    exact .inr (.inr ⟨rest', hrest⟩)
  · have hpasses : ls.passesOver p rest = false := by
      rw [passesOver]
      exact fun rest' h => hdot ⟨rest', h⟩
    by_cases hprefix : p.toList <+: rootName.toList
    · exact .inr (.inl (mem_beginnings hprefix hne hroot))
    · exact .inl ⟨⟨hne, hknown, rest, hrest, hpasses⟩,
        fun hlate => hprefix hlate.1⟩

end QueryJournal.Loggers

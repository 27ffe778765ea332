import Mathlib.Data.List.Infix
import Mathlib.Data.Nat.Notation
import QueryJournal.Logging.Loggers

/-!
# The hierarchy of loggers

Which loggers a logger is below can be told from the names.  They are the ones
whose names stand before a dot of its name, with two exceptions.  Of two dots in
a row the first is passed over on the way up, unless a logger stands before the
second.  And a logger whose name is a beginning of the root's is not above those
that were directly below the root when it appeared.  The level that counts for a
logger is its own, or that of the nearest logger above it which has one, or else
that of the root.
-/

namespace QueryJournal.Loggers

variable {ls : Loggers} {name p q : String}

/-! ## Names -/

/-- A name goes on with a dot after another one. -/
def LiesBelow (name p : String) : Prop :=
  p ≠ "" ∧ ∃ rest, name.toList = p.toList ++ '.' :: rest

/-- Whether the way up passes over a beginning of a name, from what stands after
its dot: another dot makes it do so, unless that is passed over itself or stands
after a logger. -/
def passesOver (ls : Loggers) (p : String) : List Char → Bool
  | '.' :: rest => !ls.knows (p ++ ".") && !ls.passesOver (p ++ ".") rest
  | _ => false

/-- The way up from a logger meets another one. -/
structure Meets (ls : Loggers) (name p : String) : Prop where
  nonempty : p ≠ ""
  known : ls.knows p = true
  begins : ∃ rest, name.toList = p.toList ++ '.' :: rest ∧
    ls.passesOver p rest = false

/-- Of some names one is the next longer than another. -/
structure IsNext (among : String → Prop) (p q : String) : Prop where
  mem : among q
  longer : p.length < q.length
  least : ∀ x, among x → p.length < x.length → q.length ≤ x.length

/-- A logger is late for another one if its name is a beginning of the root's
and the next logger below it, on the way up from the other one, was there before
it. -/
def IsLate (ls : Loggers) (name p : String) : Prop :=
  p.toList <+: rootName.toList ∧
    ∃ q, IsNext (fun x => x = name ∨ ls.Meets name x) p q ∧
      ls.precedes q p = true

/-- A logger is above another one. -/
def IsAbove (ls : Loggers) (name p : String) : Prop :=
  ls.Meets name p ∧ ¬ls.IsLate name p

theorem Meets.liesBelow (h : ls.Meets name p) : LiesBelow name p := by
  obtain ⟨rest, hrest, -⟩ := h.begins
  exact ⟨h.nonempty, rest, hrest⟩

theorem LiesBelow.length_lt (h : LiesBelow name p) :
    p.length < name.length := by
  obtain ⟨-, rest, hrest⟩ := h
  rw [← String.length_toList, ← String.length_toList, hrest, List.length_append,
    List.length_cons]
  omega

/-- Beginnings of the same name differ in their lengths. -/
theorem LiesBelow.eq_of_length_eq (hp : LiesBelow name p)
    (hq : LiesBelow name q) (h : p.length = q.length) : p = q := by
  obtain ⟨-, rest, hrest⟩ := hp
  obtain ⟨-, rest', hrest'⟩ := hq
  have hsame : p.toList ++ '.' :: rest = q.toList ++ '.' :: rest' :=
    hrest.symm.trans hrest'
  have hlength : p.toList.length = q.toList.length := by
    rw [String.length_toList, String.length_toList, h]
  exact String.toList_injective (List.append_inj_left hsame hlength)

/-! ## The way up -/

/-- The way up meets a logger within the part of a name whose reversal is given,
where some more characters follow that part. -/
def MeetsWithin (ls : Loggers) (cs after : List Char) (p : String) : Prop :=
  ∃ rest, cs.reverse = p.toList ++ '.' :: rest ∧
    ls.passesOver p (rest ++ after) = false

theorem meetsWithin_cons_iff {c : Char} {cs after : List Char} :
    ls.MeetsWithin (c :: cs) after p ↔
      (c = '.' ∧ p = String.ofList cs.reverse ∧ ls.passesOver p after = false) ∨
        ls.MeetsWithin cs (c :: after) p := by
  constructor
  · rintro ⟨rest, hrest, hpasses⟩
    rw [List.reverse_cons] at hrest
    rcases List.eq_nil_or_concat' rest with rfl | ⟨rest, d, rfl⟩
    · obtain ⟨hbegin, hdot⟩ := List.append_inj' hrest rfl
      refine .inl ⟨(List.cons.inj hdot).1, ?_, hpasses⟩
      rw [hbegin, String.ofList_toList]
    · rw [← List.cons_append, ← List.append_assoc] at hrest
      obtain ⟨hbegin, hlast⟩ := List.append_inj' hrest rfl
      refine .inr ⟨rest, hbegin, ?_⟩
      rw [List.append_assoc] at hpasses
      rw [(List.cons.inj hlast).1]
      exact hpasses
  · rintro (⟨rfl, rfl, hpasses⟩ | ⟨rest, hrest, hpasses⟩)
    · refine ⟨[], ?_, hpasses⟩
      rw [List.reverse_cons, String.toList_ofList]
    · refine ⟨rest ++ [c], ?_, ?_⟩
      · rw [List.reverse_cons, hrest, List.append_assoc]
        rfl
      · rw [List.append_assoc]
        exact hpasses

theorem ofList_reverse_ne_empty {cs : List Char} (h : cs ≠ []) :
    String.ofList cs.reverse ≠ "" := by
  intro hempty
  have hlists := congrArg String.toList hempty
  rw [String.toList_ofList] at hlists
  exact h (List.reverse_eq_nil_iff.mp hlists)

theorem passesOver_of_ne {c : Char}
    (hc : c ≠ '.') (p : String) (after : List Char) :
    ls.passesOver p (c :: after) = false := by
  rw [passesOver]
  intro rest h
  exact hc (List.cons.inj h).1

theorem passesOver_dot (cs after : List Char) :
    ls.passesOver (String.ofList cs.reverse) ('.' :: after) =
      (!ls.knows (String.ofList ('.' :: cs).reverse) &&
        !ls.passesOver (String.ofList ('.' :: cs).reverse) after) := by
  rw [passesOver, List.reverse_cons, String.ofList_append]

/-- The flag of the way up tells whether it passes over the beginning before the
next dot. -/
def KeepsPace (ls : Loggers) (skip : Bool) (cs after : List Char) : Prop :=
  ∀ rest, cs = '.' :: rest →
  skip = ls.passesOver (String.ofList rest.reverse) after

theorem keepsPace_after_letter {c : Char}
    (hc : c ≠ '.') (cs after : List Char) :
    ls.KeepsPace false cs (c :: after) :=
  fun _ _ => (passesOver_of_ne hc _ _).symm

theorem keepsPace_after_dot {flag : Bool} {cs after : List Char}
    (h : flag = (!ls.knows (String.ofList cs.reverse) &&
      !ls.passesOver (String.ofList cs.reverse) after)) :
      ls.KeepsPace flag cs ('.' :: after) := by
  rintro rest rfl
  rw [h, passesOver_dot]

/-- Up to the next beginning that is looked up the way meets nothing. -/
theorem above_of_not_looked_up {skip : Bool} {c : Char} {cs : List Char}
    (h : c ≠ '.' ∨ skip = true ∨ cs = []) :
    ls.above skip (c :: cs) = ls.above false cs := by
  rw [above, if_pos]
  simpa only [List.isEmpty_iff] using h

theorem above_of_looked_up {cs : List Char} (h : cs ≠ []) :
    ls.above false ('.' :: cs) =
      if ls.knows (String.ofList cs.reverse) then
        String.ofList cs.reverse :: ls.above false cs
      else ls.above true cs := by
  rw [above, if_neg]
  simp [h]

theorem mem_above_iff {skip : Bool} {cs after : List Char}
    (hskip : ls.KeepsPace skip cs after) :
    p ∈ ls.above skip cs ↔
      p ≠ "" ∧ ls.knows p = true ∧ ls.MeetsWithin cs after p := by
  induction cs generalizing skip after with
  | nil =>
    refine iff_of_false List.not_mem_nil ?_
    rintro ⟨-, -, rest, hrest, -⟩
    simp at hrest
  | cons c cs ih =>
    -- the beginning before this character, if it is met here at all
    let here := String.ofList cs.reverse
    have hpast : (c = '.' → p ≠ "" → ls.knows p = true → p = here →
        ls.passesOver p after = true) →
        ((p ≠ "" ∧ ls.knows p = true ∧ ls.MeetsWithin cs (c :: after) p) ↔
          p ≠ "" ∧ ls.knows p = true ∧ ls.MeetsWithin (c :: cs) after p) := by
      intro hnot
      refine and_congr_right fun hne => and_congr_right fun hknown => ?_
      rw [meetsWithin_cons_iff, or_iff_right]
      rintro ⟨hdot, hhere, hpasses⟩
      rw [hnot hdot hne hknown hhere] at hpasses
      cases hpasses
    by_cases hc : c = '.'
    · subst hc
      have hflag : skip = ls.passesOver here after := hskip cs rfl
      cases skip with
      | true =>
        have hpace : ls.KeepsPace false cs ('.' :: after) :=
          keepsPace_after_dot (by rw [← hflag]; simp)
        rw [above_of_not_looked_up (.inr (.inl rfl)), ih hpace]
        refine hpast fun _ _ _ hhere => ?_
        rw [hhere, ← hflag]
      | false =>
        by_cases hempty : cs = []
        · subst hempty
          rw [above_of_not_looked_up (.inr (.inr rfl))]
          have hpace : ls.KeepsPace false [] ('.' :: after) :=
            fun rest h => nomatch h
          refine (ih hpace).trans ?_
          exact hpast fun _ hne _ hhere => absurd hhere hne
        · rw [above_of_looked_up hempty]
          by_cases hknown : ls.knows here = true
          · rw [if_pos hknown, List.mem_cons, meetsWithin_cons_iff,
              ih (keepsPace_after_dot (by rw [hknown]; rfl))]
            constructor
            · rintro (rfl | ⟨hne, hk, hmeets⟩)
              · exact ⟨ofList_reverse_ne_empty hempty, hknown,
                  .inl ⟨rfl, rfl, hflag.symm⟩⟩
              · exact ⟨hne, hk, .inr hmeets⟩
            · rintro ⟨hne, hk, ⟨-, hhere, -⟩ | hmeets⟩
              · exact .inl hhere
              · exact .inr ⟨hne, hk, hmeets⟩
          · have hunknown : ls.knows here = false := Bool.of_not_eq_true hknown
            rw [if_neg hknown,
              ih (keepsPace_after_dot (by rw [hunknown, ← hflag]; rfl))]
            exact hpast fun _ _ hk hhere => absurd (hhere ▸ hk) hknown
    · rw [above_of_not_looked_up (.inl hc),
        ih (keepsPace_after_letter hc cs after)]
      exact hpast fun hdot => absurd hdot hc

theorem length_lt_of_mem_above {skip : Bool} {cs : List Char}
    (h : p ∈ ls.above skip cs) :
    p.length < cs.length := by
  induction cs generalizing skip with
  | nil => cases h
  | cons c cs ih =>
    have hlater : ∀ {flag}, p ∈ ls.above flag cs →
        p.length < (c :: cs).length :=
      fun hp => Nat.lt_succ_of_lt (ih hp)
    rw [above] at h
    split at h
    · exact hlater h
    · dsimp only at h
      split at h
      · rcases List.mem_cons.mp h with rfl | hp
        · rw [← String.length_toList, String.toList_ofList, List.length_reverse]
          exact Nat.lt_succ_self _
        · exact hlater hp
      · exact hlater h

theorem pairwise_above (skip : Bool) (cs : List Char) :
    (ls.above skip cs).Pairwise fun p q => q.length < p.length := by
  induction cs generalizing skip with
  | nil => exact .nil
  | cons c cs ih =>
    rw [above]
    split
    · exact ih _
    · dsimp only
      split
      · refine List.pairwise_cons.mpr ⟨fun q hq => ?_, ih _⟩
        rw [← String.length_toList (s := String.ofList cs.reverse),
          String.toList_ofList, List.length_reverse]
        exact length_lt_of_mem_above hq
      · exact ih _

/-- The way up from a logger, as the list of those that it meets. -/
theorem mem_way_iff :
    p ∈ ls.above false name.toList.reverse ↔ ls.Meets name p := by
  have hpace : ls.KeepsPace false name.toList.reverse [] := fun _ _ => rfl
  rw [mem_above_iff hpace]
  constructor
  · rintro ⟨hne, hknown, rest, hrest, hpasses⟩
    rw [List.reverse_reverse] at hrest
    rw [List.append_nil] at hpasses
    exact ⟨hne, hknown, rest, hrest, hpasses⟩
  · rintro ⟨hne, hknown, rest, hrest, hpasses⟩
    refine ⟨hne, hknown, rest, ?_, ?_⟩
    · rw [List.reverse_reverse, hrest]
    · rw [List.append_nil, hpasses]

/-- The way up from a logger with the logger itself gets ever shorter. -/
theorem pairwise_way :
    (name :: ls.above false name.toList.reverse).Pairwise fun p q =>
      q.length < p.length :=
  List.pairwise_cons.mpr
    ⟨fun _ hq => (mem_way_iff.mp hq).liesBelow.length_lt, pairwise_above _ _⟩

/-! ## Late loggers -/

/-- Of two beginnings of a name the longer goes on with a dot after the
shorter. -/
theorem LiesBelow.of_length_lt (hp : LiesBelow name p) (hq : LiesBelow name q)
    (h : q.length < p.length) : LiesBelow p q := by
  obtain ⟨-, rest, hrest⟩ := hp
  obtain ⟨hne, rest', hrest'⟩ := hq
  rw [← String.length_toList, ← String.length_toList] at h
  have hsame : p.toList ++ '.' :: rest = (q.toList ++ ['.']) ++ rest' := by
    rw [← hrest, hrest', List.append_assoc]
    rfl
  obtain ⟨more, hmore⟩ : q.toList ++ ['.'] <+: p.toList := by
    refine List.prefix_of_prefix_length_le ⟨rest',
      hsame.symm⟩ (List.prefix_append _ _) ?_
    rw [List.length_append, List.length_singleton]
    exact h
  refine ⟨hne, more, ?_⟩
  rw [← hmore, List.append_assoc]
  rfl

/-- Nothing is above a logger whose name is a beginning of the root's. -/
theorem not_liesBelow_of_prefix (h : p.toList <+: rootName.toList) :
    ¬LiesBelow p q := by
  rintro ⟨-, rest, hrest⟩
  have hdot : '.' ∈ p.toList := by
    rw [hrest]
    exact List.mem_append_right _ List.mem_cons_self
  exact absurd (h.subset hdot) (by decide)

theorem withoutLate_cons (ls : Loggers) (p : String) (l : List String) :
    ∃ rest, ls.withoutLate (p :: l) = p :: rest ∧ rest.Sublist l := by
  induction l generalizing p with
  | nil => exact ⟨[], rfl, List.Sublist.refl []⟩
  | cons b l ih =>
    rw [withoutLate]
    split
    · exact ⟨[], rfl, List.nil_sublist _⟩
    · obtain ⟨rest, hrest, hsublist⟩ := ih b
      exact ⟨b :: rest, by rw [hrest], hsublist.cons_cons b⟩

theorem withoutLate_of_late {b : String} (l : List String)
    (h : b.toList <+: rootName.toList ∧ ls.precedes name b = true) :
    ls.withoutLate (name :: b :: l) = [name] := by
  rw [withoutLate, if_pos]
  rwa [List.isPrefixOf_iff_prefix]

theorem withoutLate_of_not_late {b : String} (l : List String)
    (h : ¬(b.toList <+: rootName.toList ∧ ls.precedes name b = true)) :
    ls.withoutLate (name :: b :: l) = name :: ls.withoutLate (b :: l) := by
  rw [withoutLate, if_neg]
  rwa [List.isPrefixOf_iff_prefix]

section Sorted

variable {b : String} {l : List String}
variable (hsorted : (name :: b :: l).Pairwise fun p q => q.length < p.length)

include hsorted

/-- The second of some names that get ever shorter is next to the first. -/
theorem isNext_second_iff : IsNext (· ∈ name :: b :: l) b q ↔ q = name := by
  obtain ⟨hfirst, hrest⟩ := List.pairwise_cons.mp hsorted
  have hle : ∀ x ∈ b :: l, x.length ≤ b.length := by
    intro x hx
    rcases List.mem_cons.mp hx with rfl | hx
    · exact Nat.le_refl _
    · exact Nat.le_of_lt ((List.pairwise_cons.mp hrest).1 x hx)
  constructor
  · rintro ⟨hq, hlonger, -⟩
    rcases List.mem_cons.mp hq with rfl | hq
    · rfl
    · exact absurd hlonger (Nat.not_lt.mpr (hle q hq))
  · rintro rfl
    refine ⟨List.mem_cons_self, hfirst b List.mem_cons_self, ?_⟩
    intro x hx hlonger
    rcases List.mem_cons.mp hx with rfl | hx
    · exact Nat.le_refl _
    · exact absurd hlonger (Nat.not_lt.mpr (hle x hx))

/-- The first of some names that get ever shorter is next to none but the
second. -/
theorem isNext_later_iff (hp : p ∈ l) :
    IsNext (· ∈ name :: b :: l) p q ↔ IsNext (· ∈ b :: l) p q := by
  obtain ⟨hfirst, hrest⟩ := List.pairwise_cons.mp hsorted
  have hb : b.length < name.length := hfirst b List.mem_cons_self
  constructor
  · rintro ⟨hq, hlonger, hleast⟩
    refine ⟨?_, hlonger, fun x hx => hleast x (List.mem_cons_of_mem _ hx)⟩
    rcases List.mem_cons.mp hq with rfl | hq
    · have hle := hleast b (List.mem_cons_of_mem _ List.mem_cons_self)
        ((List.pairwise_cons.mp hrest).1 p hp)
      exact absurd hb (Nat.not_lt.mpr hle)
    · exact hq
  · rintro ⟨hq, hlonger, hleast⟩
    refine ⟨List.mem_cons_of_mem _ hq, hlonger, ?_⟩
    intro x hx hlonger'
    rcases List.mem_cons.mp hx with rfl | hx
    · exact Nat.le_of_lt (hfirst q hq)
    · exact hleast x hx hlonger'

end Sorted

/-- The loggers that stay on the way up are those that are not late. -/
theorem mem_withoutLate_iff {l : List String}
    (hsorted : (name :: l).Pairwise fun p q => q.length < p.length)
    (htop : ∀ p ∈ l, p.toList <+: rootName.toList → ∀ q ∈ l,
      p.length ≤ q.length) :
    p ∈ ls.withoutLate (name :: l) ↔ p = name ∨ p ∈ l ∧
      ¬(p.toList <+: rootName.toList ∧
        ∃ q, IsNext (· ∈ name :: l) p q ∧ ls.precedes q p = true) := by
  induction l generalizing name with
  | nil => simp [withoutLate]
  | cons b l ih =>
    obtain ⟨-, hrest⟩ := List.pairwise_cons.mp hsorted
    have hshorter := (List.pairwise_cons.mp hrest).1
    have hsecond : (∃ q, IsNext (· ∈ name :: b :: l) b q ∧
        ls.precedes q b = true) ↔
        ls.precedes name b = true := by
      simp only [isNext_second_iff hsorted, exists_eq_left]
    by_cases hlate : b.toList <+: rootName.toList ∧ ls.precedes name b = true
    · have hnone : l = [] := by
        by_contra hne
        obtain ⟨x, hx⟩ := List.exists_mem_of_ne_nil l hne
        have hle :=
          htop b List.mem_cons_self hlate.1 x (List.mem_cons_of_mem _ hx)
        exact absurd (hshorter x hx) (Nat.not_lt.mpr hle)
      subst hnone
      rw [withoutLate_of_late [] hlate, List.mem_singleton, List.mem_singleton]
      refine (or_iff_left ?_).symm
      rintro ⟨rfl, hnot⟩
      exact hnot ⟨hlate.1, hsecond.mpr hlate.2⟩
    · have htop' : ∀ p ∈ l, p.toList <+: rootName.toList →
          ∀ q ∈ l, p.length ≤ q.length :=
        fun p hp hprefix q hq => htop p (List.mem_cons_of_mem _ hp) hprefix q
          (List.mem_cons_of_mem _ hq)
      rw [withoutLate_of_not_late l hlate, List.mem_cons, ih hrest htop',
        List.mem_cons]
      refine or_congr_right ?_
      constructor
      · rintro (rfl | ⟨hp, hnot⟩)
        · exact ⟨.inl rfl, fun h => hlate ⟨h.1, hsecond.mp h.2⟩⟩
        · simp only [isNext_later_iff hsorted hp]
          exact ⟨.inr hp, hnot⟩
      · rintro ⟨rfl | hp, hnot⟩
        · exact .inl rfl
        · simp only [isNext_later_iff hsorted hp] at hnot
          exact .inr ⟨hp, hnot⟩

/-! ## Lineages -/

theorem lineage_eq (hname : canonical name ≠ rootName) :
    ls.lineage name = ls.withoutLate
      (name :: ls.above false name.toList.reverse) :=
  if_neg hname

/-- The lineage of a logger consists of the logger and those above it. -/
theorem mem_lineage_iff (hname : canonical name ≠ rootName) :
    p ∈ ls.lineage name ↔ p = name ∨ ls.IsAbove name p := by
  have htop : ∀ p ∈ ls.above false name.toList.reverse,
      p.toList <+: rootName.toList →
      ∀ q ∈ ls.above false name.toList.reverse, p.length ≤ q.length := by
    intro p hp hprefix q hq
    by_contra hlt
    have hbelow := (mem_way_iff.mp hp).liesBelow.of_length_lt
      (mem_way_iff.mp hq).liesBelow
      (Nat.lt_of_not_le hlt)
    exact not_liesBelow_of_prefix hprefix hbelow
  rw [lineage_eq hname, mem_withoutLate_iff pairwise_way htop, IsAbove, IsLate]
  simp only [List.mem_cons, mem_way_iff]

theorem pairwise_lineage (hname : canonical name ≠ rootName) :
    (ls.lineage name).Pairwise fun p q => q.length < p.length := by
  obtain ⟨rest, hrest, hsublist⟩ :=
    ls.withoutLate_cons name (ls.above false name.toList.reverse)
  rw [lineage_eq hname, hrest]
  exact pairwise_way.sublist (hsublist.cons_cons name)

/-! ## The level that counts -/

/-- The level of a logger, which may be the root. -/
def levelOf (ls : Loggers) (name : String) : ℤ :=
  if canonical name = rootName then ls.rootLevel else ls.ownLevel name

/-- The level that a logger gets from the nearest one that has one: itself, one
above it, or the root. -/
inductive Inherits (ls : Loggers) (level : String → ℤ)
    (name : String) : ℤ → Prop
  | own (h : level name ≠ 0) : Inherits ls level name (level name)
  | above {p : String} (hname : level name = 0) (hp : ls.IsAbove name p)
      (h : level p ≠ 0)
      (nearest : ∀ q, ls.IsAbove name q → p.length < q.length → level q = 0) :
      Inherits ls level name (level p)
  | root (hname : level name = 0) (h : ∀ p, ls.IsAbove name p → level p = 0) :
      Inherits ls level name (level rootName)

/-- A logger gets one level only. -/
theorem Inherits.unique {level : String → ℤ} {v w : ℤ}
    (hv : ls.Inherits level name v)
    (hw : ls.Inherits level name w) : v = w := by
  cases hv with
  | own h =>
    cases hw with
    | own => rfl
    | above hname => exact absurd hname h
    | root hname => exact absurd hname h
  | @above p hname hp h nearest =>
    cases hw with
    | own h' => exact absurd hname h'
    | @above q _ hq h' nearest' =>
      rcases Nat.lt_trichotomy p.length q.length with hlt | heq | hlt
      · exact absurd (nearest q hq hlt) h'
      · rw [hp.1.liesBelow.eq_of_length_eq hq.1.liesBelow heq]
      · exact absurd (nearest' p hp hlt) h
    | root _ hnone => exact absurd (hnone p hp) h
  | root hname hnone =>
    cases hw with
    | own h' => exact absurd hname h'
    | @above q _ hq h' => exact absurd (hnone q hq) h'
    | root => rfl

theorem not_liesBelow_of_root (h : canonical name = rootName) :
    ¬LiesBelow name p := by
  refine not_liesBelow_of_prefix ?_
  unfold canonical at h
  split at h
  next hempty =>
    rw [hempty]
    exact List.nil_prefix
  next => rw [h]

section Reachable

variable (hroot : ls.knows rootName = false)

include hroot

theorem levelOf_of_isAbove (hp : ls.IsAbove name p) :
    ls.levelOf p = ls.ownLevel p := by
  refine if_neg ?_
  rw [canonical, if_neg hp.1.nonempty]
  rintro rfl
  rw [hp.1.known] at hroot
  cases hroot

theorem levelOf_of_mem_lineage (hname : canonical name ≠ rootName)
    (hp : p ∈ ls.lineage name) :
    ls.levelOf p = ls.ownLevel p := by
  rcases (mem_lineage_iff hname).mp hp with rfl | hp
  · exact if_neg hname
  · exact levelOf_of_isAbove hroot hp

/-- The level that counts for a logger is the one that it gets. -/
theorem inherits_effectiveLevel (name : String) :
    ls.Inherits ls.levelOf name (ls.effectiveLevel name) := by
  have hrootLevel : ls.levelOf rootName = ls.rootLevel := if_pos rfl
  by_cases hname : canonical name = rootName
  · have hlevel : ls.levelOf name = ls.rootLevel := if_pos hname
    have heffective : ls.effectiveLevel name = ls.rootLevel := by
      rw [effectiveLevel, lineage, if_pos hname]
      rfl
    rw [heffective]
    by_cases hzero : ls.levelOf name = 0
    · rw [← hrootLevel]
      exact .root hzero fun p hp =>
        absurd hp.1.liesBelow (not_liesBelow_of_root hname)
    · rw [← hlevel]
      exact .own hzero
  · have hlevel := fun p => levelOf_of_mem_lineage (p := p) hroot hname
    have hself : name ∈ ls.lineage name :=
      (mem_lineage_iff hname).mpr (.inl rfl)
    rw [effectiveLevel, List.find?_map]
    cases hfind : (ls.lineage name).find? ((· != 0) ∘ ls.ownLevel) with
    | none =>
      have hnone : ∀ p ∈ ls.lineage name, ls.levelOf p = 0 := by
        intro p hp
        rw [hlevel p hp]
        simpa using List.find?_eq_none.mp hfind p hp
      rw [Option.map_none, Option.getD_none, ← hrootLevel]
      exact .root (hnone name hself) fun p hp =>
        hnone p ((mem_lineage_iff hname).mpr (.inr hp))
    | some p =>
      obtain ⟨hp, nearer, further, hsplit, hnearer⟩ :=
        List.find?_eq_some_iff_append.mp hfind
      have hmem : p ∈ ls.lineage name := List.mem_of_find?_eq_some hfind
      have hconfigured : ls.levelOf p ≠ 0 := by
        rw [hlevel p hmem]
        simpa using hp
      have hzero : ∀ q ∈ ls.lineage name, p.length < q.length →
          ls.levelOf q = 0 := by
        intro q hq hlength
        have hsorted : (ls.lineage name).Pairwise fun p q =>
            q.length < p.length :=
          pairwise_lineage hname
        rw [hlevel q hq]
        rw [hsplit] at hq hsorted
        rcases List.mem_append.mp hq with hq | hq
        · simpa using hnearer q hq
        rcases List.mem_cons.mp hq with rfl | hq
        · exact absurd hlength (Nat.lt_irrefl _)
        · have hshorter :=
            (List.pairwise_cons.mp (List.pairwise_append.mp hsorted).2.1).1 q hq
          exact absurd hlength (Nat.lt_asymm hshorter)
      rw [Option.map_some, Option.getD_some, ← hlevel p hmem]
      rcases (mem_lineage_iff hname).mp hmem with rfl | habove
      · exact .own hconfigured
      · exact .above (hzero name hself habove.1.liesBelow.length_lt)
          habove hconfigured
          fun q hq => hzero q ((mem_lineage_iff hname).mpr (.inr hq))

theorem inherits_iff {v : ℤ} :
    ls.Inherits ls.levelOf name v ↔ ls.effectiveLevel name = v := by
  constructor
  · intro h
    exact (inherits_effectiveLevel hroot name).unique h
  · rintro rfl
    exact inherits_effectiveLevel hroot name

end Reachable

end QueryJournal.Loggers

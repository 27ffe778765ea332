import Mathlib.Data.List.Pairwise
import Mathlib.Data.Quot
import QueryJournal.Tracker.Registry

/-!
# The history of a registry

A registry is what the calls on it have made of it.  In it are the trackers of
those effective registrations that no later call has taken back, in the order
of the registrations, and no two of them are equal.

Registration and membership go by equality, but removal goes by identity.  So a
removal leaves all trackers in place that are merely equal to the one that is
removed, and as long as one of them is registered, that one still counts as a
member.
-/

namespace QueryJournal

/-! ## Equality of trackers -/

namespace Value

theorem sameMoment_comm (t u : Moment) : sameMoment t u = sameMoment u t := by
  rw [sameMoment, sameMoment, Bool.beq_comm, Bool.beq_comm (a := t.toMicros)]

mutual

theorem sameKey_comm (v w : Value) : sameKey v w = sameKey w v := by
  fun_cases sameKey v w with
  | case1 => rw [sameKey]
  | case2 | case3 | case4 | case6 | case7 =>
    rw [sameKey]
    exact Bool.beq_comm
  | case5 t u =>
    rw [sameKey]
    exact sameMoment_comm t u
  | case8 xs ys =>
    rw [sameKey]
    exact sameKeys_comm xs ys
  -- Left are values that are compared as numbers, whichever comes first.
  | case9 =>
    rename_i m n hm hn _ _ _ _ _ _ _ _
    rw [sameKey, hm, hn]
    · exact Bool.beq_comm
    all_goals grind
  | case10 =>
    rename_i hnumbers
    rw [sameKey]
    · split
      next m n hm hn => exact (hnumbers n m hn hm).elim
      next => rfl
    all_goals grind

theorem sameKeys_comm (xs ys : List Value) :
    sameKeys xs ys = sameKeys ys xs := by
  cases xs with
  | nil => cases ys <;> simp [sameKeys]
  | cons x xs =>
    cases ys with
    | nil => simp [sameKeys]
    | cons y ys =>
      rw [sameKeys, sameKeys, sameKey_comm x y, sameKeys_comm xs ys]

end

end Value

namespace Tracker

theorem sharesKey_comm (t u : Tracker) : t.sharesKey u = u.sharesKey t := by
  unfold sharesKey
  cases t.key with
  | none => cases u.key <;> rfl
  | some k =>
    cases u.key with
    | none => rfl
    | some l => exact k.sameKey_comm l

theorem equals_comm (t u : Tracker) : t.equals u = u.equals t := by
  rw [equals, equals, sharesKey_comm, isSame, isSame, Bool.beq_comm]

theorem equals_of_isSame {t u : Tracker} (h : t.isSame u = true) :
    t.equals u = true := by
  rw [equals, h, Bool.true_or]

/-- Keys can make trackers equal in every way: each equivalence relation of
names is the equality of trackers with some keys. -/
theorem exists_key_of_setoid (R : Setoid String) :
    ∃ key : String → Value, ∀ name other role another,
      (Tracker.mk name (some (key name)) role).equals
          (Tracker.mk other (some (key other)) another) = true ↔
            R.r name other := by
  refine ⟨fun name => .text (Quotient.mk R name).out, ?_⟩
  intro name other role another
  have hkeys : (Quotient.mk R name).out = (Quotient.mk R other).out ↔
      R.r name other := by
    rw [Quotient.out_inj]
    exact Quotient.eq
  rw [equals, Bool.or_eq_true]
  simp only [isSame, sharesKey, Value.sameKey, beq_iff_eq, hkeys,
    or_iff_right_iff_imp]
  rintro rfl
  exact R.refl name

end Tracker

/-! ## Calls -/

namespace Registry

/-- A call of a registry. -/
inductive Call where
  /-- A tracker is registered. -/
  | register (t : Tracker)
  /-- A tracker is removed. -/
  | unregister (t : Tracker)
  /-- It is asked whether a tracker is registered. -/
  | contains (t : Tracker)

/-- Whether a call takes a registration of a tracker back. -/
def Call.removes (t : Tracker) : Call → Bool
  | .unregister u => u.isSame t
  | _ => false

/-- What a call makes of a registry. -/
def after (r : Registry) : Call → Registry
  | .register t => r.register t
  | .unregister t => (r.unregister t).1
  | .contains _ => r

/-- What some calls make of a registry. -/
def run (r : Registry) (calls : List Call) : Registry :=
  calls.foldl after r

/-- The tracker that a call registers, if the registration is effective. -/
def registered (r : Registry) : Call → List Tracker
  | .register t => if r.holds t then [] else [t]
  | .unregister _ | .contains _ => []

/-- Whether none of some calls takes a registration of a tracker back. -/
def staysAfter (calls : List Call) (t : Tracker) : Bool :=
  calls.all fun c => !c.removes t

/-- The trackers of the effective registrations among some calls that no later
one of the calls takes back, in the order of the registrations. -/
def standing (r : Registry) : List Call → List Tracker
  | [] => []
  | c :: calls =>
    (r.registered c).filter (staysAfter calls) ++ (r.after c).standing calls

theorem holds_eq_true_iff {r : Registry} {t : Tracker} :
    r.holds t = true ↔ ∃ u ∈ r, t.equals u = true :=
  List.any_eq_true

theorem equals_eq_false_of_not_holds
    {r : Registry} {t : Tracker} (h : ¬r.holds t = true) :
    ∀ u ∈ r, t.equals u = false := by
  intro u hu
  apply Bool.of_not_eq_true
  intro hequal
  exact h (holds_eq_true_iff.mpr ⟨u, hu, hequal⟩)

theorem register_eq (r : Registry) (t : Tracker) :
    r.register t = r ++ r.registered (.register t) := by
  rw [register, registered]
  split
  · rw [List.append_nil]
  · rfl

/-- Where no equal tracker is registered, there is none to remove. -/
theorem unregister_eq (r : Registry) (t : Tracker) :
    r.unregister t = (r.filter fun u => !t.isSame u, r.holds t) := by
  unfold unregister
  split
  next h => rw [h]
  next h =>
    have hall : ∀ u ∈ r, (!t.isSame u) = true := by
      intro u hu
      rw [Bool.not_eq_true']
      apply Bool.of_not_eq_true
      intro hsame
      exact h (holds_eq_true_iff.mpr ⟨u, hu, Tracker.equals_of_isSame hsame⟩)
    rw [List.filter_eq_self.mpr hall, Bool.of_not_eq_true h]

/-- A call removes some trackers and then adds at most one at the end. -/
theorem after_eq (r : Registry) (c : Call) :
    r.after c = r.filter (fun t => !c.removes t) ++ r.registered c := by
  have hall : r.filter (fun _ => !false) = r :=
    List.filter_eq_self.mpr fun _ _ => rfl
  cases c with
  | register t =>
    rw [after, register_eq]
    exact congrArg (· ++ r.registered (.register t)) hall.symm
  | unregister t =>
    rw [after, unregister_eq, registered, List.append_nil]
    rfl
  | contains t =>
    rw [after, registered, List.append_nil]
    exact hall.symm

theorem run_eq (r : Registry) (calls : List Call) :
    r.run calls = r.filter (staysAfter calls) ++ r.standing calls := by
  induction calls generalizing r with
  | nil =>
    rw [standing, List.append_nil]
    exact (List.filter_eq_self.mpr fun _ _ => rfl).symm
  | cons c calls ih =>
    have hfirst : (r.filter fun t => !c.removes t).filter (staysAfter calls) =
        r.filter (staysAfter (c :: calls)) := by
      rw [List.filter_filter]
      apply List.filter_congr
      intro t _
      rw [staysAfter, staysAfter, List.all_cons, Bool.and_comm]
    change (r.after c).run calls = _
    rw [ih, after_eq, List.filter_append, hfirst, standing, after_eq,
      List.append_assoc]

/-! ## Registered trackers -/

/-- No two registered trackers are equal. -/
def IsDistinct (r : Registry) : Prop :=
  r.Pairwise fun t u => t.equals u = false

theorem IsDistinct.register {r : Registry} (h : r.IsDistinct) (t : Tracker) :
    (r.register t).IsDistinct := by
  unfold Registry.register
  split
  · exact h
  · next hnew =>
    refine List.pairwise_append.mpr ⟨h, List.pairwise_singleton _ t, ?_⟩
    intro u hu v hv
    rw [List.mem_singleton.mp hv, Tracker.equals_comm]
    exact equals_eq_false_of_not_holds hnew u hu

theorem IsDistinct.after {r : Registry} (h : r.IsDistinct) (c : Call) :
    (r.after c).IsDistinct := by
  cases c with
  | register t => exact h.register t
  | unregister t =>
    rw [Registry.after, unregister_eq]
    exact List.Pairwise.filter _ h
  | contains t => exact h

theorem IsDistinct.run {r : Registry} (h : r.IsDistinct) (calls : List Call) :
    (r.run calls).IsDistinct := by
  induction calls generalizing r with
  | nil => exact h
  | cons c calls ih => exact ih (h.after c)

theorem isDistinct_run (calls : List Call) : (run [] calls).IsDistinct :=
  IsDistinct.run List.Pairwise.nil calls

theorem IsDistinct.eq_of_equals
    {r : Registry} (h : r.IsDistinct) {t u : Tracker} (ht : t ∈ r) (hu : u ∈ r)
    (hequal : t.equals u = true) : t = u := by
  have hsymm : Std.Symm fun t u : Tracker => t.equals u = false := by
    constructor
    intro v w hvw
    rw [w.equals_comm v, hvw]
  by_contra hne
  rw [List.Pairwise.forall h ht hu hne] at hequal
  cases hequal

/-- A removed tracker is still a member if and only if another one that is equal
to it is registered. -/
theorem holds_unregister_iff (r : Registry) (t : Tracker) :
    (r.unregister t).1.holds t = true ↔
      ∃ u ∈ r, t.equals u = true ∧ t.isSame u = false := by
  rw [unregister_eq, holds_eq_true_iff]
  constructor
  · rintro ⟨u, hu, hequal⟩
    obtain ⟨hmem, hother⟩ := List.mem_filter.mp hu
    rw [Bool.not_eq_true'] at hother
    exact ⟨u, hmem, hequal, hother⟩
  · rintro ⟨u, hu, hequal, hother⟩
    refine ⟨u, List.mem_filter.mpr ⟨hu, ?_⟩, hequal⟩
    rw [hother]
    rfl

/-- Removing a tracker leaves those in place that are not equal to it. -/
theorem filter_unregister (r : Registry) (t : Tracker) :
    (r.unregister t).1.filter (fun u => !t.equals u) = r.filter fun u =>
      !t.equals u := by
  rw [unregister_eq, List.filter_filter]
  apply List.filter_congr
  intro u _
  cases hsame : t.isSame u with
  | true => rw [Tracker.equals_of_isSame hsame, Bool.not_true, Bool.false_and]
  | false => rw [Bool.not_false, Bool.and_true]

/-- Where a registered tracker is removed, no equal one is left. -/
theorem IsDistinct.unregister_of_mem
    {r : Registry} (h : r.IsDistinct) {t : Tracker} (ht : t ∈ r) :
    (r.unregister t).1 = r.filter fun u => !t.equals u := by
  rw [← filter_unregister, eq_comm, List.filter_eq_self]
  intro u hu
  rw [unregister_eq] at hu
  obtain ⟨hmem, hother⟩ := List.mem_filter.mp hu
  rw [Bool.not_eq_true']
  apply Bool.of_not_eq_true
  intro hequal
  rw [← h.eq_of_equals ht hmem hequal, Tracker.isSame,
    beq_self_eq_true] at hother
  cases hother

/-- Whatever equality of trackers is: a registry is a set, in the order of the
effective registrations.  A removal tells whether an equal tracker was
registered, and takes the tracker out if and only if no other one is registered
that is equal to it. -/
theorem registered_trackers_form_a_set (calls : List Call) :
    let r := run [] calls
    r.IsDistinct ∧
    r = standing [] calls ∧
    (∀ t, run [] (calls ++ [.contains t]) = r) ∧
    (∀ t, ((∃ u ∈ r, t.equals u = true) → run [] (calls ++ [.register t]) = r) ∧
      ((∀ u ∈ r, t.equals u = false) →
        run [] (calls ++ [.register t]) = r ++ [t])) ∧
    (∀ t, ((r.unregister t).2 = true ↔ ∃ u ∈ r, t.equals u = true) ∧
      run [] (calls ++ [.unregister t]) = (r.filter fun u => !t.isSame u)) ∧
    (∀ t, (r.unregister t).1.filter (fun u => !t.equals u) = r.filter fun u =>
      !t.equals u) ∧
    (∀ t, (r.unregister t).1.holds t = false ↔
      ∀ u ∈ r, t.equals u = true → t.isSame u = true) ∧
    (∀ t ∈ r, (r.unregister t).1.holds t = false) ∧
    ∀ R : Setoid String, ∃ key : String → Value, ∀ name other role another,
      (Tracker.mk name (some (key name)) role).equals
          (Tracker.mk other (some (key other)) another) = true ↔
            R.r name other := by
  intro r
  have hdistinct : r.IsDistinct := isDistinct_run calls
  have hafter : ∀ c, run [] (calls ++ [c]) = r.after c := by
    intro c
    exact List.foldl_append
  have hremoved : ∀ t, (r.unregister t).1.holds t = false ↔
      ∀ u ∈ r, t.equals u = true → t.isSame u = true := by
    intro t
    rw [← Bool.not_eq_true, holds_unregister_iff]
    simp
  refine ⟨hdistinct, ?_, ?_, ?_, ?_, filter_unregister r, hremoved, ?_,
    Tracker.exists_key_of_setoid⟩
  · exact run_eq [] calls
  · intro t
    exact hafter (.contains t)
  · intro t
    rw [hafter, after, register]
    constructor
    · intro hequal
      rw [if_pos (holds_eq_true_iff.mpr hequal)]
    · intro hother
      rw [if_neg]
      rw [holds_eq_true_iff]
      rintro ⟨u, hu, hequal⟩
      rw [hother u hu] at hequal
      cases hequal
  · intro t
    rw [hafter, after, unregister_eq]
    exact ⟨holds_eq_true_iff, rfl⟩
  · intro t ht
    rw [← Bool.not_eq_true, hdistinct.unregister_of_mem ht, holds_eq_true_iff]
    rintro ⟨u, hu, hequal⟩
    have hother := (List.mem_filter.mp hu).2
    rw [hequal] at hother
    cases hother

/-- A tracker that is merely equal to a registered one is not taken out of the
registry, though its removal is said to have been one. -/
theorem equal_tracker_stays_registered :
    let a : Tracker :=
      ⟨"a", some (.text "k"), .scripted ⟨fun _ => [], fun _ => none⟩⟩
    let b : Tracker :=
      ⟨"b", some (.text "k"), .scripted ⟨fun _ => [], fun _ => none⟩⟩
    let r := run [] [.register a]
    (r.unregister b).2 = true ∧ (r.unregister b).1.holds b = true := by
  decide

end Registry

end QueryJournal

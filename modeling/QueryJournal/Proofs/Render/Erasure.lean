import QueryJournal.Proofs.Render.Composition

/-!
# Leaving out queries of the driver's own

The members of a batch may be queries of the driver's own, at any depth.  This
module deletes them before anything is written.  The main result is that the
budget cannot tell: whatever it holds and however much of it remains, the whole
statement and the one without such members leave the same budget behind.
-/

namespace QueryJournal

namespace Statement

mutual

/-- The statement without queries of the driver's own among the members of its
batches, at every depth. -/
def erase : Statement → Statement
  | .batch type members => .batch type (eraseMembers members)
  | s => s

/-- The members of a batch without queries of the driver's own, at every
depth. -/
def eraseMembers : List Statement → List Statement
  | [] => []
  | .internal :: members => eraseMembers members
  | member :: members => erase member :: eraseMembers members

end

mutual

/-- Whether a query of the driver's own is a member of one of the batches. -/
def hasInternalMember : Statement → Bool
  | .batch _ members => anyInternalMember members
  | _ => false

/-- Whether a query of the driver's own is among some members or inside of
them. -/
def anyInternalMember : List Statement → Bool
  | [] => false
  | member :: members =>
    member.isInternal || hasInternalMember member || anyInternalMember members

end

theorem eraseMembers_cons_of_ne_internal
    {member : Statement} (h : member ≠ .internal) (members : List Statement) :
    eraseMembers (member :: members) =
      erase member :: eraseMembers members := by
  rw [eraseMembers]
  exact h

theorem isInternal_erase (s : Statement) :
    s.erase.isInternal = s.isInternal := by
  cases s <;> rfl

theorem isInternal_eq_true_iff (s : Statement) :
    s.isInternal = true ↔ s = .internal := by
  cases s <;> simp [isInternal]

theorem erase_ne_internal {s : Statement} (h : s ≠ .internal) :
    s.erase ≠ .internal := by
  intro herase
  apply h
  rw [← isInternal_eq_true_iff, ← isInternal_erase, herase]
  rfl

theorem writeMembers_cons_of_ne_internal
    {member : Statement} (h : member ≠ .internal) (b : Budget)
    (members : List Statement) :
    writeMembers b (member :: members) =
      writeMembers (writeTo (b.append " ") member) members := by
  rw [writeMembers]
  exact h

mutual

theorem hasInternalMember_erase :
    ∀ s : Statement, s.erase.hasInternalMember = false
  | .batch _ members => by
    rw [erase, hasInternalMember]
    exact anyInternalMember_eraseMembers members
  | .internal => rfl
  | .plain _ => rfl
  | .bound _ => rfl
  | .prepared _ => rfl
  | .foreign => rfl

theorem anyInternalMember_eraseMembers :
    ∀ members : List Statement, anyInternalMember (eraseMembers members) = false
  | [] => rfl
  | member :: members => by
    have hrest := anyInternalMember_eraseMembers members
    by_cases hinternal : member = .internal
    · subst hinternal
      rw [eraseMembers]
      exact hrest
    · have hmember : member.isInternal = false := by
        rw [Bool.eq_false_iff, Ne, isInternal_eq_true_iff]
        exact hinternal
      rw [eraseMembers_cons_of_ne_internal hinternal, anyInternalMember,
        isInternal_erase, hmember, hasInternalMember_erase member, hrest]
      rfl

end

mutual

/-- Nothing is written for a query of the driver's own that is a member of a
batch, not even the space before it. -/
theorem writeTo_erase :
    ∀ (b : Budget) (s : Statement), s.erase.writeTo b = s.writeTo b
  | b, .batch type members => by
    rw [erase, writeTo, writeTo, writeMembers_eraseMembers _ members]
  | _, .internal => rfl
  | _, .plain _ => rfl
  | _, .bound _ => rfl
  | _, .prepared _ => rfl
  | _, .foreign => rfl

theorem writeMembers_eraseMembers :
    ∀ (b : Budget) (members : List Statement),
      writeMembers b (eraseMembers members) = writeMembers b members
  | _, [] => rfl
  | b, member :: members => by
    by_cases hinternal : member = .internal
    · subst hinternal
      rw [eraseMembers, writeMembers]
      exact writeMembers_eraseMembers b members
    · rw [eraseMembers_cons_of_ne_internal hinternal,
        writeMembers_cons_of_ne_internal (erase_ne_internal hinternal),
        writeMembers_cons_of_ne_internal hinternal,
        writeTo_erase (b.append " ") member]
      exact writeMembers_eraseMembers _ members

end

theorem renderWithin_erase (limit : Int) (s : Statement) :
    s.erase.renderWithin limit = s.renderWithin limit := by
  simp only [renderWithin, writeTo_erase]

end Statement

/-! ## Steps on a budget -/

namespace Budget

/-- A step in which the statement to be added is erased. -/
def Step.erase : Step → Step
  | .render s => .render s.erase
  | step => step

theorem step_erase (b : Budget) (s : Step) : b.step s.erase = b.step s := by
  cases s with
  | render s => simp only [Step.erase, step, Statement.writeTo_erase]
  | append _ => rfl
  | endsWith _ => rfl

/-- After every step the budget is the same and gives the same answer. -/
theorem run_map_erase (b : Budget) (steps : List Step) :
    b.run (steps.map Step.erase) = b.run steps := by
  induction steps generalizing b with
  | nil => rfl
  | cons s steps ih => rw [List.map_cons, run, run, step_erase, ih]

end Budget

end QueryJournal

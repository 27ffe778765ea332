import QueryJournal.Proofs.Render.Accounting

/-!
# How deep the calls for a statement go

Every batch inside of another one takes one more call inside of the others.  But
it also takes twelve characters, and once nothing remains in the budget members
are looked at no further.  So under a limit the calls are bounded, however deep
a statement is nested, while without a limit they are as many as the levels of
batches.
-/

namespace QueryJournal

namespace Budget

variable {b : Budget} {n : Nat}

theorem remaining_append_of_some (h : b.remaining = some n) (chunk : String) :
    (b.append chunk).remaining = some (n - chunk.length) := by
  have hcases := appends_append b chunk
  generalize b.append chunk = c at hcases ⊢
  cases hcases with
  | ignored hnothing =>
    rcases hnothing with rfl | hzero
    · rw [h, String.length_empty, Nat.sub_zero]
    · cases h.symm.trans hzero
      rw [hzero, Nat.zero_sub]
  | kept _ hnone => cases h.symm.trans hnone
  | counted _ hsome _ =>
    cases h.symm.trans hsome
    rfl
  | cut _ hsome hlong =>
    cases h.symm.trans hsome
    rw [Nat.sub_eq_zero_of_le (Nat.le_of_lt hlong)]

theorem exists_remaining_appendAll (h : b.remaining = some n)
    (chunks : List String) :
    ∃ m ≤ n, (b.appendAll chunks).remaining = some m := by
  induction chunks generalizing b n with
  | nil => exact ⟨n, Nat.le_refl n, h⟩
  | cons chunk chunks ih =>
    obtain ⟨m, hm, hlast⟩ := ih (remaining_append_of_some h chunk)
    exact ⟨m, Nat.le_trans hm (Nat.sub_le _ _), hlast⟩

/-- What remains after the words that open a batch and the space before a
member. -/
theorem exists_remaining_opened (h : b.remaining = some n) (type : BatchType) :
    ∃ m ≤ n - 11,
      (((b.append "BEGIN").append type.qualifier).append
        " BATCH").remaining = some m := by
  refine ⟨_, ?_, remaining_append_of_some
    (remaining_append_of_some (remaining_append_of_some h _) _) _⟩
  rw [show "BEGIN".length = 5 from rfl, show " BATCH".length = 6 from rfl]
  omega

end Budget

namespace Statement

/-- The most calls inside of one another while a number of characters
remains. -/
def levelBound (n : Nat) : Nat :=
  if n = 0 then 1 else n / 12 + 2

theorem levelBound_mono {m n : Nat} (h : m ≤ n) :
    levelBound m ≤ levelBound n := by
  unfold levelBound
  split
  · split <;> omega
  · rw [if_neg (by omega)]
    omega

theorem one_le_levelBound (n : Nat) : 1 ≤ levelBound n := by
  unfold levelBound
  split <;> omega

mutual

/-- A limit bounds the calls, whatever the statement. -/
theorem levels_le {b : Budget} {n : Nat} (h : b.remaining = some n) :
    (s : Statement) → levels b s ≤ levelBound n
  | .batch type members => by
    by_cases hn : n = 0
    · have hexhausted : b.isExhausted = true := b.isExhausted_iff.mpr (hn ▸ h)
      rw [levels, if_pos hexhausted]
      exact one_le_levelBound n
    · have hopen : ¬b.isExhausted = true := by
        rw [Budget.isExhausted_iff, h]
        simpa using hn
      obtain ⟨m, hm, hopened⟩ := Budget.exists_remaining_opened h type
      have hmembers := memberLevels_le hopened members
      have hspaced : levelBound (m - 1) ≤ levelBound (n - 12) :=
        levelBound_mono (by omega)
      have hroom : levelBound (n - 12) + 1 ≤ levelBound n := by
        unfold levelBound
        rw [if_neg hn]
        split <;> omega
      rw [levels, if_neg hopen]
      omega
  | .plain _ => by
    rw [levels]
    · exact one_le_levelBound n
    · simp
  | .bound _ => by
    rw [levels]
    · exact one_le_levelBound n
    · simp
  | .prepared _ => by
    rw [levels]
    · exact one_le_levelBound n
    · simp
  | .internal => by
    rw [levels]
    · exact one_le_levelBound n
    · simp
  | .foreign => by
    rw [levels]
    · exact one_le_levelBound n
    · simp

theorem memberLevels_le {b : Budget} {m : Nat} (h : b.remaining = some m) :
    (members : List Statement) → memberLevels b members ≤ levelBound (m - 1)
  | [] => Nat.zero_le _
  | member :: members => by
    have hspaced : (b.append " ").remaining = some (m - 1) :=
      Budget.remaining_append_of_some h " "
    have hfirst := levels_le hspaced member
    obtain ⟨k, hk, hwritten⟩ : ∃ k ≤ m - 1,
        (writeTo (b.append " ") member).remaining = some k := by
      rw [writeTo_eq_appendAll]
      exact Budget.exists_remaining_appendAll hspaced _
    have hrest := Nat.le_trans (memberLevels_le hwritten members)
      (levelBound_mono (show k - 1 ≤ m - 1 by omega))
    cases member with
    | internal =>
      rw [memberLevels]
      exact memberLevels_le h members
    | _ =>
      rw [memberLevels]
      · exact Nat.max_le.mpr ⟨hfirst, hrest⟩
      · simp

end

/-- Batches inside of batches. -/
def nested : Nat → Statement
  | 0 => .batch .logged []
  | depth + 1 => .batch .logged [nested depth]

end Statement

end QueryJournal

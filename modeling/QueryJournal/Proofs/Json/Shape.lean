import QueryJournal.Value.Item

/-!
# The shape of values

A value is a tree of lists, rows and mappings.  What holds of its leaves is
decided by a test that is carried through the tree, and its depth bounds what
such a test meets.
-/

namespace QueryJournal.Value

/-- Lists, rows and mappings have items. -/
def hasItems : Value → Bool
  | .list _ | .tuple _ | .mapping _ => true
  | _ => false

/-- Whether a value is a floating-point number. -/
def isFloat : Value → Bool
  | .float _ => true
  | _ => false

mutual

/-- Whether all values without items inside of a value pass a test.  Keys are
not looked at. -/
def allLeaves (test : Value → Bool) : Value → Bool
  | .list xs | .tuple xs => allLeavesOf test xs
  | .mapping entries => allLeavesIn test entries
  | v => test v

/-- Whether all values without items inside of some values pass a test. -/
def allLeavesOf (test : Value → Bool) : List Value → Bool
  | [] => true
  | x :: xs => allLeaves test x && allLeavesOf test xs

/-- Whether all values without items under some keys pass a test. -/
def allLeavesIn (test : Value → Bool) : List (Value × Value) → Bool
  | [] => true
  | (_, v) :: entries => allLeaves test v && allLeavesIn test entries

end

/-- What holds of a value if it holds of its items holds of every value.  Keys
are not looked at, and rows are like lists. -/
theorem induction_on_items
    {P : Value → Prop} (leaf : ∀ v, v.hasItems = false → P v)
    (list : ∀ xs, (∀ x ∈ xs, P x) → P (.list xs))
    (tuple : ∀ xs, P (.list xs) → P (.tuple xs))
    (mapping : ∀ entries, (∀ e ∈ entries, P e.2) → P (.mapping entries))
    (v : Value) : P v := by
  cases v with
  | list xs =>
    exact list xs fun x _ => induction_on_items leaf list tuple mapping x
  | tuple xs =>
    exact tuple xs (list xs fun x _ =>
      induction_on_items leaf list tuple mapping x)
  | mapping entries =>
    exact mapping entries fun e _ =>
      induction_on_items leaf list tuple mapping e.2
  | _ => exact leaf _ rfl
termination_by v
decreasing_by
  · have hx := List.sizeOf_lt_of_mem ‹x ∈ xs›
    simp only [Value.list.sizeOf_spec]
    omega
  · have hx := List.sizeOf_lt_of_mem ‹x ∈ xs›
    simp only [Value.tuple.sizeOf_spec]
    omega
  · have he := List.sizeOf_lt_of_mem ‹e ∈ entries›
    obtain ⟨key, item⟩ := e
    simp only [Prod.mk.sizeOf_spec, Value.mapping.sizeOf_spec] at he ⊢
    omega

section Leaves

variable {v : Value} (h : v.hasItems = false)

include h

theorem allLeaves_of_not_hasItems (test : Value → Bool) :
    v.allLeaves test = test v := by
  cases v with
  | list xs => cases h
  | tuple xs => cases h
  | mapping entries => cases h
  | _ => rfl

end Leaves

section Items

variable {test : Value → Bool} {xs : List Value}
  {entries : List (Value × Value)}

theorem allLeavesOf_iff :
    allLeavesOf test xs = true ↔ ∀ x ∈ xs, x.allLeaves test = true := by
  induction xs with
  | nil => simp [allLeavesOf]
  | cons x xs ih => rw [allLeavesOf, Bool.and_eq_true, ih, List.forall_mem_cons]

theorem allLeavesIn_iff :
    allLeavesIn test entries = true ↔
      ∀ e ∈ entries, e.2.allLeaves test = true := by
  induction entries with
  | nil => simp [allLeavesIn]
  | cons e entries ih =>
    rw [allLeavesIn, Bool.and_eq_true, ih, List.forall_mem_cons]

theorem depthOf_le_iff {n : Nat} : depthOf xs ≤ n ↔ ∀ x ∈ xs, x.depth ≤ n := by
  induction xs with
  | nil => simp [depthOf]
  | cons x xs ih => rw [depthOf, Nat.max_le, ih, List.forall_mem_cons]

theorem depthIn_le_iff {n : Nat} :
    depthIn entries ≤ n ↔ ∀ e ∈ entries, e.2.depth ≤ n := by
  induction entries with
  | nil => simp [depthIn]
  | cons e entries ih => rw [depthIn, Nat.max_le, ih, List.forall_mem_cons]

theorem depth_list_le_iff {n : Nat} :
    (Value.list xs).depth ≤ n + 1 ↔ ∀ x ∈ xs, x.depth ≤ n := by
  rw [depth, Nat.add_le_add_iff_right, depthOf_le_iff]

theorem depth_mapping_le_iff {n : Nat} :
    (Value.mapping entries).depth ≤ n + 1 ↔ ∀ e ∈ entries, e.2.depth ≤ n := by
  rw [depth, Nat.add_le_add_iff_right, depthIn_le_iff]

end Items

end QueryJournal.Value

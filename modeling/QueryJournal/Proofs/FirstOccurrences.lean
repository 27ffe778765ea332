import Mathlib.Data.List.Induction

/-!
# First occurrences

Lists without repetitions that keep the first occurrence of everything, in the
order of these.  They come about when items are added one after the other,
unless one of the same name is there already.
-/

namespace QueryJournal

section Occurrences

variable {α : Type} [BEq α] [LawfulBEq α]

theorem eraseDups_concat (l : List α) (a : α) :
    (l ++ [a]).eraseDups =
      if a ∈ l then l.eraseDups else l.eraseDups ++ [a] := by
  rw [List.eraseDups_append]
  by_cases h : a ∈ l
  · simp [List.removeAll, h]
  · simp [List.removeAll, h, List.eraseDups_cons]

theorem nodup_eraseDups (l : List α) : l.eraseDups.Nodup := by
  induction l using List.reverseRecOn with
  | nil => exact List.nodup_nil
  | append_singleton l a ih =>
    rw [eraseDups_concat]
    split
    · exact ih
    · next h =>
      have hnew : a ∉ l.eraseDups := mt List.mem_eraseDups.mp h
      refine List.nodup_append.mpr ⟨ih, List.pairwise_singleton _ a, ?_⟩
      intro b hb c hc hbc
      rw [← List.mem_singleton.mp hc, ← hbc] at hnew
      exact hnew hb

theorem eraseDups_eq_self {l : List α} (h : l.Nodup) : l.eraseDups = l := by
  induction l using List.reverseRecOn with
  | nil => rfl
  | append_singleton l a ih =>
    obtain ⟨hl, -, hne⟩ := List.nodup_append.mp h
    have ha : a ∉ l := fun ha => hne a ha a (List.mem_singleton_self a) rfl
    rw [eraseDups_concat, if_neg ha, ih hl]

/-- Adds an item, unless one of the same name is there already. -/
def addNew {β : Type} (name : β → α) (kept : List β) (b : β) : List β :=
  if kept.any (name · == name b) then kept else kept ++ [b]

variable {β : Type} (name : β → α)

/-- Of the names of items that are added in turn the first occurrences are
kept. -/
theorem map_foldl_addNew (l : List β) :
    (l.foldl (addNew name) []).map name = (l.map name).eraseDups := by
  induction l using List.reverseRecOn with
  | nil => rfl
  | append_singleton l b ih =>
    have hkept : (l.foldl (addNew name) []).any (name · == name b) = true ↔
        name b ∈ l.map name := by
      rw [← List.mem_eraseDups, ← ih, List.any_eq_true, List.mem_map]
      simp only [beq_iff_eq]
    rw [List.foldl_append, List.map_append, List.map_singleton,
      eraseDups_concat, ← ih, List.foldl_cons, List.foldl_nil, addNew]
    simp only [hkept]
    split
    · rfl
    · rw [List.map_append, List.map_singleton]

omit [LawfulBEq α] in
theorem foldl_addNew_sublist (l : List β) :
    (l.foldl (addNew name) []).Sublist l := by
  induction l using List.reverseRecOn with
  | nil => exact .slnil
  | append_singleton l b ih =>
    rw [List.foldl_append, List.foldl_cons, List.foldl_nil, addNew]
    split
    · exact ih.trans (List.sublist_append_left l [b])
    · exact ih.append_right [b]

end Occurrences

end QueryJournal

import QueryJournal.Proofs.FirstOccurrences
import QueryJournal.Proofs.Json.Laws
import QueryJournal.Proofs.Json.Shape
import QueryJournal.Proofs.Logging.Entries

/-!
# Normal forms

What JSON keeps of a value, whichever engine writes it: rows become lists, keys
become texts, and what JSON has no form for has become text.  Of the values
under keys with one and the same text the last is kept, in the place of the
first.  Nothing is lost of a normal form.
-/

namespace QueryJournal

/-- Storing a value under a text among texts that are all different. -/
theorem Value.insertEntry_text
    {keys : List String} (hkeys : keys.Nodup) (f : String → Value)
    (key : String) (v : Value) :
    insertEntry (.text key) v (keys.map fun k => (.text k, f k)) =
      (if key ∈ keys then keys else keys ++ [key]).map fun k =>
        (.text k, if k = key then v else f k) := by
  have hother : ∀ ks : List String, key ∉ ks →
      (∀ e ∈ ks.map fun k => (Value.text k, f k),
        sameKey e.1 (.text key) = false) ∧
        (ks.map fun k => (Value.text k, if k = key then v else f k)) =
          ks.map fun k => (.text k, f k) := by
    intro ks hks
    have hne : ∀ k ∈ ks, k ≠ key := fun k hk hkey => hks (hkey ▸ hk)
    constructor
    · intro e he
      obtain ⟨k, hk, rfl⟩ := List.mem_map.mp he
      simp [sameKey, hne k hk]
    · apply List.map_congr_left
      intro k hk
      rw [if_neg (hne k hk)]
  by_cases h : key ∈ keys
  · obtain ⟨before, rest, rfl⟩ := List.append_of_mem h
    rw [List.nodup_append, List.nodup_cons] at hkeys
    obtain ⟨-, ⟨hrest, -⟩, hdisjoint⟩ := hkeys
    have hbefore : key ∉ before :=
      fun hmem => hdisjoint key hmem key List.mem_cons_self rfl
    rw [if_pos h, List.map_append, List.map_cons, List.map_append,
      List.map_cons, (hother before hbefore).2,
      (hother rest hrest).2, if_pos rfl]
    exact insertEntry_of_present (hother before hbefore).1 (by simp [sameKey])
  · rw [if_neg h, List.map_append, (hother keys h).2,
      List.map_singleton, if_pos rfl]
    exact insertEntry_of_absent (hother keys h).1

namespace Json

/-! ## Members with the same key -/

/-- The last value under a key. -/
def lastUnder (members : List (String × Value)) (key : String) : Value :=
  (members.reverse.lookup key).getD .null

theorem lastUnder_concat (members : List (String × Value)) (m : String × Value)
    (key : String) :
    lastUnder (members ++ [m]) key =
      if key = m.1 then m.2 else lastUnder members key := by
  rw [lastUnder, List.reverse_concat, List.lookup_cons]
  by_cases h : key = m.1
  · rw [if_pos h, beq_iff_eq.mpr h]
    rfl
  · rw [if_neg h, beq_eq_false_iff_ne.mpr h]
    rfl

theorem exists_of_mem_keys {members : List (String × Value)} {key : String}
    (h : key ∈ members.map Prod.fst) :
    ∃ m ∈ members, m.2 = lastUnder members key := by
  induction members using List.reverseRecOn with
  | nil => exact absurd h List.not_mem_nil
  | append_singleton members m ih =>
    rw [lastUnder_concat]
    by_cases hkey : key = m.1
    · rw [if_pos hkey]
      exact ⟨m, List.mem_append_right _ List.mem_cons_self, rfl⟩
    · have hbefore : key ∈ members.map Prod.fst := by
        rw [List.map_append, List.mem_append, List.map_singleton,
          List.mem_singleton] at h
        exact h.resolve_right hkey
      obtain ⟨first, hfirst, hlast⟩ := ih hbefore
      rw [if_neg hkey]
      exact ⟨first, List.mem_append_left _ hfirst, hlast⟩

theorem lastUnder_map
    {keys : List String} (f : String → Value) {key : String} (h : key ∈ keys) :
    lastUnder (keys.map fun k => (k, f k)) key = f key := by
  have hmem : key ∈ (keys.map fun k => (k, f k)).map Prod.fst := by
    simpa using h
  induction keys using List.reverseRecOn with
  | nil => exact absurd h List.not_mem_nil
  | append_singleton keys k ih =>
    rw [List.map_append, List.map_singleton, lastUnder_concat]
    by_cases hkey : key = k
    · rw [if_pos hkey, hkey]
    · have hbefore : key ∈ keys := by
        rw [List.mem_append, List.mem_singleton] at h
        exact h.resolve_right hkey
      rw [if_neg hkey, ih hbefore (by simpa using hbefore)]

/-- Each key stands in the place of its first member, with the value of its
last. -/
theorem ofMembers_eq (members : List (String × Value)) :
    ofMembers members =
      .mapping ((members.map Prod.fst).eraseDups.map fun key =>
        (.text key, lastUnder members key)) := by
  rw [ofMembers]
  congr 1
  induction members using List.reverseRecOn with
  | nil => rfl
  | append_singleton members m ih =>
    rw [List.foldl_append, ih]
    change Value.insertEntry (.text m.1) m.2 _ = _
    rw [Value.insertEntry_text (nodup_eraseDups _), List.map_append,
      List.map_singleton, eraseDups_concat]
    simp only [List.mem_eraseDups, lastUnder_concat]

/-! ## Normal forms -/

/-- The text that a value is turned into: bytes are shown in Base64, moments as
they are interchanged, errors by their literals, and all else plainly. -/
def shown (p : Platform) : Value → String
  | .text s => s
  | .bytes bs => String.ofList (Text.Base64.encode bs)
  | .moment t => t.interchangeText
  | .decimal d => d.text
  | .uuid u => u.text
  | .outcome o => o.name
  | .fault cls args paths =>
    (p.literal (.fault cls args paths)).toOption.getD ""
  | .journalError e => (p.literal (.journalError e)).toOption.getD ""
  | v => (p.plain v).toOption.getD ""

/-- The text that a key is turned into. -/
def shownKey (p : Platform) (floatKey : Binary → String) : Value → String
  | .int n => Number.text n
  | .float x => floatKey x
  | v => shown p v

mutual

/-- What JSON keeps of a value. -/
def normal (p : Platform) (floatKey : Binary → String) : Value → Value
  | .null => .null
  | .truth b => .truth b
  | .int n => .int n
  | .float x => if x.isFinite then .float x else .null
  | .list xs | .tuple xs => .list (normalAll p floatKey xs)
  | .mapping entries => ofMembers (normalEntries p floatKey entries)
  | v => .text (shown p v)

/-- What JSON keeps of some values. -/
def normalAll (p : Platform) (floatKey : Binary → String) :
    List Value → List Value
  | [] => []
  | x :: xs => normal p floatKey x :: normalAll p floatKey xs

/-- What JSON keeps of keys with their values. -/
def normalEntries (p : Platform) (floatKey : Binary → String) :
    List (Value × Value) → List (String × Value)
  | [] => []
  | (k, v) :: entries =>
    (shownKey p floatKey k, normal p floatKey v) ::
      normalEntries p floatKey entries

end

variable {p : Platform} {floatKey : Binary → String}

theorem normalAll_eq (xs : List Value) :
    normalAll p floatKey xs = xs.map (normal p floatKey) := by
  induction xs with
  | nil => rfl
  | cons x xs ih => rw [normalAll, ih, List.map_cons]

theorem normalEntries_eq (entries : List (Value × Value)) :
    normalEntries p floatKey entries =
      entries.map fun e => (shownKey p floatKey e.1,
        normal p floatKey e.2) := by
  induction entries with
  | nil => rfl
  | cons e entries ih => rw [normalEntries, ih, List.map_cons]

/-- The values in a normal form are normal forms of values, and its keys are
texts that are all different. -/
theorem exists_normal_mapping
    (p : Platform) (floatKey : Binary → String)
    (entries : List (Value × Value)) :
    ∃ (keys : List String) (f : String → Value), keys.Nodup ∧
      normal p floatKey (.mapping entries) =
        .mapping (keys.map fun k => (.text k, f k)) ∧
      ∀ k ∈ keys, ∃ e ∈ entries, f k = normal p floatKey e.2 := by
  refine ⟨((normalEntries p floatKey entries).map Prod.fst).eraseDups,
    lastUnder (normalEntries p floatKey entries), nodup_eraseDups _, ?_, ?_⟩
  · rw [normal, ofMembers_eq]
  · intro k hk
    obtain ⟨m, hm, hlast⟩ := exists_of_mem_keys (List.mem_eraseDups.mp hk)
    rw [normalEntries_eq] at hm
    obtain ⟨e, he, rfl⟩ := List.mem_map.mp hm
    exact ⟨e, he, hlast.symm⟩

/-- A value without items becomes a word, a number or a text, and that is
kept. -/
theorem normal_normal_of_not_hasItems {v : Value} (h : v.hasItems = false) :
    normal p floatKey (normal p floatKey v) = normal p floatKey v := by
  cases v with
  | float x =>
    rw [normal]
    split
    · next hx => rw [normal, if_pos hx]
    · rfl
  | list xs => cases h
  | tuple xs => cases h
  | mapping entries => cases h
  | _ => rfl

theorem normal_normal (v : Value) :
    normal p floatKey (normal p floatKey v) = normal p floatKey v := by
  induction v using Value.induction_on_items with
  | leaf v h => exact normal_normal_of_not_hasItems h
  | list xs ih =>
    rw [normal, normal, normalAll_eq, normalAll_eq, List.map_map]
    exact congrArg Value.list (List.map_congr_left ih)
  | tuple xs h => exact h
  | mapping entries ih =>
    obtain ⟨keys, f, hkeys, hnormal, hvalues⟩ :=
      exists_normal_mapping p floatKey entries
    rw [hnormal, normal, normalEntries_eq, List.map_map, ofMembers_eq]
    have hmembers : (keys.map ((fun e : Value × Value =>
        (shownKey p floatKey e.1, normal p floatKey e.2)) ∘ fun k =>
          (.text k, f k))) =
          keys.map fun k => (k, f k) := by
      apply List.map_congr_left
      intro k hk
      obtain ⟨e, he, hvalue⟩ := hvalues k hk
      rw [Function.comp_apply, hvalue, ih e he]
      rfl
    have hfirst : (keys.map fun k => (k, f k)).map Prod.fst = keys := by
      rw [List.map_map]
      exact List.map_id keys
    rw [hmembers, hfirst, eraseDups_eq_self hkeys]
    congr 1
    apply List.map_congr_left
    intro k hk
    rw [lastUnder_map f hk]

/-! ## What carries over to normal forms -/

theorem normal_leaf_cases
    (p : Platform) (floatKey : Binary → String) {v : Value}
    (hitems : v.hasItems = false) (hfloat : v.isFloat = false) :
    normal p floatKey v = v ∨ ∃ s, normal p floatKey v = .text s := by
  cases v with
  | null => exact .inl rfl
  | truth b => exact .inl rfl
  | int n => exact .inl rfl
  | float x => cases hfloat
  | list xs => cases hitems
  | tuple xs => cases hitems
  | mapping entries => cases hitems
  | _ => exact .inr ⟨_, rfl⟩

/-- A test that all texts pass is passed by the leaves of a normal form if it is
passed by those of the value. -/
theorem allLeaves_normal
    (p : Platform) (floatKey : Binary → String) {test : Value → Bool}
    (htext : ∀ s, test (.text s) = true) {v : Value}
    (hfloat : v.allLeaves (fun leaf => !leaf.isFloat) = true)
    (h : v.allLeaves test = true) :
    (normal p floatKey v).allLeaves test = true := by
  induction v using Value.induction_on_items with
  | leaf v hitems =>
    rw [Value.allLeaves_of_not_hasItems hitems, Bool.not_eq_true'] at hfloat
    rcases normal_leaf_cases p floatKey hitems hfloat with hsame | ⟨s, hs⟩
    · rw [hsame]
      exact h
    · rw [hs]
      exact htext s
  | list xs ih =>
    rw [normal, normalAll_eq]
    refine Value.allLeavesOf_iff.mpr fun y hy => ?_
    obtain ⟨x, hx, rfl⟩ := List.mem_map.mp hy
    exact ih x hx (Value.allLeavesOf_iff.mp hfloat x hx)
      (Value.allLeavesOf_iff.mp h x hx)
  | tuple xs hlist => exact hlist hfloat h
  | mapping entries ih =>
    obtain ⟨keys, f, -, hnormal, hvalues⟩ :=
      exists_normal_mapping p floatKey entries
    rw [hnormal]
    refine Value.allLeavesIn_iff.mpr fun e he => ?_
    obtain ⟨k, hk, rfl⟩ := List.mem_map.mp he
    obtain ⟨entry, hentry, hvalue⟩ := hvalues k hk
    rw [hvalue]
    exact ih entry hentry (Value.allLeavesIn_iff.mp hfloat entry hentry)
      (Value.allLeavesIn_iff.mp h entry hentry)

theorem depth_normal_leaf {v : Value} (h : v.hasItems = false) :
    (normal p floatKey v).depth = 0 := by
  cases v with
  | float x =>
    rw [normal]
    split
    · rfl
    · rfl
  | list xs => cases h
  | tuple xs => cases h
  | mapping entries => cases h
  | _ => rfl

theorem depth_normal_le (v : Value) :
    (normal p floatKey v).depth ≤ v.depth := by
  induction v using Value.induction_on_items with
  | leaf v hitems =>
    rw [depth_normal_leaf hitems]
    exact Nat.zero_le _
  | list xs ih =>
    rw [normal, normalAll_eq]
    refine Nat.succ_le_succ (Value.depthOf_le_iff.mpr fun y hy => ?_)
    obtain ⟨x, hx, rfl⟩ := List.mem_map.mp hy
    exact Nat.le_trans (ih x hx) (Value.depthOf_le_iff.mp (Nat.le_refl _) x hx)
  | tuple xs hlist => exact hlist
  | mapping entries ih =>
    obtain ⟨keys, f, -, hnormal, hvalues⟩ :=
      exists_normal_mapping p floatKey entries
    rw [hnormal]
    refine Nat.succ_le_succ (Value.depthIn_le_iff.mpr fun e he => ?_)
    obtain ⟨k, hk, rfl⟩ := List.mem_map.mp he
    obtain ⟨entry, hentry, hvalue⟩ := hvalues k hk
    rw [hvalue]
    exact Nat.le_trans (ih entry hentry)
      (Value.depthIn_le_iff.mp (Nat.le_refl _) entry hentry)

end Json

end QueryJournal

import QueryJournal.Logging.Record

/-!
# The entries of a record

The entries of a record are stored one after the other: first the fixed ones,
then what the application adds by name and as one value, then the failure.  A
key that is stored again keeps its place, and only its value changes.  So all
keys and values that are found at the end have been stored before.
-/

namespace QueryJournal

namespace Value

variable {key v : Value} {entries : List (Value × Value)}

/-- A key that is stored again keeps its place. -/
theorem insertEntry_of_present
    {k old : Value} {before rest : List (Value × Value)}
    (hbefore : ∀ e ∈ before, sameKey e.1 key = false)
    (h : sameKey k key = true) :
    insertEntry key v (before ++ (k, old) :: rest) =
      before ++ (k, v) :: rest := by
  induction before with
  | nil => rw [List.nil_append, insertEntry, if_pos h, List.nil_append]
  | cons e before ih =>
    have he : ¬sameKey e.1 key = true := by
      rw [hbefore e List.mem_cons_self]
      exact Bool.false_ne_true
    have hrest := ih fun e he => hbefore e (List.mem_cons_of_mem _ he)
    rw [List.cons_append, insertEntry, if_neg he, hrest, List.cons_append]

/-- A new key is stored at the end. -/
theorem insertEntry_of_absent (h : ∀ e ∈ entries, sameKey e.1 key = false) :
    insertEntry key v entries = entries ++ [(key, v)] := by
  induction entries with
  | nil => rfl
  | cons e entries ih =>
    have he : ¬sameKey e.1 key = true := by
      rw [h e List.mem_cons_self]
      exact Bool.false_ne_true
    rw [insertEntry, if_neg he, ih fun e he => h e (List.mem_cons_of_mem _ he),
      List.cons_append]

theorem forall_mem_insertEntry
    {P Q : Value → Prop} (h : ∀ e ∈ entries, P e.1 ∧ Q e.2)
    (hkey : P key) (hv : Q v) :
    ∀ e ∈ insertEntry key v entries, P e.1 ∧ Q e.2 := by
  induction entries with
  | nil =>
    intro e he
    rw [insertEntry, List.mem_singleton] at he
    rw [he]
    exact ⟨hkey, hv⟩
  | cons entry rest ih =>
    have hentry := h entry List.mem_cons_self
    have hrest : ∀ e ∈ rest, P e.1 ∧ Q e.2 :=
      fun e he => h e (List.mem_cons_of_mem _ he)
    intro e he
    rw [insertEntry] at he
    split at he
    · rcases List.mem_cons.mp he with rfl | he
      · exact ⟨hentry.1, hv⟩
      · exact hrest e he
    · rcases List.mem_cons.mp he with rfl | he
      · exact hentry
      · exact ih hrest e he

end Value

namespace LogRecord

theorem forall_mem_merge
    {P Q : Value → Prop} {entries more : List (Value × Value)}
    (h : ∀ e ∈ entries, P e.1 ∧ Q e.2) (hmore : ∀ e ∈ more, P e.1 ∧ Q e.2) :
    ∀ e ∈ merge entries more, P e.1 ∧ Q e.2 := by
  induction more generalizing entries with
  | nil => exact h
  | cons entry more ih =>
    have hentry := hmore entry List.mem_cons_self
    exact ih (Value.forall_mem_insertEntry h hentry.1 hentry.2)
      fun e he => hmore e (List.mem_cons_of_mem _ he)

/-- What is found at the end has been stored, though not always together. -/
theorem exists_of_mem_merge
    {stored : List (Value × Value)} {e : Value × Value}
    (he : e ∈ merge [] stored) :
    (∃ first ∈ stored, first.1 = e.1) ∧ ∃ last ∈ stored, last.2 = e.2 :=
  forall_mem_merge (P := fun key => ∃ first ∈ stored, first.1 = key)
    (Q := fun v => ∃ last ∈ stored, last.2 = v) (List.forall_mem_nil _)
    (fun e he => ⟨⟨e, he, rfl⟩, e, he, rfl⟩) e he

theorem merge_append (entries more others : List (Value × Value)) :
    merge entries (more ++ others) = merge (merge entries more) others :=
  List.foldl_append

/-- The names of the fixed entries. -/
def fixedNames : List String :=
  ["timestamp", "level", "logger", "message", "module", "function", "line"]

/-- The fixed entries of a record. -/
def fixedEntries (r : LogRecord) (timestamp message : String) :
    List (String × Value) :=
  [("timestamp", .text timestamp), ("level", r.levelName),
    ("logger", r.loggerName), ("message", .text message),
    ("module", r.property "module" (.text r.source.module)),
    ("function", r.property "funcName" (.text r.source.function)),
    ("line", r.property "lineno" (.int r.source.line))]

/-- What is stored for a record, in order. -/
def listing
    (r : LogRecord) (timestamp message : String) (more : List (Value × Value))
    (reported : Option String) : List (Value × Value) :=
  (r.fixedEntries timestamp message ++ r.extra.filter fun e => isCopied e.1).map
      (fun e => (Value.text e.1, e.2)) ++
    more ++ reported.toList.map fun line =>
      (Value.text "exception", Value.text line)

theorem map_fst_fixedEntries (r : LogRecord) (timestamp message : String) :
    (r.fixedEntries timestamp message).map Prod.fst = fixedNames := by
  rfl

section Listing

variable {r : LogRecord} {timestamp message : String}
  {more : List (Value × Value)}
variable {reported : Option String}

theorem entries_eq
    (htime : r.timestamp = .ok timestamp) (htext : r.text = .ok message)
    (hmore : r.addedEntries = .ok more)
    (hreported : r.reported = .ok reported) :
    r.entries = .ok (merge [] (r.listing timestamp message more reported)) := by
  rw [entries, htime, htext, hmore, hreported, listing,
    merge_append, merge_append]
  rfl

/-- A key that is stored is fixed, or one of those that the application adds, or
that of the failure. -/
theorem key_cases {e : Value × Value}
    (h : e ∈ r.listing timestamp message more reported) :
    (∃ name ∈ fixedNames, e.1 = .text name) ∨
    (∃ added ∈ r.extra, added.1 ∉ reservedNames ∧
      added.1.toList.head? ≠ some '_' ∧
      e.1 = .text added.1) ∨
    (∃ added ∈ more, e.1 = added.1) ∨
    ∃ line ∈ reported, e.1 = .text "exception" := by
  rw [listing, List.mem_append, List.mem_append, List.map_append,
    List.mem_append] at h
  rcases h with ((hfixed | hcopied) | hadded) | hlast
  · left
    obtain ⟨own, hown, rfl⟩ := List.mem_map.mp hfixed
    refine ⟨own.1, ?_, rfl⟩
    rw [← r.map_fst_fixedEntries timestamp message]
    exact List.mem_map_of_mem hown
  · right; left
    obtain ⟨added, hadded, rfl⟩ := List.mem_map.mp hcopied
    obtain ⟨hextra, hname⟩ := List.mem_filter.mp hadded
    simp only [isCopied, Bool.and_eq_true, Bool.not_eq_true', bne_iff_ne, ne_eq,
      List.contains_eq_mem, decide_eq_false_iff_not] at hname
    exact ⟨added, hextra, hname.1, hname.2, rfl⟩
  · right; right; left
    exact ⟨e, hadded, rfl⟩
  · right; right; right
    obtain ⟨line, hline, rfl⟩ := List.mem_map.mp hlast
    exact ⟨line, Option.mem_toList.mp hline, rfl⟩

end Listing

end LogRecord

end QueryJournal

import QueryJournal.Render.Statement

/-!
# The chunks of a text

Whatever is written into a budget arrives there in chunks.  This module lists
the chunks of a statement and of a sequence of steps without any budget: only
whether a semicolon stands at the end so far is handed on.  The main result is
that a budget without chunks, limited or not, collects exactly this list, so
that two budgets can only differ in how much of it they keep.
-/

namespace QueryJournal

/-- Whether a text ends with a semicolon. -/
def Text.isClosed (s : String) : Bool :=
  ";".toList.isSuffixOf s.toList

/-- Whether the last of some chunks ends with a semicolon. -/
def Text.areClosed (chunks : List String) : Bool :=
  match chunks.getLast? with
  | some chunk => isClosed chunk
  | none => false

theorem Text.areClosed_concat (chunks : List String) (chunk : String) :
    areClosed (chunks ++ [chunk]) = isClosed chunk := by
  simp [areClosed]

/-! ## Chunks of statements -/

namespace Statement

/-- The chunks of a query text after a text that is closed or not: the query
text itself, unless it is empty, and a semicolon, unless one stands there
already. -/
def queryChunks (closed : Bool) (query : String) : List String :=
  if query = "" then (if closed then [] else [";"])
  else if Text.isClosed query then [query]
  else [query, ";"]

/-- The chunks before the members of a batch. -/
def openingChunks : BatchType → List String
  | .logged => ["BEGIN", " BATCH"]
  | .unlogged => ["BEGIN", " UNLOGGED", " BATCH"]
  | .counter => ["BEGIN", " COUNTER", " BATCH"]

mutual

/-- The chunks of a statement after a text that is closed or not. -/
def chunks (closed : Bool) : Statement → List String
  | .internal => []
  | .plain query => queryChunks closed (Text.trim query)
  | .bound values => queryChunks closed (Text.trim values.prepared.query)
  | .batch type members =>
    openingChunks type ++ memberChunks members ++ [" APPLY BATCH", ";"]
  | .prepared _ | .foreign => [placeholder, ";"]

/-- The chunks of the members of a batch, those of each after a space. -/
def memberChunks : List Statement → List String
  | [] => []
  | .internal :: members => memberChunks members
  | member :: members => " " :: chunks false member ++ memberChunks members

end

theorem memberChunks_cons_of_ne_internal
    {member : Statement} (h : member ≠ .internal) (members : List Statement) :
    memberChunks (member :: members) =
      " " :: chunks false member ++ memberChunks members := by
  rw [memberChunks]
  exact h

theorem ne_empty_of_mem_queryChunks
    {closed : Bool} {query chunk : String}
    (h : chunk ∈ queryChunks closed query) :
    chunk ≠ "" := by
  unfold queryChunks at h
  split at h
  next => cases closed <;> simp_all
  next hquery =>
    split at h
    · rw [List.mem_singleton] at h
      rw [h]
      exact hquery
    · rw [List.mem_cons, List.mem_singleton] at h
      rcases h with rfl | rfl
      · exact hquery
      · decide

theorem ne_empty_of_mem_openingChunks
    {type : BatchType} {chunk : String} (h : chunk ∈ openingChunks type) :
    chunk ≠ "" := by
  have hopening : ∀ word ∈ openingChunks type, word ≠ "" := by
    cases type <;> decide
  exact hopening chunk h

theorem ne_empty_of_mem_placeholder
    {chunk : String} (h : chunk ∈ [placeholder, ";"]) : chunk ≠ "" := by
  have hwords : ∀ word ∈ [placeholder, ";"], word ≠ "" := by decide
  exact hwords chunk h

mutual

/-- No chunk of a statement is empty. -/
theorem ne_empty_of_mem_chunks
    {closed : Bool} {chunk : String} :
    ∀ s : Statement, chunk ∈ s.chunks closed → chunk ≠ ""
  | .internal => by
    intro h
    rw [chunks] at h
    cases h
  | .plain _ => by
    intro h
    rw [chunks] at h
    exact ne_empty_of_mem_queryChunks h
  | .bound _ => by
    intro h
    rw [chunks] at h
    exact ne_empty_of_mem_queryChunks h
  | .batch type members => by
    intro h
    rw [chunks, List.mem_append, List.mem_append] at h
    rcases h with (hopening | hmember) | hclosing
    · exact ne_empty_of_mem_openingChunks hopening
    · exact ne_empty_of_mem_memberChunks members hmember
    · have hwords : ∀ word ∈ [" APPLY BATCH", ";"], word ≠ "" := by decide
      exact hwords chunk hclosing
  | .prepared _ => by
    intro h
    rw [chunks] at h
    exact ne_empty_of_mem_placeholder h
  | .foreign => by
    intro h
    rw [chunks] at h
    exact ne_empty_of_mem_placeholder h

/-- No chunk of the members of a batch is empty. -/
theorem ne_empty_of_mem_memberChunks
    {chunk : String} :
    ∀ members : List Statement, chunk ∈ memberChunks members → chunk ≠ ""
  | [] => by
    intro h
    rw [memberChunks] at h
    cases h
  | member :: members => by
    intro h
    by_cases hinternal : member = .internal
    · subst hinternal
      rw [memberChunks] at h
      exact ne_empty_of_mem_memberChunks members h
    · rw [memberChunks_cons_of_ne_internal hinternal, List.mem_append,
        List.mem_cons] at h
      rcases h with (rfl | hmember) | hrest
      · decide
      · exact ne_empty_of_mem_chunks member hmember
      · exact ne_empty_of_mem_memberChunks members hrest

end

end Statement

/-! ## Collecting chunks -/

namespace Budget

/-- Adds some chunks one after the other, as far as they fit. -/
def appendAll (b : Budget) (chunks : List String) : Budget :=
  chunks.foldl append b

@[simp] theorem appendAll_nil (b : Budget) : b.appendAll [] = b :=
  rfl

@[simp] theorem appendAll_cons (b : Budget) (chunk : String)
    (chunks : List String) :
    b.appendAll (chunk :: chunks) = (b.append chunk).appendAll chunks :=
  rfl

theorem appendAll_append (b : Budget) (chunks more : List String) :
    b.appendAll (chunks ++ more) = (b.appendAll chunks).appendAll more := by
  simp [appendAll]

theorem appendAll_of_exhausted
    {b : Budget} (h : b.remaining = some 0) (chunks : List String) :
    b.appendAll chunks = b := by
  induction chunks with
  | nil => rfl
  | cons chunk chunks ih => rw [appendAll_cons, append_of_exhausted h, ih]

theorem endsWith_semicolon (b : Budget) :
    b.endsWith ";" = Text.areClosed b.chunks := by
  rfl

/-- A chunk after which something remains was kept whole. -/
theorem chunks_append_of_open
    {b : Budget} {chunk : String} (hchunk : chunk ≠ "")
    (hopen : (b.append chunk).remaining ≠ some 0) :
    (b.append chunk).chunks = b.chunks ++ [chunk] := by
  unfold append at hopen ⊢
  rw [if_neg hchunk] at hopen ⊢
  split
  next => rfl
  next hzero =>
    simp only [hzero] at hopen
    exact absurd rfl hopen
  next n _ hn =>
    split
    next hcut => simp [hn, hcut] at hopen
    next => rfl

/-- Chunks after which something remains were all kept whole. -/
theorem chunks_appendAll_of_open
    {b : Budget} {chunks : List String} (hchunks : ∀ chunk ∈ chunks, chunk ≠ "")
    (hopen : (b.appendAll chunks).remaining ≠ some 0) :
    (b.appendAll chunks).chunks = b.chunks ++ chunks := by
  induction chunks generalizing b with
  | nil => simp
  | cons chunk chunks ih =>
    have hrest : (b.append chunk).remaining ≠ some 0 := by
      intro hexhausted
      rw [appendAll_cons, appendAll_of_exhausted hexhausted] at hopen
      exact hopen hexhausted
    rw [appendAll_cons, ih (fun c hc => hchunks c (List.mem_cons_of_mem _ hc))
      hopen, chunks_append_of_open (hchunks chunk List.mem_cons_self) hrest]
    simp

/-! ## Statements as chunks -/

/-- Closing a text whose last chunk is known.  If that chunk took all that
remained, the budget may see another last chunk, but then a semicolon would be
dropped as well. -/
theorem close_append
    {b : Budget} {chunk : String} (hchunk : chunk ≠ "") :
    (b.append chunk).close =
      b.appendAll (if Text.isClosed chunk then [chunk] else [chunk, ";"]) := by
  by_cases hopen : (b.append chunk).remaining = some 0
  · rw [close, append_of_exhausted hopen, ite_self]
    split
    · rfl
    · rw [appendAll_cons, appendAll_of_exhausted hopen]
  · rw [close, endsWith_semicolon, chunks_append_of_open hchunk hopen,
      Text.areClosed_concat]
    split
    · rfl
    · rfl

/-- A closed query text arrives as its chunks. -/
theorem close_append_query (b : Budget) (query : String) :
    (b.append query).close =
      b.appendAll (Statement.queryChunks (b.endsWith ";") query) := by
  unfold Statement.queryChunks
  by_cases hquery : query = ""
  · rw [if_pos hquery, hquery, append_empty, close]
    split
    · rfl
    · rfl
  · rw [if_neg hquery, close_append hquery]

theorem appendAll_openingChunks (b : Budget) (type : BatchType) :
    ((b.append "BEGIN").append type.qualifier).append " BATCH" =
      b.appendAll (Statement.openingChunks type) := by
  cases type with
  | logged => rw [BatchType.qualifier, append_empty]; rfl
  | unlogged => rfl
  | counter => rfl

/-- The chunks after a chunk that does not end with a semicolon.  Whether the
budget still knows its last chunk only matters while something remains. -/
theorem appendAll_chunks_append
    {b : Budget} {chunk : String} (hchunk : chunk ≠ "")
    (hclosed : Text.isClosed chunk = false) (s : Statement) :
    (b.append chunk).appendAll (s.chunks ((b.append chunk).endsWith ";")) =
      (b.append chunk).appendAll (s.chunks false) := by
  by_cases hopen : (b.append chunk).remaining = some 0
  · rw [appendAll_of_exhausted hopen, appendAll_of_exhausted hopen]
  · rw [endsWith_semicolon, chunks_append_of_open hchunk hopen,
      Text.areClosed_concat, hclosed]

end Budget

namespace Statement

mutual

/-- Writing a statement into a budget adds its chunks, as far as they fit. -/
theorem writeTo_eq_appendAll :
    ∀ (b : Budget) (s : Statement),
      s.writeTo b = b.appendAll (s.chunks (b.endsWith ";"))
  | b, .internal => by simp [writeTo, chunks]
  | b, .plain query => by
    rw [writeTo, chunks]
    exact b.close_append_query _
  | b, .bound values => by
    rw [writeTo, chunks]
    exact b.close_append_query _
  | b, .batch type members => by
    rw [writeTo, b.appendAll_openingChunks, writeMembers_eq_appendAll,
      Budget.close_append (by decide), chunks, Budget.appendAll_append,
      Budget.appendAll_append]
    rfl
  | b, .prepared _ => by
    rw [writeTo, chunks, Budget.close_append (by decide)]
    rfl
  | b, .foreign => by
    rw [writeTo, chunks, Budget.close_append (by decide)]
    rfl

/-- Writing the members of a batch into a budget adds their chunks, as far as
they fit. -/
theorem writeMembers_eq_appendAll :
    ∀ (b : Budget) (members : List Statement),
      writeMembers b members = b.appendAll (memberChunks members)
  | b, [] => by simp [writeMembers, memberChunks]
  | b, member :: members => by
    by_cases hinternal : member = .internal
    · subst hinternal
      rw [writeMembers, memberChunks]
      exact writeMembers_eq_appendAll b members
    · rw [writeMembers, writeMembers_eq_appendAll _ members,
        writeTo_eq_appendAll (b.append " ") member,
        Budget.appendAll_chunks_append (by decide) (by decide) member,
        memberChunks_cons_of_ne_internal hinternal, Budget.appendAll_append,
        Budget.appendAll_cons]
      exact hinternal

end

end Statement

/-! ## Steps as chunks -/

namespace Budget

/-- The budget after some steps. -/
def final (b : Budget) (steps : List Step) : Budget :=
  ((b.run steps).getLast?.map Prod.fst).getD b

@[simp] theorem final_cons (b : Budget) (s : Step) (steps : List Step) :
    b.final (s :: steps) = (b.step s).1.final steps := by
  cases steps with
  | nil => rfl
  | cons next steps =>
    simp only [final, run, List.getLast?_cons_cons]
    cases h : (run ((b.step s).1.step next).1 steps).getLast? <;>
      simp [List.getLast?_cons, h]

namespace Step

/-- The chunks that a step adds after a text that is closed or not. -/
def chunks (closed : Bool) : Step → List String
  | .append chunk => if chunk = "" then [] else [chunk]
  | .render s => s.chunks closed
  | .endsWith _ => []

/-- The chunks of a text after some steps, from those before them. -/
def chunksAfter (before : List String) (steps : List Step) : List String :=
  steps.foldl (fun collected s =>
    collected ++ s.chunks (Text.areClosed collected)) before

theorem ne_empty_of_mem_chunks
    {closed : Bool} {s : Step} {chunk : String} (h : chunk ∈ s.chunks closed) :
    chunk ≠ "" := by
  cases s with
  | append added =>
    by_cases hadded : added = ""
    · simp [chunks, hadded] at h
    · simp only [chunks, if_neg hadded, List.mem_singleton] at h
      rw [h]
      exact hadded
  | render s => exact s.ne_empty_of_mem_chunks h
  | endsWith _ => simp [chunks] at h

/-- A step adds no empty chunk to chunks that are not empty. -/
theorem ne_empty_of_mem_append_chunks
    {collected : List String}
    (hcollected : ∀ chunk ∈ collected, chunk ≠ "") (s : Step) :
    ∀ chunk ∈ collected ++ s.chunks (Text.areClosed collected), chunk ≠ "" := by
  intro chunk hchunk
  rcases List.mem_append.mp hchunk with hold | hnew
  · exact hcollected chunk hold
  · exact ne_empty_of_mem_chunks hnew

theorem ne_empty_of_mem_chunksAfter
    {collected : List String} (hcollected : ∀ chunk ∈ collected, chunk ≠ "")
    (steps : List Step) :
    ∀ chunk ∈ chunksAfter collected steps, chunk ≠ "" := by
  induction steps generalizing collected with
  | nil => exact hcollected
  | cons s steps ih => exact ih (ne_empty_of_mem_append_chunks hcollected s)

end Step

/-- A step adds its chunks, as far as they fit. -/
theorem step_eq_appendAll (b : Budget) (s : Step) :
    (b.step s).1 = b.appendAll (s.chunks (b.endsWith ";")) := by
  cases s with
  | append chunk =>
    by_cases hchunk : chunk = ""
    · rw [hchunk]
      exact b.append_empty
    · simp [step, Step.chunks, hchunk]
  | render s => exact s.writeTo_eq_appendAll b
  | endsWith _ => rfl

/-- The chunks collected so far decide what a step adds: either nothing fits any
more, or the budget holds all of them. -/
theorem step_appendAll
    {b : Budget} (hempty : b.chunks = []) {collected : List String}
    (hcollected : ∀ chunk ∈ collected, chunk ≠ "") (s : Step) :
    ((b.appendAll collected).step s).1 =
      b.appendAll (collected ++ s.chunks (Text.areClosed collected)) := by
  rw [step_eq_appendAll, appendAll_append]
  by_cases hopen : (b.appendAll collected).remaining = some 0
  · rw [appendAll_of_exhausted hopen, appendAll_of_exhausted hopen]
  · rw [endsWith_semicolon, chunks_appendAll_of_open hcollected hopen, hempty,
      List.nil_append]

theorem final_appendAll
    {b : Budget} (hempty : b.chunks = []) (steps : List Step)
    {collected : List String}
    (hcollected : ∀ chunk ∈ collected, chunk ≠ "") :
    (b.appendAll collected).final steps =
      b.appendAll (Step.chunksAfter collected steps) := by
  induction steps generalizing collected with
  | nil => rfl
  | cons s steps ih =>
    rw [final_cons, step_appendAll hempty hcollected,
      ih (Step.ne_empty_of_mem_append_chunks hcollected s)]
    rfl

/-- After some steps a budget that started without chunks has collected the
chunks of these steps, as far as they fit. -/
theorem final_eq_appendAll
    {b : Budget} (hempty : b.chunks = []) (steps : List Step) :
    b.final steps = b.appendAll (Step.chunksAfter [] steps) :=
  final_appendAll hempty steps (List.forall_mem_nil (· ≠ ""))

end Budget

end QueryJournal

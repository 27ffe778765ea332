import QueryJournal.Proofs.Render.Chunks

/-!
# What a limit keeps

A limited budget keeps the beginning of what an unlimited one keeps.  The text
is cut at the limit and marked by an ellipsis, except where the limit falls on
the end of a chunk: there the rest is dropped without a mark.  The main result
says this of every sequence of steps, and so of every statement.
-/

namespace QueryJournal

namespace Text

/-- The places in a text where its chunks end. -/
def chunkEnds : List String → List Nat
  | [] => []
  | chunk :: chunks => chunk.length :: (chunkEnds chunks).map (chunk.length + ·)

/-- The text of some chunks within `n` characters: all of it if it fits, and
otherwise its first `n` characters, which an ellipsis follows if they end inside
a chunk. -/
def within (n : Nat) (chunks : List String) : String :=
  if (String.join chunks).length ≤ n then String.join chunks
  else if n = 0 ∨ n ∈ chunkEnds chunks then take n (String.join chunks)
  else take n (String.join chunks) ++ ellipsis

/-! ## Cutting chunk by chunk -/

theorem take_zero (s : String) : take 0 s = "" := by
  simp [take]

theorem take_append_of_length_le
    {n : Nat} {first : String} (h : first.length ≤ n) (rest : String) :
    take n (first ++ rest) = first ++ take (n - first.length) rest := by
  have hlist : first.toList.length ≤ n := by
    rw [String.length_toList]
    exact h
  rw [take, take, String.toList_append, List.take_append, List.take_of_length_le
    hlist, String.length_toList, String.ofList_append, String.ofList_toList]

theorem take_append_of_le_length
    {n : Nat} {first : String} (h : n ≤ first.length) (rest : String) :
    take n (first ++ rest) = take n first := by
  have hlist : n ≤ first.toList.length := by
    rw [String.length_toList]
    exact h
  rw [take, take, String.toList_append, List.take_append_of_le_length hlist]

theorem length_take_of_le {n : Nat} {s : String} (h : n ≤ s.length) :
    (take n s).length = n := by
  rw [take, String.length_ofList, List.length_take, String.length_toList]
  exact Nat.min_eq_left h

theorem length_pos_of_ne_empty {s : String} (h : s ≠ "") : 0 < s.length := by
  rw [Nat.pos_iff_ne_zero]
  intro hzero
  exact h (String.length_eq_zero_iff.mp hzero)

theorem length_le_of_mem_chunkEnds
    {n : Nat} {chunk : String} {chunks : List String}
    (h : n ∈ chunkEnds (chunk :: chunks)) : chunk.length ≤ n := by
  simp only [chunkEnds, List.mem_cons, List.mem_map] at h
  rcases h with rfl | ⟨rest, -, rfl⟩
  · exact Nat.le_refl _
  · exact Nat.le_add_right _ _

theorem mem_chunkEnds_cons_iff
    {n : Nat} {chunk : String} (chunks : List String) (h : chunk.length ≤ n) :
    n ∈ chunkEnds (chunk :: chunks) ↔
      n - chunk.length = 0 ∨ n - chunk.length ∈ chunkEnds chunks := by
  simp only [chunkEnds, List.mem_cons, List.mem_map]
  constructor
  · rintro (rfl | ⟨rest, hrest, rfl⟩)
    · exact Or.inl (Nat.sub_self _)
    · rw [Nat.add_sub_cancel_left]
      exact Or.inr hrest
  · rintro (hzero | hrest)
    · exact Or.inl (by omega)
    · exact Or.inr ⟨n - chunk.length, hrest, by omega⟩

theorem within_zero (chunks : List String) : within 0 chunks = "" := by
  unfold within
  split
  next h => exact String.length_eq_zero_iff.mp (Nat.le_zero.mp h)
  next => rw [if_pos (Or.inl rfl), take_zero]

/-- A chunk that fits is kept, and the limit of the others is smaller by its
length. -/
theorem within_cons_of_length_le
    {n : Nat} {chunk : String} (hchunk : chunk ≠ "") (h : chunk.length ≤ n)
    (chunks : List String) :
    within n (chunk :: chunks) = chunk ++ within (n - chunk.length) chunks := by
  have hpos := length_pos_of_ne_empty hchunk
  have hzero : n ≠ 0 := by omega
  unfold within
  rw [String.join_cons, String.length_append, take_append_of_length_le h]
  by_cases hfull : (String.join chunks).length ≤ n - chunk.length
  · rw [if_pos hfull, if_pos (by omega)]
  · rw [if_neg hfull, if_neg (by omega)]
    simp only [mem_chunkEnds_cons_iff chunks h, hzero, false_or]
    split
    · rfl
    · rw [String.append_assoc]

/-- A chunk that does not fit is cut, and the others are dropped. -/
theorem within_cons_of_lt_length
    {n : Nat} {chunk : String} (hn : n ≠ 0) (h : n < chunk.length)
    (chunks : List String) :
    within n (chunk :: chunks) = take n chunk ++ ellipsis := by
  have hinside : ¬(n = 0 ∨ n ∈ chunkEnds (chunk :: chunks)) := by
    rintro (hzero | hend)
    · exact hn hzero
    · have hle := length_le_of_mem_chunkEnds hend
      omega
  unfold within
  rw [String.join_cons, String.length_append, if_neg (by omega), if_neg hinside,
    take_append_of_le_length (Nat.le_of_lt h)]

end Text

/-! ## Budgets with and without a limit -/

namespace Budget

theorem remaining_append_of_unlimited
    {b : Budget} (h : b.remaining = none) (chunk : String) :
    (b.append chunk).remaining = none := by
  by_cases hchunk : chunk = ""
  · rw [hchunk, append_empty, h]
  · simp [append, hchunk, h]

theorem remaining_appendAll_of_unlimited
    {b : Budget} (h : b.remaining = none) (chunks : List String) :
    (b.appendAll chunks).remaining = none := by
  induction chunks generalizing b with
  | nil => exact h
  | cons chunk chunks ih =>
    rw [appendAll_cons]
    exact ih (remaining_append_of_unlimited h chunk)

/-- Without a limit all chunks are kept. -/
theorem text_appendAll_of_unlimited
    {b : Budget} (h : b.remaining = none) (chunks : List String) :
    (b.appendAll chunks).text = b.text ++ String.join chunks := by
  induction chunks generalizing b with
  | nil => simp
  | cons chunk chunks ih =>
    rw [appendAll_cons, ih (remaining_append_of_unlimited h chunk),
      text_append_of_unlimited h, String.join_cons, String.append_assoc]

theorem append_of_length_le
    {b : Budget} {n : Nat} {chunk : String} (hremaining : b.remaining = some n)
    (hchunk : chunk ≠ "") (h : chunk.length ≤ n) :
    b.append chunk =
      { b with remaining := some (n - chunk.length), chunks := b.chunks ++
        [chunk] } := by
  have hpos := Text.length_pos_of_ne_empty hchunk
  obtain ⟨m, rfl⟩ := Nat.exists_eq_succ_of_ne_zero (show n ≠ 0 by omega)
  simp only [append, if_neg hchunk, hremaining, if_neg (Nat.not_lt.mpr h)]

theorem append_of_lt_length
    {b : Budget} {n : Nat} {chunk : String} (hremaining : b.remaining = some n)
    (hn : n ≠ 0) (h : n < chunk.length) :
    b.append chunk = ⟨some 0,
      b.chunks ++ [Text.take n chunk, ellipsis], true⟩ := by
  have hchunk : chunk ≠ "" := by
    rintro rfl
    simp at h
  obtain ⟨m, rfl⟩ := Nat.exists_eq_succ_of_ne_zero hn
  simp only [append, if_neg hchunk, hremaining, if_pos h]

/-- With `n` characters remaining, chunks are kept as far as they fit into
them. -/
theorem text_appendAll_of_limited
    {b : Budget} {n : Nat}
    (hremaining : b.remaining = some n) {chunks : List String}
    (hchunks : ∀ chunk ∈ chunks, chunk ≠ "") :
    (b.appendAll chunks).text = b.text ++ Text.within n chunks := by
  induction chunks generalizing b n with
  | nil => simp [Text.within]
  | cons chunk chunks ih =>
    have hchunk : chunk ≠ "" := hchunks chunk List.mem_cons_self
    have hrest : ∀ c ∈ chunks, c ≠ "" :=
      fun c hc => hchunks c (List.mem_cons_of_mem _ hc)
    by_cases hn : n = 0
    · subst hn
      rw [appendAll_of_exhausted hremaining,
        Text.within_zero, String.append_empty]
    · rw [appendAll_cons]
      by_cases hfits : chunk.length ≤ n
      · rw [append_of_length_le hremaining hchunk hfits, ih rfl hrest,
          Text.within_cons_of_length_le hchunk hfits]
        simp [text, String.append_assoc]
      · rw [append_of_lt_length hremaining hn (by omega), appendAll_of_exhausted
          rfl, Text.within_cons_of_lt_length hn (by omega)]
        simp [text]

theorem ofLimit_natCast (n : Nat) : ofLimit n = .ok (ofNat n) := by
  simp [ofLimit]

theorem ofLimit_neg_one : ofLimit (-1) = .ok unlimited := by
  rfl

/-- After some steps a budget of `n` characters holds what `n` characters keep
of the chunks of these steps. -/
theorem text_final_ofNat (n : Nat) (steps : List Step) :
    ((ofNat n).final steps).text =
      Text.within n (Step.chunksAfter [] steps) := by
  have hchunks :=
    Step.ne_empty_of_mem_chunksAfter (List.forall_mem_nil (· ≠ "")) steps
  rw [final_eq_appendAll rfl, text_appendAll_of_limited rfl hchunks]
  exact String.empty_append

/-- After some steps an unlimited budget holds all chunks of these steps. -/
theorem text_final_unlimited (steps : List Step) :
    (unlimited.final steps).text = String.join (Step.chunksAfter [] steps) := by
  rw [final_eq_appendAll rfl, text_appendAll_of_unlimited rfl]
  exact String.empty_append

theorem chunks_final_unlimited (steps : List Step) :
    (unlimited.final steps).chunks = Step.chunksAfter [] steps := by
  have hchunks :=
    Step.ne_empty_of_mem_chunksAfter (List.forall_mem_nil (· ≠ "")) steps
  have hopen :
      (unlimited.appendAll (Step.chunksAfter [] steps)).remaining ≠ some 0 := by
    rw [remaining_appendAll_of_unlimited rfl]
    simp
  rw [final_eq_appendAll rfl, chunks_appendAll_of_open hchunks hopen]
  rfl

end Budget

/-! ## Statements by themselves -/

namespace Statement

/-- A statement within `n` characters is what these keep of its chunks. -/
theorem renderWithin_natCast (s : Statement) (n : Nat) :
    s.renderWithin n = .ok (Text.within n (s.chunks false)) := by
  have hchunks : ∀ chunk ∈ s.chunks false, chunk ≠ "" :=
    fun _ h => s.ne_empty_of_mem_chunks h
  have htext : (s.writeTo (.ofNat n)).text =
      Text.within n (s.chunks false) := by
    rw [writeTo_eq_appendAll, Budget.text_appendAll_of_limited rfl]
    · exact String.empty_append
    · exact hchunks
  rw [renderWithin, Budget.ofLimit_natCast, ← htext]
  rfl

/-- A statement without limit is the text of its chunks. -/
theorem renderWithin_neg_one (s : Statement) :
    s.renderWithin (-1) = .ok (String.join (s.chunks false)) := by
  have htext : (s.writeTo .unlimited).text = String.join (s.chunks false) := by
    rw [writeTo_eq_appendAll, Budget.text_appendAll_of_unlimited rfl]
    exact String.empty_append
  rw [renderWithin, Budget.ofLimit_neg_one, ← htext]
  rfl

end Statement

namespace Budget

/-- A limit only cuts.  Whatever steps are done, a budget of `n` characters ends
with the text of an unlimited one, or with the first `n` characters of that if
it is longer, and an ellipsis after these exactly if `n` lies inside of a chunk.
The same holds of a statement that is written by itself. -/
theorem limit_only_cuts (steps : List Step) :
    let full := (unlimited.final steps).text
    let chunks := Step.chunksAfter [] steps
    (unlimited.final steps).chunks = chunks ∧
      full = String.join chunks ∧
      (∀ n : Nat, ((ofNat n).final steps).text =
        if full.length ≤ n then full
        else if n = 0 ∨ n ∈ Text.chunkEnds chunks then Text.take n full
        else Text.take n full ++ ellipsis) ∧
      ∀ s : Statement, ∃ text, s.renderWithin (-1) = .ok text ∧
        text = String.join (s.chunks false) ∧
        ∀ n : Nat, s.renderWithin n = .ok
          (if text.length ≤ n then text
          else if n = 0 ∨ n ∈ Text.chunkEnds (s.chunks false) then
            Text.take n text
          else Text.take n text ++ ellipsis) := by
  intro full chunks
  have hfull : full = String.join chunks := text_final_unlimited steps
  refine ⟨chunks_final_unlimited steps, hfull, ?_, ?_⟩
  · intro n
    rw [hfull]
    exact text_final_ofNat n steps
  · intro s
    exact ⟨String.join (s.chunks false), s.renderWithin_neg_one, rfl,
      s.renderWithin_natCast⟩

/-- A limit at the end of a chunk leaves no mark, though the semicolon is
missing. -/
example : (Statement.plain "SELECT 1").renderWithin 8 = .ok "SELECT 1" := by
  rfl

end Budget

end QueryJournal

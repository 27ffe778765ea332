import QueryJournal.Proofs.Render.Accounting

/-!
# How the end of a text is found

To tell how its text ends, a budget looks at the last chunk that it keeps.  No
kept chunk is empty, so the last one holds the last character of the text, and
more of it than that only as far as it is long: a suffix that began in an
earlier chunk is not found.  In particular only the dots are seen of a text that
was cut, and an empty text does not even end with nothing.
-/

namespace QueryJournal.Budget

variable {b : Budget} {suffix : String}

/-! ## The last chunk and the end of the text -/

theorem endsWith_iff (b : Budget) (suffix : String) :
    b.endsWith suffix = true ↔
      ∃ last, b.chunks.getLast? = some last ∧
        suffix.toList <:+ last.toList := by
  rw [endsWith]
  cases b.chunks.getLast? with
  | none => simp
  | some last => simp

/-- The text ends with the last chunk. -/
theorem toList_suffix_text {last : String} (h : b.chunks.getLast? = some last) :
    last.toList <:+ b.text.toList := by
  obtain ⟨before, hbefore⟩ := List.getLast?_eq_some_iff.mp h
  rw [text, hbefore, String.join_append, String.join_cons, String.join_nil,
    String.append_empty, String.toList_append]
  exact List.suffix_append _ _

/-- A suffix is found if and only if the text ends with it and it is not longer
than the last chunk. -/
theorem endsWith_iff_suffix_text (b : Budget) (suffix : String) :
    b.endsWith suffix = true ↔ suffix.toList <:+ b.text.toList ∧
      ∃ last, b.chunks.getLast? = some last ∧ suffix.length ≤ last.length := by
  rw [endsWith_iff]
  constructor
  · rintro ⟨last, hlast, hsuffix⟩
    refine ⟨hsuffix.trans (toList_suffix_text hlast), last, hlast, ?_⟩
    rw [← String.length_toList, ← String.length_toList]
    exact hsuffix.length_le
  · rintro ⟨htext, last, hlast, hlength⟩
    rw [← String.length_toList, ← String.length_toList] at hlength
    -- Of two suffixes of the text the shorter one is a suffix of the longer
    -- one.
    have hsuffix :=
      List.suffix_of_suffix_length_le htext (toList_suffix_text hlast) hlength
    exact ⟨last, hlast, hsuffix⟩

theorem isTidy_final
    (hempty : b.chunks = []) (hwhole : b.truncated = false)
    (steps : List Step) :
    (b.final steps).IsTidy := by
  rw [final_eq_appendAll hempty]
  exact appendAll_induction Appends.isTidy (isTidy_of_empty hempty hwhole) _

theorem IsTidy.last_ne_empty
    {last : String} (h : b.IsTidy)
    (hlast : b.chunks.getLast? = some last) : last ≠ "" :=
  h.ne_empty last (List.mem_of_getLast? hlast)

theorem IsTidy.text_eq_empty_iff (h : b.IsTidy) :
    b.text = "" ↔ b.chunks = [] := by
  constructor
  · intro htext
    cases hlast : b.chunks.getLast? with
    | none => exact List.getLast?_eq_none_iff.mp hlast
    | some last =>
      have hsuffix := toList_suffix_text hlast
      rw [htext, String.toList_empty, List.suffix_nil,
        String.toList_eq_nil_iff] at hsuffix
      exact absurd hsuffix (h.last_ne_empty hlast)
  · intro hchunks
    rw [text, hchunks, String.join_nil]

/-- For a single character the last chunk tells how the text ends. -/
theorem IsTidy.endsWith_of_length_eq_one (h : b.IsTidy)
    (hsuffix : suffix.length = 1) :
    b.endsWith suffix = suffix.toList.isSuffixOf b.text.toList := by
  rw [Bool.eq_iff_iff, endsWith_iff_suffix_text, List.isSuffixOf_iff_suffix,
    and_iff_left_iff_imp]
  intro htext
  cases hlast : b.chunks.getLast? with
  | none =>
    -- Without a chunk the text is empty, and ends with no character.
    rw [h.text_eq_empty_iff.mpr (List.getLast?_eq_none_iff.mp hlast),
      String.toList_empty, List.suffix_nil, String.toList_eq_nil_iff] at htext
    rw [htext] at hsuffix
    cases hsuffix
  | some last =>
    have hpos := Text.length_pos_of_ne_empty (h.last_ne_empty hlast)
    exact ⟨last, rfl, by omega⟩

/-- Where something remains, the kept chunks are all chunks of the steps. -/
theorem chunks_final_of_open
    (hempty : b.chunks = []) {steps : List Step}
    (hopen : (b.final steps).isExhausted = false) :
    (b.final steps).chunks = Step.chunksAfter [] steps := by
  have hchunks :=
    Step.ne_empty_of_mem_chunksAfter (List.forall_mem_nil (· ≠ "")) steps
  rw [Bool.eq_false_iff, ne_eq, isExhausted_iff] at hopen
  rw [final_eq_appendAll hempty] at hopen ⊢
  rw [chunks_appendAll_of_open hchunks hopen, hempty, List.nil_append]

/-- Whatever was added to a budget, it finds a suffix if and only if the text
ends with it and it is not longer than the last chunk that is kept.  So it never
finds a suffix that is not there, and always finds a single character that
is. -/
theorem endsWith_sees_last_chunk {limit : Int}
    (h : -1 ≤ limit) (steps : List Step) :
    ∃ start, ofLimit limit = .ok start ∧
      let b := start.final steps
      (∀ suffix, b.endsWith suffix = true ↔ suffix.toList <:+ b.text.toList ∧
        ∃ last, b.chunks.getLast? = some last ∧ suffix.length ≤ last.length) ∧
      (∀ suffix, suffix.length = 1 →
        b.endsWith suffix = suffix.toList.isSuffixOf b.text.toList) ∧
      (b.isExhausted = false → b.chunks = Step.chunksAfter [] steps) ∧
      (b.truncated = true → b.chunks.getLast? = some ellipsis) ∧
      (b.chunks = [] ↔ b.text = "") := by
  obtain ⟨start, hstart, hempty, htruncated⟩ := exists_ofLimit h
  have htidy := isTidy_final hempty htruncated steps
  exact ⟨start, hstart, endsWith_iff_suffix_text _,
    fun _ => htidy.endsWith_of_length_eq_one,
    chunks_final_of_open hempty, fun hcut =>
      (htidy.cut hcut).2, htidy.text_eq_empty_iff.symm⟩

/-- After a cut the dots are found, but not together with what stands before
them. -/
theorem endsWith_sees_last_chunk_of_cut :
    let b := (ofNat 9).final [.append "SELECT", .append " 1, 2"]
    (-1 ≤ (9 : Int) ∧ b.text = "SELECT 1,...") ∧ b.endsWith "..." = true ∧
      b.endsWith "." = true ∧ b.endsWith ",..." = false := by
  intro b
  obtain ⟨start, hstart, hfound, hsingle, -, hcut, -⟩ :=
    endsWith_sees_last_chunk (show -1 ≤ (9 : Int) by decide) [.append "SELECT",
      .append " 1, 2"]
  obtain rfl : ofNat 9 = start := Except.ok.inj hstart
  have hlast : b.chunks.getLast? = some ellipsis := hcut rfl
  refine ⟨⟨by decide, by decide⟩, ?_, ?_, ?_⟩
  · exact (hfound "...").mpr ⟨by decide, ellipsis, hlast, Nat.le_refl 3⟩
  · exact (hsingle "." rfl).trans (by decide)
  · rw [Bool.eq_false_iff]
    intro hdots
    obtain ⟨-, last, hsome, hlength⟩ := (hfound ",...").mp hdots
    cases hlast.symm.trans hsome
    exact absurd hlength (by decide)

/-- A semicolon and what stands before it are not found if they were added one
after the other. An empty text is not found to end with nothing. -/
theorem suffix_over_chunks_is_missed :
    let b := unlimited.final [.append "SELECT 1", .append ";"]
    let empty := ofNat 5
    (b.text = "SELECT 1;" ∧ "1;".toList.isSuffixOf b.text.toList = true ∧
        b.endsWith "1;" = false) ∧
      empty.text = "" ∧ "".toList.isSuffixOf empty.text.toList = true ∧
        empty.endsWith "" = false := by
  decide

end QueryJournal.Budget

import QueryJournal.Proofs.Render.Truncation

/-!
# The text of a statement from its parts

Without a limit the text of a statement is told by a rule that mentions neither
a budget nor what was written before: a batch is the texts of its members
between its keywords.  The main result is that writing follows this rule in
every place.  Only a blank query has a text that depends on its place: it is a
semicolon, unless one stands there already.
-/

namespace QueryJournal

/-- A text with a semicolon at its end, which is added unless one stands
there. -/
def Text.closed (s : String) : String :=
  if isClosed s then s else s ++ ";"

namespace Statement

/-- The words before the members of a batch. -/
def opening : BatchType → String
  | .logged => "BEGIN BATCH"
  | .unlogged => "BEGIN UNLOGGED BATCH"
  | .counter => "BEGIN COUNTER BATCH"

mutual

/-- The text of a statement from the texts of its parts. -/
def text : Statement → String
  | .internal => ""
  | .plain query => Text.closed (Text.trim query)
  | .bound values => Text.closed (Text.trim values.prepared.query)
  | .batch type members =>
    opening type ++ memberTexts members ++ " APPLY BATCH;"
  | .prepared _ | .foreign => "??Unknown Statement??;"

/-- The texts of the members of a batch, each after a space.  Queries of the
driver's own are left out with their space. -/
def memberTexts : List Statement → String
  | [] => ""
  | .internal :: members => memberTexts members
  | member :: members => " " ++ text member ++ memberTexts members

end

/-- Whether a statement is a query whose text is blank. -/
def isBlank : Statement → Bool
  | .plain query => Text.trim query == ""
  | .bound values => Text.trim values.prepared.query == ""
  | _ => false

/-- Whether a statement is a query of the driver's own. -/
def isInternal : Statement → Bool
  | .internal => true
  | _ => false

theorem memberTexts_cons (member : Statement) (members : List Statement) :
    memberTexts (member :: members) =
      (if member.isInternal then "" else " " ++ member.text) ++
        memberTexts members := by
  cases member with
  | internal => rw [memberTexts, isInternal, if_pos rfl, String.empty_append]
  | _ => rw [memberTexts, isInternal, if_neg Bool.false_ne_true] <;> simp

theorem memberTexts_append (members more : List Statement) :
    memberTexts (members ++ more) =
      memberTexts members ++ memberTexts more := by
  induction members with
  | nil => rw [List.nil_append, memberTexts, String.empty_append]
  | cons member members ih =>
    rw [List.cons_append, memberTexts_cons, memberTexts_cons, ih,
      String.append_assoc]

/-! ## Chunks and texts -/

theorem join_queryChunks_false (query : String) :
    String.join (queryChunks false query) = Text.closed query := by
  unfold queryChunks Text.closed
  by_cases hquery : query = ""
  · subst hquery
    rfl
  · rw [if_neg hquery]
    split
    · simp
    · simp

theorem join_openingChunks (type : BatchType) :
    String.join (openingChunks type) = opening type := by
  cases type <;> rfl

mutual

/-- After a text that is not closed, the chunks of a statement are its text. -/
theorem join_chunks_false :
    ∀ s : Statement, String.join (s.chunks false) = s.text
  | .internal => rfl
  | .plain query => join_queryChunks_false _
  | .bound values => join_queryChunks_false _
  | .batch type members => by
    rw [chunks, text, String.join_append, String.join_append,
      join_openingChunks, join_memberChunks members]
    rfl
  | .prepared _ => rfl
  | .foreign => rfl

/-- The chunks of the members of a batch are their texts. -/
theorem join_memberChunks :
    ∀ members : List Statement,
      String.join (memberChunks members) = memberTexts members
  | [] => rfl
  | member :: members => by
    by_cases hinternal : member = .internal
    · subst hinternal
      rw [memberChunks, memberTexts]
      exact join_memberChunks members
    · rw [memberChunks_cons_of_ne_internal hinternal, memberTexts,
        List.cons_append, String.join_cons, String.join_append,
        join_chunks_false member, join_memberChunks members,
        String.append_assoc]
      exact hinternal

end

/-- Only the chunks of a blank query depend on what stands before them. -/
theorem chunks_of_not_isBlank
    {s : Statement} (h : s.isBlank = false) (closed : Bool) :
    s.chunks closed = s.chunks false := by
  cases s with
  | plain query =>
    have hquery : Text.trim query ≠ "" := by simpa [isBlank] using h
    rw [chunks, chunks, queryChunks, queryChunks, if_neg hquery, if_neg hquery]
  | bound values =>
    have hquery : Text.trim values.prepared.query ≠ "" := by
      simpa [isBlank] using h
    rw [chunks, chunks, queryChunks, queryChunks, if_neg hquery, if_neg hquery]
  | _ => rfl

theorem chunks_of_isBlank
    {s : Statement} (h : s.isBlank = true) (closed : Bool) :
    s.chunks closed = if closed then [] else [";"] := by
  cases s with
  | plain query =>
    have hquery : Text.trim query = "" := by simpa [isBlank] using h
    rw [chunks, queryChunks, if_pos hquery]
  | bound values =>
    have hquery : Text.trim values.prepared.query = "" := by
      simpa [isBlank] using h
    rw [chunks, queryChunks, if_pos hquery]
  | _ => simp [isBlank] at h

/-- What a statement adds to a text that is closed or not. -/
theorem join_chunks (s : Statement) (closed : Bool) :
    String.join (s.chunks closed) =
      if s.isBlank then (if closed then "" else ";") else s.text := by
  by_cases hblank : s.isBlank = true
  · rw [chunks_of_isBlank hblank, if_pos hblank]
    cases closed <;> rfl
  · rw [chunks_of_not_isBlank (Bool.eq_false_iff.mpr hblank), join_chunks_false,
      if_neg hblank]

end Statement

/-! ## The end of a text -/

namespace Text

theorem isClosed_iff (s : String) :
    isClosed s = true ↔ s.toList.getLast? = some ';' := by
  rw [isClosed, List.isSuffixOf_iff_suffix]
  exact List.singleton_suffix_iff_getLast?_eq_some

theorem isClosed_append_of_ne_empty
    {chunk : String} (h : chunk ≠ "") (s : String) :
    isClosed (s ++ chunk) = isClosed chunk := by
  have hlist : chunk.toList ≠ [] :=
    fun hnil => h (String.toList_eq_nil_iff.mp hnil)
  rw [Bool.eq_iff_iff, isClosed_iff, isClosed_iff, String.toList_append,
    List.getLast?_append, List.getLast?_eq_some_getLast hlist, Option.some_or]

/-- The last chunk tells whether the text of all chunks is closed. -/
theorem areClosed_eq_isClosed_join
    {chunks : List String} (h : ∀ chunk ∈ chunks, chunk ≠ "") :
    areClosed chunks = isClosed (String.join chunks) := by
  rcases List.eq_nil_or_concat chunks with rfl | ⟨before, chunk, rfl⟩
  · rfl
  · have hchunk : chunk ≠ "" := h chunk (by simp)
    rw [List.concat_eq_append, areClosed_concat, String.join_append,
      String.join_cons, String.join_nil, String.append_empty,
      isClosed_append_of_ne_empty hchunk]

end Text

/-! ## Places in a batch -/

/-- The place of a member in a batch. -/
structure Batch.Place where
  /-- The kind of the batch. -/
  type : BatchType
  /-- The members before it. -/
  before : List Statement
  /-- The members after it. -/
  after : List Statement

namespace Statement

/-- The batch that has a statement at the end of a path of places, the outermost
first. -/
def plug : List Batch.Place → Statement → Statement
  | [], s => s
  | p :: path, s => .batch p.type (p.before ++ plug path s :: p.after)

theorem isInternal_plug_cons (p : Batch.Place) (path : List Batch.Place)
    (s : Statement) :
    (plug (p :: path) s).isInternal = false :=
  rfl

theorem text_plug_cons (p : Batch.Place) (path : List Batch.Place)
    (s : Statement) :
    (plug (p :: path) s).text =
      (opening p.type ++ memberTexts p.before) ++
        (if (plug path s).isInternal then "" else " " ++ (plug path s).text) ++
        (memberTexts p.after ++ " APPLY BATCH;") := by
  rw [plug, text, memberTexts_append, memberTexts_cons]
  simp only [String.append_assoc]

/-- The text around a member of a batch does not depend on the member. -/
theorem exists_text_plug (p : Batch.Place) (path : List Batch.Place) :
    ∃ before after : String, ∀ s : Statement,
      (plug (p :: path) s).text =
        before ++ (if s.isInternal then "" else " " ++ s.text) ++ after := by
  induction path generalizing p with
  | nil => exact ⟨_, _, fun s => text_plug_cons p [] s⟩
  | cons q path ih =>
    obtain ⟨before, after, htext⟩ := ih q
    refine ⟨opening p.type ++ memberTexts p.before ++ " " ++ before,
      after ++ memberTexts p.after ++ " APPLY BATCH;", fun s => ?_⟩
    rw [text_plug_cons, isInternal_plug_cons, if_neg Bool.false_ne_true, htext]
    simp only [String.append_assoc]

theorem render_eq_text (s : Statement) : s.render = s.text := by
  rw [render, writeTo_eq_appendAll, Budget.text_appendAll_of_unlimited rfl]
  exact (String.empty_append).trans s.join_chunks_false

/-- Writing into an unlimited budget adds the text of the statement.  A blank
query adds a semicolon, unless the text before it is closed. -/
theorem text_writeTo_final_unlimited (steps : List Budget.Step)
    (s : Statement) :
    (s.writeTo (Budget.unlimited.final steps)).text =
      (Budget.unlimited.final steps).text ++
        if s.isBlank then
          (if Text.isClosed (Budget.unlimited.final steps).text then ""
           else ";")
        else s.text := by
  have hunlimited : (Budget.unlimited.final steps).remaining = none := by
    rw [Budget.final_eq_appendAll rfl]
    exact Budget.remaining_appendAll_of_unlimited rfl _
  have hchunks :=
    Budget.Step.ne_empty_of_mem_chunksAfter (List.forall_mem_nil (· ≠ "")) steps
  have hclosed : (Budget.unlimited.final steps).endsWith ";" =
      Text.isClosed (Budget.unlimited.final steps).text := by
    rw [Budget.endsWith_semicolon, Budget.chunks_final_unlimited,
      Budget.text_final_unlimited, Text.areClosed_eq_isClosed_join hchunks]
  rw [writeTo_eq_appendAll, Budget.text_appendAll_of_unlimited hunlimited,
    join_chunks, hclosed]

/-- Without a limit a statement has the text that its parts give it, by itself
and after any earlier text.  There a blank query is the one exception: it adds a
semicolon, unless one stands at the end already.  A member of a batch adds to
the text of the batch what it is by itself, however deep it lies. -/
theorem text_is_compositional :
    (∀ s : Statement, s.render = s.text ∧ s.renderWithin (-1) = .ok s.text) ∧
      (∀ (steps : List Budget.Step) (s : Statement),
        let before := (Budget.unlimited.final steps).text
        (s.writeTo (Budget.unlimited.final steps)).text =
          before ++
            if s.isBlank then (if Text.isClosed before then "" else ";")
            else s.text) ∧
      ∀ (p : Batch.Place) (path : List Batch.Place),
        ∃ before after : String, ∀ s : Statement,
          (plug (p :: path) s).render =
            before ++ (if s.isInternal then "" else " " ++ s.render) ++
              after := by
  refine ⟨fun s => ⟨s.render_eq_text, ?_⟩, text_writeTo_final_unlimited,
    fun p path => ?_⟩
  · rw [renderWithin_neg_one, join_chunks_false]
  · simp only [render_eq_text]
    exact exists_text_plug p path

end Statement

end QueryJournal

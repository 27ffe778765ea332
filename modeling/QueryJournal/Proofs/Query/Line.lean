import QueryJournal.Proofs.Logging.Delivery
import QueryJournal.Proofs.Logging.Message
import QueryJournal.Query.Recorder

/-!
# The line of a query

The record of a query has a message with placeholders.  This module tells the
sentence that they are filled to, for every host and statement: percent signs
in these are not read again, and there are always as many arguments as
placeholders.
-/

namespace QueryJournal

theorem Value.plain_text (s : String) : (Value.text s).plain = .ok s := by
  rw [plain]

theorem Value.literal_text (s : String) :
    (Value.text s).literal = .ok (Text.quoted s) := by
  rw [literal]

theorem Value.isSimple_text (s : String) : (Value.text s).IsSimple :=
  trivial

theorem Millis.plain_toValue (millis : Millis) :
    millis.toValue.plain = .ok millis.text := by
  cases millis <;> rfl

theorem Millis.isSimple_toValue (millis : Millis) :
    millis.toValue.IsSimple := by
  cases millis <;> trivial

/-! ## The line -/

namespace Recorder

open Message (State)

/-- The words of a line before the host. -/
def lead : Outcome → String
  | .normal => "Query completed normally on host "
  | .slow => "Query too slow on host "
  | .timeout => "Query timed out on host "
  | .error => "Query error on host "

/-- The words of a line between the host and the milliseconds. -/
def middle : Outcome → String
  | .normal | .slow => ", took "
  | .timeout | .error => " after "

/-- The bound values of a line in brackets, if there are any. -/
def bracketed (shown : List String) : String :=
  if shown = [] then "" else " [" ++ ", ".intercalate shown ++ "]"

/-- The line of a query from the texts of its parts. -/
def sentence
    (o : Outcome) (host : String) (millis : Millis) (statement : String)
    (shown : List String) :
    String :=
  lead o ++ host ++ middle o ++ millis.text ++ " ms: " ++ statement ++
  bracketed shown

theorem percent_not_mem_lead (o : Outcome) : '%' ∉ (lead o).toList := by
  cases o <;> decide

theorem percent_not_mem_middle (o : Outcome) : '%' ∉ (middle o).toList := by
  cases o <;> decide

theorem toList_template (o : Outcome) :
    (template o).toList =
      (lead o).toList ++ (['%', 's'] ++ ((middle o).toList ++ (['%', 's'] ++
        (" ms: ".toList ++ ['%', 's'])))) := by
  cases o <;> simp [template, lead, middle]

/-- The template of an outcome takes three arguments. -/
theorem readAll_template
    (o : Outcome) (host : String) (millis : Millis) (statement : String)
    (args : List Value) :
    (State.between [] (.text host :: millis.toValue :: .text statement ::
        args)).readAll
        (template o).toList =
      .ok
        (State.between (sentence o host millis statement []).toList args) := by
  rw [toList_template, State.readAll_append_of_ok (State.readAll_words
      (percent_not_mem_lead o) _ _), State.readAll_append_of_ok
    (State.readAll_plain (Value.plain_text host) _ _),
    State.readAll_append_of_ok
    (State.readAll_words (percent_not_mem_middle o) _ _),
    State.readAll_append_of_ok (State.readAll_plain millis.plain_toValue _ _),
    State.readAll_append_of_ok (State.readAll_words (by decide) _ _),
    State.readAll_plain (Value.plain_text statement)]
  simp [sentence, bracketed]

theorem readAll_parameterTemplate (written : List Char) (values : String) :
    (State.between written [.text values]).readAll parameterTemplate.toList =
      .ok (State.between (written ++ (" [" ++ values ++ "]").toList) []) := by
  have hsplit : parameterTemplate.toList =
      " [".toList ++ (['%', 's'] ++ "]".toList) := by decide
  rw [hsplit, State.readAll_append_of_ok (State.readAll_words (by decide) _ _),
    State.readAll_append_of_ok (State.readAll_plain
      (Value.plain_text values) _ _), State.readAll_words (by decide)]
  simp

theorem intercalate_eq_empty_iff
    {shown : List String} (h : ∀ s ∈ shown, s ≠ "") :
    ", ".intercalate shown = "" ↔ shown = [] := by
  match shown with
  | [] => simp
  | [s] => simpa using h s List.mem_cons_self
  | s :: t :: rest => simp

section Entry

variable (l : Logging) (g : Gate) (o : Outcome) (host : String)
  (millis : Millis)
variable (statement : String) {shown : List String}
  (failure : Option ErrorValue)

theorem entry_message (h : ∀ s ∈ shown, s ≠ "") :
    (entry l g o host millis statement shown failure).message =
      if shown = [] then template o else template o ++ parameterTemplate := by
  simp only [entry, Logging.record, intercalate_eq_empty_iff h]

theorem entry_args (h : ∀ s ∈ shown, s ≠ "") :
    (entry l g o host millis statement shown failure).args =
      [.text host, millis.toValue, .text statement] ++
        if shown = [] then [] else [.text (", ".intercalate shown)] := by
  simp only [entry, Logging.record, intercalate_eq_empty_iff h]

theorem entry_isProper :
    (entry l g o host millis statement shown failure).IsProper where
  args := by
    unfold entry
    dsimp only [Logging.record]
    split
    · simp [Value.isSimple_text, millis.isSimple_toValue]
    · simp [Value.isSimple_text, millis.isSimple_toValue]
  values := by simp [entry, Value.isSimple_text, millis.isSimple_toValue]
  names := by
    have hnames : ∀ name ∈ ["db_host", "latency_ms", "query_outcome"],
        name ∉ LogRecord.propertyNames := by decide
    intro e he
    refine hnames e.1 ?_
    have hmem := List.mem_map_of_mem (f := Prod.fst) he
    exact hmem
  fields := rfl

/-- The message of a query is its sentence. -/
theorem entry_text (h : ∀ s ∈ shown, s ≠ "") :
    (entry l g o host millis statement shown failure).text =
      .ok (sentence o host millis statement shown) := by
  have hproper : (entry l g o host millis statement shown failure).IsProper :=
    entry_isProper l g o host millis statement failure
  have hne : (entry l g o host millis statement shown failure).args ≠ [] := by
    rw [entry_args _ _ _ _ _ _ _ h, List.cons_append]
    exact List.cons_ne_nil _ _
  have hread : (State.between []
      (entry l g o host millis statement shown failure).args).readAll
      (entry l g o host millis statement shown failure).message.toList =
        .ok (State.between
          (sentence o host millis statement shown).toList []) := by
    rw [entry_message _ _ _ _ _ _ _ h, entry_args _ _ _ _ _ _ _ h]
    by_cases hshown : shown = []
    · rw [hshown, if_pos rfl, if_pos rfl]
      exact readAll_template o host millis statement []
    · rw [if_neg hshown, if_neg hshown, String.toList_append]
      refine (State.readAll_append_of_ok
        (readAll_template o host millis statement _) _).trans ?_
      refine (readAll_parameterTemplate _ _).trans ?_
      simp [sentence, bracketed, hshown]
  rw [hproper.text_eq, Message.pack_of_simple hproper.args,
    Message.fill_of_readAll hne hread, String.ofList_toList]

end Entry

end Recorder

end QueryJournal

import Mathlib.Data.List.Basic
import QueryJournal.Logging.Message

/-!
# Filling messages

Words are kept, and a placeholder that is just a letter is replaced by the text
or the literal of the next argument.  What such a text looks like does not
matter: its percent signs are not read again.
-/

namespace QueryJournal.Message

namespace State

variable {s t : State} {written words cs : List Char} {v : Value}
  {args : List Value}

/-- Between two placeholders of a message about a row. -/
def between (written : List Char) (args : List Value) : State :=
  ⟨written, args, none, none⟩

theorem readAll_append_of_ok (h : s.readAll cs = .ok t) (rest : List Char) :
    s.readAll (cs ++ rest) = t.readAll rest := by
  rw [readAll, List.foldlM_append]
  change s.readAll cs >>= _ = _
  rw [h]
  rfl

/-- Words without a percent sign are kept as they are. -/
theorem readAll_words (h : '%' ∉ words) (written : List Char)
    (args : List Value) :
    (between written args).readAll words =
      .ok (between (written ++ words) args) := by
  induction words generalizing written with
  | nil =>
    rw [List.append_nil]
    rfl
  | cons c words ih =>
    have hc : c ≠ '%' := fun hc => h (hc ▸ List.mem_cons_self)
    have hwords :=
      ih (fun hmem => h (List.mem_cons_of_mem c hmem)) (written ++ [c])
    have hstep : (between written args).step c =
        .ok (between (written ++ [c]) args) := by
      simp [step, between, writes, hc]
    rw [readAll, List.foldlM_cons, hstep]
    change (between (written ++ [c]) args).readAll words = _
    rw [hwords, List.append_assoc, List.singleton_append]

theorem readAll_letter
    {letter : Char} (hletter : letter = 's' ∨ letter = 'r')
    (h : Layout.standard.parts letter v = .ok ⟨none, [], cs⟩)
    (written : List Char) (args : List Value) :
    (between written (v :: args)).readAll ['%', letter] =
      .ok (between (written ++ cs) args) := by
  have hopened : (between written (v :: args)).readAll ['%', letter] =
      ((between written (v :: args)).reads .opened .standard).readLetter
        .standard letter := by
    have hstep :
        ((between written (v :: args)).reads .opened .standard).step letter =
        ((between written (v :: args)).reads .opened .standard).readLetter
          .standard letter := by
      rcases hletter with rfl | rfl
      · rfl
      · rfl
    rw [readAll, List.foldlM_cons]
    change ((between written (v :: args)).reads .opened .standard).step
      letter >>= pure = _
    rw [hstep, bind_pure]
  have hpad : Layout.standard.pad ⟨none, [], cs⟩ = cs := by
    simp [Layout.standard, Layout.pad, Layout.sign]
  rw [hopened, readLetter]
  change (Layout.standard.parts letter v >>= _) = _
  rw [h]
  change Except.ok (writes _ (Layout.standard.pad ⟨none, [], cs⟩)) = _
  rw [hpad]
  rfl

/-- A placeholder is filled with the text of the next argument. -/
theorem readAll_plain
    {text : String} (h : v.plain = .ok text) (written : List Char)
    (args : List Value) :
    (between written (v :: args)).readAll ['%', 's'] =
      .ok (between (written ++ text.toList) args) := by
  refine readAll_letter (.inl rfl) ?_ written args
  rw [Layout.parts, h]
  rfl

/-- A placeholder for a literal is filled with that of the next argument. -/
theorem readAll_literal
    {text : String} (h : v.literal = .ok text) (written : List Char)
    (args : List Value) :
    (between written (v :: args)).readAll ['%', 'r'] =
      .ok (between (written ++ text.toList) args) := by
  refine readAll_letter (.inr rfl) ?_ written args
  rw [Layout.parts, h]
  rfl

end State

variable {message : String} {args : List Value}

/-- A message whose placeholders use up the arguments. -/
theorem fill_of_readAll
    {written : List Char} (hne : args ≠ [])
    (h : (State.between [] args).readAll message.toList =
      .ok (State.between written [])) :
    fill message (.tuple args) = .ok (String.ofList written) := by
  have htruthy : (Value.tuple args).isTruthy = true := by
    cases args with
    | nil => exact absurd rfl hne
    | cons v args => rfl
  rw [fill, htruthy]
  change ((State.between [] args).readAll message.toList >>= State.finish) = _
  rw [h]
  rfl

/-- A message with a single placeholder, for a literal. -/
theorem fill_literal
    {before after text : String} {v : Value}
    (hmessage : message.toList = before.toList ++ (['%', 'r'] ++ after.toList))
    (hbefore : '%' ∉ before.toList) (hafter : '%' ∉ after.toList)
    (h : v.literal = .ok text) :
    fill message (.tuple [v]) = .ok (before ++ text ++ after) := by
  have hread : (State.between [] [v]).readAll message.toList =
      .ok (State.between (before ++ text ++ after).toList []) := by
    rw [hmessage, State.readAll_append_of_ok (State.readAll_words hbefore _ _),
      State.readAll_append_of_ok (State.readAll_literal h _ _),
      State.readAll_words hafter, List.nil_append, String.toList_append,
      String.toList_append]
  rw [fill_of_readAll (List.cons_ne_nil _ _) hread, String.ofList_toList]

end QueryJournal.Message

/-!
# Results that may be failures

What is known of a first step and of the next one if both together gave a value,
or if they failed.
-/

namespace QueryJournal

variable {ε δ α β : Type} {x : Except ε α} {next : α → Except ε β}
  {f : α → β} {g : ε → δ}

theorem eq_ok_of_toOption {a : α} (h : x.toOption = some a) : x = .ok a := by
  cases x with
  | ok b =>
    cases h
    rfl
  | error e => cases h

/-! ## One step after the other -/

theorem exists_of_bind_eq_ok {b : β} (h : (x >>= next) = .ok b) :
    ∃ a, x = .ok a ∧ next a = .ok b := by
  cases x with
  | ok a => exact ⟨a, rfl, h⟩
  | error e => cases h

theorem eq_error_or_of_bind {e : ε} (h : x.bind next = .error e) :
    x = .error e ∨ ∃ a, x = .ok a ∧ next a = .error e := by
  cases x with
  | error e' =>
    cases h
    exact .inl rfl
  | ok a => exact .inr ⟨a, rfl, h⟩

/-! ## Steps that are taken for each item -/

section Items

variable {xs : List α} {step : α → Except ε β}

theorem mapM_congr {step' : α → Except ε β} (h : ∀ x ∈ xs, step x = step' x) :
    xs.mapM step = xs.mapM step' := by
  induction xs with
  | nil => rfl
  | cons x xs ih =>
    rw [List.mapM_cons, List.mapM_cons, h x List.mem_cons_self,
      ih fun y hy => h y (List.mem_cons_of_mem x hy)]

end Items

/-! ## Values and errors that are replaced -/

theorem exists_of_map_eq_ok {b : β} (h : x.map f = .ok b) :
    ∃ a, x = .ok a ∧ f a = b := by
  cases x with
  | ok a => exact ⟨a, rfl, Except.ok.inj h⟩
  | error e => cases h

theorem map_eq_error_iff {e : ε} : x.map f = .error e ↔ x = .error e := by
  cases x with
  | ok a => exact iff_of_false nofun nofun
  | error e' =>
    change Except.error e' = .error e ↔ _
    rw [Except.error.injEq, Except.error.injEq]

theorem mapError_eq_ok_iff {a : α} : x.mapError g = .ok a ↔ x = .ok a := by
  cases x with
  | ok b =>
    change Except.ok b = .ok a ↔ _
    rw [Except.ok.injEq, Except.ok.injEq]
  | error e => exact iff_of_false nofun nofun

theorem mapError_eq_error_iff {d : δ} :
    x.mapError g = .error d ↔ ∃ e, x = .error e ∧ d = g e := by
  constructor
  · intro h
    cases x with
    | ok a => cases h
    | error e => exact ⟨e, rfl, (Except.error.inj h).symm⟩
  · rintro ⟨e, rfl, rfl⟩
    rfl

end QueryJournal

import QueryJournal.Proofs.Render.NullText
import QueryJournal.Proofs.Statement.Binding

/-!
# What reads as no value

A bound value counts as no value if it has no bytes.  None was given then, or a
text or blob that is empty.  Zeros, falsehood, the beginning of time and the
like are values of their own: they take bytes, and they are never shown as no
value, not even if their texts are cut.
-/

namespace QueryJournal

namespace Column.Holds

variable {c : Column} {v : Value} {b : BoundValue}

theorem type_eq (h : c.Holds v b) : b.type = c.type := by
  cases h with
  | null => rfl
  | value => rfl

/-- A variable has no bytes if it has no value, or one that its column takes as
empty. -/
theorem isNull_iff (h : c.Holds v b) :
    b.isNull = true ↔ v = .null ∨ c.type.TakesAsEmpty v := by
  cases h with
  | null => exact iff_of_true rfl (.inl rfl)
  | @value _ raw hv hencode =>
    rw [or_iff_right hv, ← ColumnType.encode_eq_nil_iff, hencode,
      Except.ok.injEq]
    exact List.isEmpty_iff

theorem hasSize (h : c.Holds v b) (hnull : b.isNull = false) :
    c.type.HasSize b.bytes.length := by
  cases h with
  | null => cases hnull
  | value _ hencode => exact ColumnType.hasSize_of_encode hencode

end Column.Holds

namespace Prepared

/-- Of the values that a type takes only empty texts and blobs have no bytes.
So a variable of a bound statement has no bytes, and is shown as no value,
exactly if it was given none, or an empty text or blob. -/
theorem only_missing_and_empty_values_are_null :
    (∀ (t : ColumnType) v raw, t.encode v = .ok raw →
      t.HasSize raw.length ∧ (raw = [] ↔ t.TakesAsEmpty v) ∧
        (t ∉ ColumnType.ofTexts → t ≠ .blob → 0 < raw.length)) ∧
    ∀ (p : Prepared) positional named b, (named.map Prod.fst).Nodup →
      p.bind positional named = .ok b →
      ∀ i c, p.columns[i]? = some c →
        let v := p.given positional named i c
        ∃ bound, b.values[i]? = some bound ∧ bound.type = c.type ∧
          (bound.isNull = true ↔ v = .null ∨ c.type.TakesAsEmpty v) ∧
          (bound.isNull = true → ∀ limit, bound.render limit = .ok "NULL") ∧
          (bound.isNull = false →
            c.type.HasSize bound.bytes.length ∧
              (c.type ∉ ColumnType.ofTexts → ∀ limit,
                bound.render limit ≠ .ok "NULL")) := by
  constructor
  · intro t v raw hencode
    have hsize := ColumnType.hasSize_of_encode hencode
    have hempty : raw = [] ↔ t.TakesAsEmpty v := by
      rw [← ColumnType.encode_eq_nil_iff, hencode, Except.ok.injEq]
    exact ⟨hsize, hempty, hsize.pos⟩
  · intro p positional named b hnames hbind i c hc v
    obtain ⟨bound, hbound, hholds⟩ :=
      (isBinding_of_bind hnames hbind).values.holds i c hc
    refine ⟨bound, hbound, hholds.type_eq, hholds.isNull_iff,
      fun hnull =>
        BoundValue.render_of_bytes_eq_nil (List.isEmpty_iff.mp hnull), ?_⟩
    intro hnull
    refine ⟨hholds.hasSize hnull, ?_⟩
    rw [← hholds.type_eq]
    exact fun htexts => BoundValue.render_ne_nullText hnull htexts

/-- A zero is a value, and a variable without one is none. -/
theorem only_missing_and_empty_values_are_null_of_zero :
    let p : Prepared :=
      ⟨"UPDATE t SET a = ? WHERE k = ?", [⟨"a", .varint⟩, ⟨"k", .text⟩]⟩
    ∃ b, p.bind [] [("a", .int 0)] = .ok b ∧
      (∃ zero, b.values[0]? = some zero ∧ zero.isNull = false ∧
        ∀ limit, zero.render limit ≠ .ok "NULL") ∧
      ∃ missing, b.values[1]? = some missing ∧ missing.isNull = true ∧
        ∀ limit, missing.render limit = .ok "NULL" := by
  intro p
  let b : Bound := ⟨p, [⟨some [0], .varint⟩, ⟨none, .text⟩], rfl⟩
  have hbind : p.bind [] [("a", .int 0)] = .ok b := rfl
  have hbound := only_missing_and_empty_values_are_null.2 p [] [("a", .int 0)] b
    (by decide) hbind
  refine ⟨b, hbind, ?_, ?_⟩
  · obtain ⟨zero, hzero, -, -, -, hvalue⟩ := hbound 0 ⟨"a", .varint⟩ rfl
    have hnull : zero.isNull = false := by
      cases hzero
      rfl
    exact ⟨zero, hzero, hnull, (hvalue hnull).2 (by decide)⟩
  · obtain ⟨missing, hmissing, -, hiff, hrender, -⟩ := hbound 1 ⟨"k", .text⟩ rfl
    have hnull : missing.isNull = true := hiff.mpr (.inl rfl)
    exact ⟨missing, hmissing, hnull, hrender hnull⟩

end Prepared

end QueryJournal

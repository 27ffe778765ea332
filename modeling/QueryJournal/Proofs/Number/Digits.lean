import Mathlib.Data.Nat.Notation
import Mathlib.Tactic.Ring
import QueryJournal.Number.Rounding

/-!
# Decimal digits

The digits of a number start with a zero only if the number is zero.  A number
that is filled with zeros to a width has exactly as many digits, and these
determine it.
-/

namespace QueryJournal.Number

theorem isDigit_of_mem_digits {n : ℕ} : ∀ c ∈ digits n, c.isDigit = true :=
  fun _ hc => Nat.isDigit_of_mem_toDigits (by decide) (by decide) hc

theorem not_mem_digits {c : Char} (hdigit : c.isDigit = false) (n : ℕ) :
    c ∉ digits n := by
  intro h
  rw [isDigit_of_mem_digits c h] at hdigit
  cases hdigit

theorem exists_digits_eq_cons (n : ℕ) :
    ∃ c cs, digits n = c :: cs ∧ c.isDigit = true := by
  have hpos : 0 < (digits n).length := Nat.length_toDigits_pos
  obtain ⟨c, cs, hds⟩ := List.exists_cons_of_length_pos hpos
  have hc : c ∈ digits n := by
    rw [hds]
    exact List.mem_cons_self
  exact ⟨c, cs, hds, isDigit_of_mem_digits c hc⟩

/-- No text but that of zero starts with a zero. -/
theorem head?_digits_ne_zero {n : ℕ} (hn : n ≠ 0) :
    (digits n).head? ≠ some '0' := by
  induction n using Nat.strongRecOn with
  | ind n ih =>
    rw [digits, Nat.toDigits_eq_if (by decide)]
    split
    next hsmall =>
      intro h
      exact hn (Nat.digitChar_eq_zero.mp (Option.some.inj h))
    next hlarge =>
      have hquotient := ih (n / 10) (by omega) (by omega)
      obtain ⟨c, cs, hds, -⟩ := exists_digits_eq_cons (n / 10)
      rw [hds] at hquotient
      change (digits (n / 10) ++ _).head? ≠ _
      rw [hds]
      exact hquotient

/-- The text of an integer consists of digits and possibly a minus sign. -/
theorem mem_text {n : ℤ} {c : Char} (h : c ∈ (text n).toList) :
    c = '-' ∨ c.isDigit = true := by
  cases n with
  | ofNat n =>
    rw [text, String.toList_ofList] at h
    exact .inr (isDigit_of_mem_digits c h)
  | negSucc n =>
    rw [text, String.toList_ofList] at h
    rcases List.mem_cons.mp h with hminus | hdigit
    · exact .inl hminus
    · exact .inr (isDigit_of_mem_digits c hdigit)

theorem not_mem_text {c : Char}
    (hminus : c ≠ '-') (hdigit : c.isDigit = false) (n : ℤ) :
    c ∉ (text n).toList := by
  intro h
  rcases mem_text h with rfl | hc
  · exact hminus rfl
  · rw [hdigit] at hc
    cases hc

theorem digits_injective {n k : ℕ} (h : digits n = digits k) : n = k := by
  calc
    n = Nat.ofDigitChars 10 (digits n) 0 := Nat.ofDigitChars_ten_toDigits.symm
    _ = Nat.ofDigitChars 10 (digits k) 0 := by rw [h]
    _ = k := Nat.ofDigitChars_ten_toDigits

theorem minus_cons_ne_digits (ds : List Char) (n : ℕ) :
    '-' :: ds ≠ digits n := by
  intro h
  have hminus : '-' ∈ digits n := by
    rw [← h]
    exact List.mem_cons_self
  exact not_mem_digits (by decide) n hminus

/-- Different integers have different texts. -/
theorem text_injective {n k : ℤ} (h : text n = text k) : n = k := by
  cases n with
  | ofNat n =>
    cases k with
    | ofNat k => rw [digits_injective (String.ofList_injective h)]
    | negSucc k =>
      exact absurd (String.ofList_injective h).symm (minus_cons_ne_digits _ n)
  | negSucc n =>
    cases k with
    | ofNat k =>
      exact absurd (String.ofList_injective h) (minus_cons_ne_digits _ k)
    | negSucc k =>
      have hdigits := (List.cons.inj (String.ofList_injective h)).2
      rw [Nat.succ.inj (digits_injective hdigits)]

theorem toList_padded (width n : ℕ) :
    (padded width n).toList =
      List.replicate (width - (digits n).length) '0' ++ digits n :=
  String.toList_ofList

section Filled

variable {c : Char} (hdigit : c.isDigit = false)

include hdigit

theorem not_mem_padded (width n : ℕ) : c ∉ (padded width n).toList := by
  have hzero : c ≠ '0' := by
    rintro rfl
    exact absurd hdigit (by decide)
  rw [toList_padded, List.mem_append, not_or, List.mem_replicate]
  exact ⟨fun h => hzero h.2, not_mem_digits hdigit n⟩

theorem not_mem_paddedText (hminus : c ≠ '-') (width : ℕ) (n : ℤ) :
    c ∉ (paddedText width n).toList := by
  cases n with
  | ofNat n => exact not_mem_padded hdigit width n
  | negSucc n =>
    have hsign : c ∉ "-".toList := by simpa using hminus
    rw [paddedText, String.toList_append, List.mem_append, not_or]
    exact ⟨hsign, not_mem_padded hdigit _ _⟩

end Filled

/-! ## Fixed numbers of digits -/

/-- The last `width` decimal digits of a number. -/
def lastDigits : ℕ → ℕ → List Char
  | 0, _ => []
  | width + 1, n => lastDigits width (n / 10) ++ [Nat.digitChar (n % 10)]

theorem length_lastDigits (width n : ℕ) :
    (lastDigits width n).length = width := by
  induction width generalizing n with
  | zero => rfl
  | succ width ih =>
    rw [lastDigits, List.length_append, ih, List.length_singleton]

theorem lastDigits_zero (width : ℕ) :
    lastDigits width 0 = List.replicate width '0' := by
  induction width with
  | zero => rfl
  | succ width ih =>
    rw [lastDigits, Nat.zero_div, ih, List.replicate_succ']
    rfl

theorem ofDigitChars_lastDigits (width n : ℕ) :
    Nat.ofDigitChars 10 (lastDigits width n) 0 = n % 10 ^ width := by
  induction width generalizing n with
  | zero =>
    rw [pow_zero, Nat.mod_one]
    rfl
  | succ width ih =>
    have hlast :=
      Nat.toNat_digitChar_of_lt_ten (Nat.mod_lt n (by decide : 0 < 10))
    rw [lastDigits, Nat.ofDigitChars_append, ih, Nat.ofDigitChars_cons,
      Nat.ofDigitChars_nil, hlast, pow_succ', Nat.mod_mul]
    change 10 * _ + (48 + n % 10 - 48) = _
    omega

theorem lastDigits_injective {width n k : ℕ}
    (hn : n < 10 ^ width) (hk : k < 10 ^ width)
    (h : lastDigits width n = lastDigits width k) : n = k := by
  calc
    n = n % 10 ^ width := (Nat.mod_eq_of_lt hn).symm
    _ = Nat.ofDigitChars 10 (lastDigits width n) 0 :=
      (ofDigitChars_lastDigits width n).symm
    _ = Nat.ofDigitChars 10 (lastDigits width k) 0 := by rw [h]
    _ = k % 10 ^ width := ofDigitChars_lastDigits width k
    _ = k := Nat.mod_eq_of_lt hk

/-- A field of a layout ends where its digits do. -/
theorem lastDigits_append_inj {width n k : ℕ} {rest other : List Char}
    (hn : n < 10 ^ width) (hk : k < 10 ^ width)
    (h : lastDigits width n ++ rest = lastDigits width k ++ other) :
    n = k ∧ rest = other := by
  have hlength : (lastDigits width n).length = (lastDigits width k).length := by
    rw [length_lastDigits, length_lastDigits]
  obtain ⟨hdigits, hrest⟩ := List.append_inj h hlength
  exact ⟨lastDigits_injective hn hk hdigits, hrest⟩

/-- A short number is filled with zeros up to the width. -/
theorem toList_padded_of_lt {width n : ℕ}
    (hwidth : 0 < width) (hn : n < 10 ^ width) :
    (padded width n).toList = lastDigits width n := by
  rw [toList_padded]
  induction width generalizing n with
  | zero => exact absurd hwidth (lt_irrefl 0)
  | succ width ih =>
    rw [lastDigits]
    by_cases hsmall : n < 10
    · -- the only digit is the last one
      have hdigits : digits n = [Nat.digitChar n] :=
        Nat.toDigits_of_lt_base hsmall
      rw [hdigits, Nat.div_eq_of_lt hsmall, Nat.mod_eq_of_lt hsmall,
        lastDigits_zero]
      rfl
    · have hdigits : digits n = digits (n / 10) ++ [Nat.digitChar (n % 10)] :=
        Nat.toDigits_of_base_le (by decide) (Nat.le_of_not_lt hsmall)
      have hrest : n / 10 < 10 ^ width := by
        rw [Nat.div_lt_iff_lt_mul (by decide), ← pow_succ]
        exact hn
      have hwidth' : 0 < width := by
        by_contra hnone
        rw [Nat.eq_zero_of_not_pos hnone] at hrest
        omega
      rw [← ih hwidth' hrest, hdigits, List.length_append,
        List.length_singleton, Nat.add_sub_add_right, List.append_assoc]

end QueryJournal.Number

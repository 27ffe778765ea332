import Mathlib.Data.Nat.Notation
import Mathlib.Tactic.Ring
import QueryJournal.Text.Hex

/-!
# Hexadecimal digits that are written and read

Numbers are written with digits in lower case and read back from them, whether
the digits are filled with zeros to a width or the number has as many as it
needs.
-/

namespace QueryJournal.Text.Hex

/-- The digits that are written. -/
def lowerDigits : List Char :=
  "0123456789abcdef".toList

theorem digitChar_mem {n : ℕ} (h : n < 16) : Nat.digitChar n ∈ lowerDigits := by
  have hall : ∀ k < 16, Nat.digitChar k ∈ lowerDigits := by decide
  exact hall n h

theorem value?_digitChar {n : ℕ} (h : n < 16) :
    value? (Nat.digitChar n) = some n := by
  have hall : ∀ k < 16, value? (Nat.digitChar k) = some k := by decide
  exact hall n h

theorem read?_append (start : ℕ) (ds es : List Char) :
    read? start (ds ++ es) = (read? start ds).bind fun n => read? n es := by
  induction ds generalizing start with
  | nil => rfl
  | cons c ds ih =>
    rw [List.cons_append, read?, read?]
    cases hvalue : value? c with
    | none => rfl
    | some v => exact ih _

theorem read?_digitChar (start : ℕ) {n : ℕ} (h : n < 16) :
    read? start [Nat.digitChar n] = some (start * 16 + n) := by
  rw [read?, value?_digitChar h]
  rfl

/-! ## Fixed numbers of digits -/

theorem length_digits (width n : ℕ) : (digits width n).length = width := by
  induction width generalizing n with
  | zero => rfl
  | succ width ih => rw [digits, List.length_append, ih, List.length_singleton]

theorem mem_digits {width n : ℕ} {c : Char} (h : c ∈ digits width n) :
    c ∈ lowerDigits := by
  induction width generalizing n with
  | zero => exact absurd h List.not_mem_nil
  | succ width ih =>
    rw [digits, List.mem_append, List.mem_singleton] at h
    rcases h with hfront | rfl
    · exact ih hfront
    · exact digitChar_mem (Nat.mod_lt n (by decide))

theorem read?_digits (start width n : ℕ) :
    read? start (digits width n) =
      some (start * 16 ^ width + n % 16 ^ width) := by
  induction width generalizing n with
  | zero =>
    rw [pow_zero, mul_one, Nat.mod_one]
    rfl
  | succ width ih =>
    have hlast := read?_digitChar (start * 16 ^ width + n / 16 % 16 ^ width)
      (Nat.mod_lt n (by decide : 0 < 16))
    rw [digits, read?_append, ih, Option.bind_some, hlast,
      pow_succ', Nat.mod_mul]
    congr 1
    ring

/-! ## As many digits as needed -/

theorem mem_toDigits {n : ℕ} {c : Char} (h : c ∈ Nat.toDigits 16 n) :
    c ∈ lowerDigits := by
  induction n using Nat.strongRecOn with
  | ind n ih =>
    rw [Nat.toDigits_eq_if (by decide)] at h
    split at h
    next hsmall =>
      rw [List.mem_singleton.mp h]
      exact digitChar_mem hsmall
    next hlarge =>
      rcases List.mem_append.mp h with hfront | hlast
      · exact ih (n / 16) (by omega) hfront
      · rw [List.mem_singleton.mp hlast]
        exact digitChar_mem (Nat.mod_lt n (by decide))

theorem read?_toDigits (n : ℕ) : read? 0 (Nat.toDigits 16 n) = some n := by
  induction n using Nat.strongRecOn with
  | ind n ih =>
    rw [Nat.toDigits_eq_if (by decide)]
    split
    next hsmall => rw [read?_digitChar 0 hsmall, Nat.zero_mul, Nat.zero_add]
    next hlarge =>
      rw [read?_append, ih (n / 16) (by omega), Option.bind_some,
        read?_digitChar _ (Nat.mod_lt n (by decide)), Nat.div_add_mod']

end QueryJournal.Text.Hex

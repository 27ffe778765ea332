import QueryJournal.Proofs.Text.Hex
import QueryJournal.Proofs.Wire.BigEndian
import QueryJournal.Wire.Uuid

/-!
# UUIDs that are written and read

The number of a UUID is read back from its bytes and from its text.  Of all that
reading leaves out, the text holds dashes only, and its digits are neither
blanks nor signs nor digits of another script.
-/

namespace QueryJournal.Uuid

open Text.Hex (lowerDigits)

/-! ## Bytes -/

theorem toBytes_of_ofBytes? {raw : Bytes} {u : Uuid}
    (h : ofBytes? raw = some u) :
    u.toBytes = raw := by
  rw [ofBytes?] at h
  split at h
  next hlength =>
    cases h
    exact BigEndian.ofNat_bitVec hlength
  next => cases h

theorem exists_ofBytes?_iff (raw : Bytes) :
    (∃ u, ofBytes? raw = some u) ↔ raw.length = 16 := by
  rw [ofBytes?]
  by_cases hlength : raw.length = 16
  · simp [hlength]
  · simp [hlength]

/-! ## Digits -/

section Digits

variable {cs : List Char} (h : ∀ c ∈ cs, c ∈ lowerDigits)

include h

theorem readSpaced?_of_digits (n : ℕ) :
    readSpaced? n cs = Text.Hex.read? n cs := by
  induction cs generalizing n with
  | nil => rfl
  | cons c cs ih =>
    have hc := h c List.mem_cons_self
    rw [readSpaced?, Text.Hex.read?]
    · cases Text.Hex.value? c with
      | none => rfl
      | some v => exact ih (fun d hd => h d (List.mem_cons_of_mem c hd)) _
    · rintro d rest rfl
      exact absurd hc (by decide)

theorem readUnsigned?_of_digits (hne : cs ≠ []) :
    readUnsigned? cs = Text.Hex.read? 0 cs := by
  obtain ⟨c, rest, rfl⟩ := List.exists_cons_of_ne_nil hne
  have hrest : ∀ d ∈ rest, d ∈ lowerDigits :=
    fun d hd => h d (List.mem_cons_of_mem c hd)
  rw [readUnsigned?, Text.Hex.read?]
  · cases Text.Hex.value? c with
    | none => rfl
    | some v =>
      change readSpaced? v rest = Text.Hex.read? (0 * 16 + v) rest
      rw [Nat.zero_mul, Nat.zero_add]
      exact readSpaced?_of_digits hrest v
  -- no second digit is the letter of a prefix
  · rintro d more - rfl
    exact absurd (hrest _ List.mem_cons_self) (by decide)
  · rintro d more - rfl
    exact absurd (hrest _ List.mem_cons_self) (by decide)

theorem map_plainDigit_of_digits : cs.map Text.plainDigit = cs := by
  have hall : lowerDigits.all (fun c => Text.plainDigit c == c) = true := by
    decide
  calc
    cs.map Text.plainDigit = cs.map id := by
      apply List.map_congr_left
      intro c hc
      exact eq_of_beq (List.all_eq_true.mp hall c (h c hc))
    _ = cs := List.map_id cs

theorem trimWhere_of_digits : Text.trimWhere Text.isNumberBlank cs = cs := by
  have hall : lowerDigits.all (fun c => !Text.isNumberBlank c) = true := by
    decide
  apply Text.trimWhere_of_forall
  intro c hc
  exact (Bool.not_eq_true' _).mp (List.all_eq_true.mp hall c (h c hc))

theorem filter_of_digits : cs.filter (· ≠ '-') = cs := by
  have hall : lowerDigits.all (fun c => decide (c ≠ '-')) = true := by decide
  exact List.filter_eq_self.mpr fun c hc => List.all_eq_true.mp hall c (h c hc)

theorem readInteger?_of_digits (hne : cs ≠ []) :
    readInteger? cs = (Text.Hex.read? 0 cs).map fun n : ℕ => (n : ℤ) := by
  rw [readInteger?, map_plainDigit_of_digits h, trimWhere_of_digits h]
  split
  next rest => exact absurd (h '-' List.mem_cons_self) (by decide)
  next rest => exact absurd (h '+' List.mem_cons_self) (by decide)
  next =>
    rw [readUnsigned?_of_digits h hne]
    cases Text.Hex.read? 0 cs with
    | none => rfl
    | some n => rfl

end Digits

/-! ## The text -/

theorem mem_text {u : Uuid} {c : Char} (h : c ∈ u.text.toList) :
    c = '-' ∨ c ∈ lowerDigits := by
  have hdigits : ∀ n, c ∈ Text.Hex.digits 32 n → c ∈ lowerDigits :=
    fun n hc => Text.Hex.mem_digits hc
  rw [text, String.toList_ofList] at h
  simp only [List.mem_append, List.mem_cons] at h
  rcases h with (((hc | rfl | hc) | rfl | hc) | rfl | hc) | rfl | hc
  · exact .inr (hdigits _ (List.mem_of_mem_take hc))
  · exact .inl rfl
  · exact .inr (hdigits _ (List.mem_of_mem_drop (List.mem_of_mem_take hc)))
  · exact .inl rfl
  · exact .inr (hdigits _ (List.mem_of_mem_drop (List.mem_of_mem_take hc)))
  · exact .inl rfl
  · exact .inr (hdigits _ (List.mem_of_mem_drop (List.mem_of_mem_take hc)))
  · exact .inl rfl
  · exact .inr (hdigits _ (List.mem_of_mem_drop hc))

theorem filter_text (u : Uuid) :
    u.text.toList.filter (· ≠ '-') = Text.Hex.digits 32 u.value.toNat := by
  have hdash : ∀ cs : List Char,
      ('-' :: cs).filter (· ≠ '-') = cs.filter (· ≠ '-') :=
    fun cs => List.filter_cons_of_neg (by decide)
  have hdigits : ∀ c ∈ Text.Hex.digits 32 u.value.toNat, c ∈ lowerDigits :=
    fun c hc => Text.Hex.mem_digits hc
  rw [text, String.toList_ofList]
  generalize Text.Hex.digits 32 u.value.toNat = ds at hdigits ⊢
  calc
    _ = (ds.take 8 ++ (ds.drop 8).take 4 ++ (ds.drop 12).take 4 ++
      (ds.drop 16).take 4 ++
          ds.drop 20).filter (· ≠ '-') := by
            simp only [List.filter_append, hdash]
    _ = ds.filter (· ≠ '-') := by
      rw [← List.take_add, ← List.take_add, ← List.take_add,
        List.take_append_drop]
    _ = ds := filter_of_digits hdigits

theorem withoutFrom_of_not_mem {c : Char} {word cs : List Char} (h : c ∉ cs) :
    withoutFrom (c :: word) 0 cs = cs := by
  induction cs with
  | nil => rfl
  | cons d cs ih =>
    rw [List.mem_cons, not_or] at h
    have hprefix : (c :: word).isPrefixOf (d :: cs) = false := by
      simp [List.isPrefixOf, h.1]
    rw [withoutFrom, hprefix, if_neg Bool.false_ne_true, ih h.2]

theorem ofText?_text (u : Uuid) : ofText? u.text = some u := by
  have habsent : 'u' ∉ u.text.toList := by
    intro hmem
    rcases mem_text hmem with h | h
    · exact absurd h (by decide)
    · exact absurd h (by decide)
  have hbraces : ∀ c ∈ u.text.toList, (c == '\x7b' || c == '\x7d') = false := by
    intro c hc
    rcases mem_text hc with rfl | hdigit
    · rfl
    · have hall : lowerDigits.all
          (fun c => !(c == '\x7b' || c == '\x7d')) = true := by decide
      exact (Bool.not_eq_true' _).mp (List.all_eq_true.mp hall c hdigit)
  have hwithout : without "uuid:"
      (without "urn:" u.text.toList) = u.text.toList := by
    have hurn : without "urn:" u.text.toList = u.text.toList :=
      withoutFrom_of_not_mem habsent
    rw [hurn]
    exact withoutFrom_of_not_mem habsent
  have hne : Text.Hex.digits 32 u.value.toNat ≠ [] := by
    rw [← List.length_pos_iff, Text.Hex.length_digits]
    decide
  have hvalue : u.value.toNat < 16 ^ 32 := u.value.isLt
  rw [ofText?, hwithout, Text.trimWhere_of_forall hbraces, filter_text,
    if_neg (by rw [Text.Hex.length_digits]; decide),
    readInteger?_of_digits (fun c hc => Text.Hex.mem_digits hc) hne,
    Text.Hex.read?_digits, Nat.zero_mul, Nat.zero_add, Nat.mod_eq_of_lt hvalue]
  have hrange : 0 ≤ (u.value.toNat : ℤ) ∧
      (u.value.toNat : ℤ) < (Nat.pow 2 128 : ℕ) :=
    ⟨Int.natCast_nonneg _, Int.ofNat_lt.mpr u.value.isLt⟩
  rw [Option.map_some, Option.bind_eq_bind, Option.bind_some, if_pos hrange,
    Int.toNat_natCast, BitVec.ofNat_toNat, BitVec.setWidth_eq]

end QueryJournal.Uuid

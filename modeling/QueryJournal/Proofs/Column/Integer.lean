import QueryJournal.Column.Decode
import QueryJournal.Column.Encode
import QueryJournal.Proofs.Number.Decimals
import QueryJournal.Proofs.Wire.BigEndian

/-!
# Columns of integers

An integer column of fixed size takes exactly the integers in the range of two's
complement and exactly the bytes of its size, and the two determine each other.
A column of integers of any size takes all integers and all bytes.  What is
written is the shortest form of the integer, or that form with its sign repeated
in front, and it is printed in decimal.
-/

namespace QueryJournal

theorem Number.text_eq_toString (v : ℤ) : Number.text v = toString v := by
  rw [Int.toString_eq_repr]
  cases v with
  | ofNat n => rfl
  | negSucc n =>
    change String.ofList (['-'] ++ Number.digits (n + 1)) =
      "-" ++ Nat.repr (n + 1)
    rw [String.ofList_append, Nat.repr_eq_ofList_toDigits]
    rfl

namespace ColumnType

/-- The number of bytes of an integer type that has a fixed one. -/
def integerWidth? : ColumnType → Option ℕ
  | .tinyint => some 1
  | .smallint => some 2
  | .int => some 4
  | .bigint | .counter => some 8
  | _ => none

section Fixed

variable {t : ColumnType} {width : ℕ} {raw : Bytes} {v : ℤ}
  (ht : t.integerWidth? = some width)

include ht

theorem integerWidth_pos : 0 < width := by
  cases t <;> simp [integerWidth?] at ht <;> omega

theorem encode_eq_encodeFixed (x : Value) :
    encode t x = encodeFixed width x := by
  cases t <;> simp [integerWidth?] at ht <;> subst ht <;> rfl

theorem decode_eq_decodeFixed (raw : Bytes) :
    decode t raw = decodeFixed width raw := by
  cases t <;> simp [integerWidth?] at ht <;> subst ht <;> rfl

theorem print_eq_of_integerWidth (raw : Bytes) :
    print t raw = (decode t raw >>= fun x => x.plain.forCodec) := by
  cases t <;> simp [integerWidth?] at ht <;> rfl

theorem print_of_decode_eq_int (h : decode t raw = .ok (.int v)) :
    print t raw = .ok (toString v) := by
  rw [print_eq_of_integerWidth ht, h, ← Number.text_eq_toString]
  rfl

theorem encode_int_eq :
    encode t (.int v) =
      if BigEndian.fits width v = true then .ok (BigEndian.ofInt width v)
      else .error .packing :=
  encode_eq_encodeFixed ht _

theorem exists_encode_int_iff :
    (∃ raw, encode t (.int v) = .ok raw) ↔
      -2 ^ (8 * width - 1) ≤ v ∧ v < 2 ^ (8 * width - 1) := by
  rw [← BigEndian.fits_iff_range (integerWidth_pos ht), encode_int_eq ht]
  by_cases hfits : BigEndian.fits width v = true
  · simp [hfits]
  · simp [hfits]

theorem exists_decode_iff :
    (∃ x, decode t raw = .ok x) ↔ raw.length = width := by
  rw [decode_eq_decodeFixed ht, decodeFixed]
  by_cases hlength : raw.length = width
  · simp [hlength]
  · simp [hlength]

/-- The bytes of an integer are read as that integer. -/
theorem decode_of_encode_int (h : encode t (.int v) = .ok raw) :
    raw.length = width ∧ decode t raw = .ok (.int v) := by
  rw [encode_int_eq ht] at h
  split at h
  next hfits =>
    cases h
    have hlength := BigEndian.length_ofInt width v
    refine ⟨hlength, ?_⟩
    rw [decode_eq_decodeFixed ht, decodeFixed, if_pos hlength,
      BigEndian.toInt_ofInt hfits]
  next => cases h

/-- The integer that bytes stand for is written as those bytes. -/
theorem encode_of_decode {x : Value} (h : decode t raw = .ok x) :
    ∃ v, x = .int v ∧ encode t x = .ok raw := by
  have hlength := (exists_decode_iff ht).mp ⟨x, h⟩
  rw [decode_eq_decodeFixed ht, decodeFixed, if_pos hlength] at h
  cases h
  refine ⟨_, rfl, ?_⟩
  rw [encode_int_eq ht, ← hlength, if_pos (BigEndian.fits_toInt raw),
    BigEndian.ofInt_toInt]

end Fixed

theorem print_varint {v : ℤ} {raw : Bytes} (hraw : BigEndian.toInt raw = v)
    (hv : v.natAbs < 10 ^ Number.longestText) :
    print .varint raw = .ok (toString v) := by
  have hshort : Number.digitCount v.natAbs ≤ Number.longestText :=
    (Nat.length_toDigits_le_iff (by decide) (by decide)).mpr hv
  change printVarint raw = _
  rw [printVarint, hraw, if_neg (Nat.not_lt.mpr hshort),
    Number.text_eq_toString]

/-- Columns of integers take exactly the integers of their range and the bytes
of their size, which determine each other.  Integers of any size are written in
the shortest form, the least integer of a length with its sign repeated in front
of it. -/
theorem integers_and_bytes_correspond :
    (∀ t width, integerWidth? t = some width →
      (∀ v : ℤ,
        ((∃ raw, encode t (.int v) = .ok raw) ↔
          -2 ^ (8 * width - 1) ≤ v ∧ v < 2 ^ (8 * width - 1)) ∧
        ∀ raw, encode t (.int v) = .ok raw →
          raw.length = width ∧ decode t raw = .ok (.int v) ∧
          print t raw = .ok (toString v)) ∧
      ∀ raw,
        ((∃ x, decode t raw = .ok x) ↔ raw.length = width) ∧
        ∀ x, decode t raw = .ok x → ∃ v, x = .int v ∧ encode t x = .ok raw) ∧
    (∀ v : ℤ, ∃ raw, encode .varint (.int v) = .ok raw ∧
      decode .varint raw = .ok (.int v) ∧
      ((∀ k, 0 < k → v ≠ -2 ^ (8 * k - 1)) → BigEndian.IsShortest v raw) ∧
      (∀ k, 0 < k → v = -2 ^ (8 * k - 1) →
        ∃ shortest, BigEndian.IsShortest v shortest ∧ raw = 0xff :: shortest) ∧
      (v.natAbs < 10 ^ Number.longestText →
        print .varint raw = .ok (toString v))) ∧
    ∀ raw, ∃ v, decode .varint raw = .ok (.int v) := by
  refine ⟨?_, ?_, fun raw => ⟨_, rfl⟩⟩
  · intro t width ht
    constructor
    · intro v
      refine ⟨exists_encode_int_iff ht, ?_⟩
      intro raw hraw
      obtain ⟨hlength, hdecode⟩ := decode_of_encode_int ht hraw
      exact ⟨hlength, hdecode, print_of_decode_eq_int ht hdecode⟩
    · intro raw
      exact ⟨exists_decode_iff ht, fun x hx => encode_of_decode ht hx⟩
  · intro v
    have hstands := BigEndian.toInt_ofIntAny v
    refine ⟨BigEndian.ofIntAny v, rfl, ?_, BigEndian.isShortest_ofIntAny, ?_,
      print_varint hstands⟩
    · change Except.ok (Value.int _) = _
      rw [hstands]
    · rintro k hk rfl
      exact ⟨_, BigEndian.isShortest_least hk, BigEndian.ofIntAny_least hk⟩

/-- The least integer of one byte takes one byte of its own type and two of any
size. -/
theorem integers_and_bytes_correspond_of_least :
    (decode .tinyint [0x80] = .ok (.int (-128)) ∧
      print .tinyint [0x80] = .ok "-128" ∧
      encode .tinyint (.int (-128)) = .ok [0x80]) ∧
    ∃ shortest, BigEndian.IsShortest (-128) shortest ∧
      encode .varint (.int (-128)) = .ok (0xff :: shortest) := by
  constructor
  · obtain ⟨hencode, hdecode⟩ := integers_and_bytes_correspond.1 .tinyint 1 rfl
    obtain ⟨-, hdecoded, hprinted⟩ := (hencode (-128)).2 [0x80] (by decide)
    obtain ⟨-, -, hencoded⟩ := (hdecode [0x80]).2 _ hdecoded
    exact ⟨hdecoded, hprinted, hencoded⟩
  · obtain ⟨raw, hraw, -, -, hleast, -⟩ :=
      integers_and_bytes_correspond.2.1 (-128)
    obtain ⟨shortest, hshortest, rfl⟩ := hleast 1 (by decide) (by decide)
    exact ⟨shortest, hshortest, hraw⟩

end ColumnType

end QueryJournal

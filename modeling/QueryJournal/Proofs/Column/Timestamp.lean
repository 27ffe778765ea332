import Mathlib.Data.Rat.Floor
import QueryJournal.Column.Decode
import QueryJournal.Column.Encode
import QueryJournal.Proofs.Time.Moment
import QueryJournal.Proofs.Wire.BigEndian

/-!
# Columns of timestamps

A timestamp is written as the whole milliseconds since 1970-01-01T00:00 in
universal time, rounded down also for moments before that.  The bytes of a
millisecond in the years that have up to four digits are read as that
millisecond exactly, and printed in a fixed layout; all other bytes are refused.
-/

namespace QueryJournal.ColumnType

open Moment

variable {t : Moment} {raw : Bytes}

/-! ## Writing -/

theorem toMillis_eq_floor (t : Moment) :
    t.toMillis = ⌊(t.toMicros : ℚ) / 1000⌋ :=
  (Rat.floor_intCast_div_natCast t.toMicros 1000).symm

theorem toMillis_le {u : Moment} (h : t.toMicros ≤ u.toMicros) :
    t.toMillis ≤ u.toMillis := by
  rw [toMillis, toMillis]
  omega

theorem encode_moment_eq (ht : t.IsValid) :
    encode .timestamp (.moment t) = .ok (BigEndian.ofInt 8 t.toMillis) ∧
      BigEndian.toInt (BigEndian.ofInt 8 t.toMillis) = t.toMillis := by
  have hrange := ht.toMillis_range
  have hfits : BigEndian.fits 8 t.toMillis = true := by
    rw [BigEndian.fits_iff]
    omega
  constructor
  · change encodeFixed 8 (.int t.toMillis) = _
    rw [encodeFixed]
    exact if_pos hfits
  · exact BigEndian.toInt_ofInt hfits

theorem toInt_of_encode_moment (ht : t.IsValid)
    (h : encode .timestamp (.moment t) = .ok raw) :
    raw.length = 8 ∧ BigEndian.toInt raw = t.toMillis := by
  obtain ⟨hencode, hstands⟩ := encode_moment_eq ht
  rw [hencode] at h
  cases h
  exact ⟨BigEndian.length_ofInt 8 _, hstands⟩

/-! ## Reading -/

theorem decodeTimestamp_eq_ok_iff :
    decodeTimestamp raw = .ok t ↔
      raw.length = 8 ∧ t.isReal = true ∧ t.offset = some 0 ∧
        t.toMicros = BigEndian.toInt raw * 1000 := by
  rw [← ofMillis?_eq_some_iff, decodeTimestamp]
  by_cases hlength : raw.length = 8
  · rw [if_pos hlength]
    cases hmoment : ofMillis? (BigEndian.toInt raw) with
    | none => simp
    | some u => simp [hlength]
  · simp [hlength]

theorem exists_decodeTimestamp_iff :
    (∃ t, decodeTimestamp raw = .ok t) ↔
      raw.length = 8 ∧ -62135596800000 ≤ BigEndian.toInt raw ∧
        BigEndian.toInt raw ≤ 253402300799999 := by
  simp only [decodeTimestamp_eq_ok_iff, exists_and_left,
    ← ofMillis?_eq_some_iff, exists_ofMillis?_iff]

theorem decode_timestamp_eq_ok_iff {x : Value} :
    decode .timestamp raw = .ok x ↔
      ∃ t, decodeTimestamp raw = .ok t ∧ x = .moment t := by
  change (decodeTimestamp raw).map Value.moment = .ok x ↔ _
  cases hmoment : decodeTimestamp raw with
  | error fault => simp [Except.map]
  | ok t => simp [Except.map, eq_comm]

theorem print_timestamp_eq_ok_iff {s : String} :
    print .timestamp raw = .ok s ↔
      ∃ t, decodeTimestamp raw = .ok t ∧ s = t.isoText := by
  change (decodeTimestamp raw).map millisText = .ok s ↔ _
  cases hmoment : decodeTimestamp raw with
  | error fault => simp [Except.map]
  | ok t =>
    obtain ⟨-, hreal, hzone, -⟩ := decodeTimestamp_eq_ok_iff.mp hmoment
    simp [Except.map, millisText_eq_isoText hreal hzone, eq_comm]

/-- The moment that bytes stand for is written as those bytes. -/
theorem encode_of_decodeTimestamp (h : decodeTimestamp raw = .ok t) :
    encode .timestamp (.moment t) = .ok raw := by
  obtain ⟨hlength, hreal, hzone, hmicros⟩ := decodeTimestamp_eq_ok_iff.mp h
  have hvalid : t.IsValid := by
    refine ⟨hreal, ?_⟩
    rw [hzone]
    simp
  have hmillis : t.toMillis = BigEndian.toInt raw := by
    rw [toMillis, hmicros]
    omega
  rw [(encode_moment_eq hvalid).1, hmillis, ← hlength, BigEndian.ofInt_toInt]

theorem print_timestamp_injective {other : Bytes} {s : String}
    (hraw : print .timestamp raw = .ok s)
    (hother : print .timestamp other = .ok s) :
    raw = other := by
  obtain ⟨t, ht, rfl⟩ := print_timestamp_eq_ok_iff.mp hraw
  obtain ⟨u, hu, htext⟩ := print_timestamp_eq_ok_iff.mp hother
  obtain ⟨htLength, htReal, htZone, htMicros⟩ := decodeTimestamp_eq_ok_iff.mp ht
  obtain ⟨huLength, huReal, huZone, huMicros⟩ := decodeTimestamp_eq_ok_iff.mp hu
  have hmillis :=
    toMillis_eq_of_isoText_eq htReal huReal (htZone.trans huZone.symm) htext
  apply BigEndian.toInt_injective (htLength.trans huLength.symm)
  rw [toMillis, toMillis] at hmillis
  omega

/-- A moment is read back without the part of a millisecond that it has. -/
theorem exists_decode_of_encode_moment (ht : t.IsValid)
    (h : encode .timestamp (.moment t) = .ok raw)
    (hlow : -62135596800000 ≤ BigEndian.toInt raw)
    (hhigh : BigEndian.toInt raw ≤ 253402300799999) :
    ∃ u, decode .timestamp raw = .ok (.moment u) ∧ u.isReal = true ∧
      u.offset = some 0 ∧
      u.toMicros = t.toMicros - t.toMicros % 1000 := by
  obtain ⟨hlength, hstands⟩ := toInt_of_encode_moment ht h
  obtain ⟨u, hu⟩ := exists_decodeTimestamp_iff.mpr ⟨hlength, hlow, hhigh⟩
  obtain ⟨-, hreal, hzone, hmicros⟩ := decodeTimestamp_eq_ok_iff.mp hu
  refine ⟨u, decode_timestamp_eq_ok_iff.mpr ⟨u, hu, rfl⟩, hreal, hzone, ?_⟩
  rw [hmicros, hstands, toMillis]
  omega

/-- Moments are written as their milliseconds, rounded down, and the bytes of
milliseconds within the calendar are read and printed as exactly those, where
the days are those that the calendar counts from 1970-01-01. -/
theorem timestamps_are_floored_to_milliseconds :
    (Calendar.Date.toDays ⟨1970, 1, 1⟩ = 0 ∧
      ∀ d : Calendar.Date, d.isReal = true → d.next.toDays = d.toDays + 1) ∧
    (∀ t : Moment, t.IsValid →
      (∃ raw, encode .timestamp (.moment t) = .ok raw) ∧
      ∀ raw, encode .timestamp (.moment t) = .ok raw →
        raw.length = 8 ∧ BigEndian.toInt raw = ⌊(t.toMicros : ℚ) / 1000⌋ ∧
        (∀ u raw', u.IsValid → encode .timestamp (.moment u) = .ok raw' →
          t.toMicros ≤ u.toMicros →
          BigEndian.toInt raw ≤ BigEndian.toInt raw') ∧
        (-62135596800000 ≤ BigEndian.toInt raw →
          BigEndian.toInt raw ≤ 253402300799999 →
          ∃ u, decode .timestamp raw = .ok (.moment u) ∧ u.isReal = true ∧
            u.offset = some 0 ∧
            u.toMicros = t.toMicros - t.toMicros % 1000)) ∧
    ∀ raw,
      ((∃ x, decode .timestamp raw = .ok x) ↔
        raw.length = 8 ∧ -62135596800000 ≤ BigEndian.toInt raw ∧
          BigEndian.toInt raw ≤ 253402300799999) ∧
      (∀ x, decode .timestamp raw = .ok x →
        ∃ t, x = .moment t ∧ t.isReal = true ∧ t.offset = some 0 ∧
          t.toMicros = BigEndian.toInt raw * 1000 ∧
          encode .timestamp x = .ok raw ∧
          print .timestamp raw = .ok t.isoText) ∧
      ∀ other s, print .timestamp raw = .ok s → print .timestamp other = .ok s →
      raw = other := by
  refine ⟨⟨by decide, fun d hd => Calendar.toDays_next hd⟩, ?_, ?_⟩
  · intro t ht
    refine ⟨⟨_, (encode_moment_eq ht).1⟩, ?_⟩
    intro raw hraw
    obtain ⟨hlength, hstands⟩ := toInt_of_encode_moment ht hraw
    refine ⟨hlength, by rw [hstands,
        toMillis_eq_floor], ?_, exists_decode_of_encode_moment ht hraw⟩
    intro u raw' hu hraw' hle
    rw [hstands, (toInt_of_encode_moment hu hraw').2]
    exact toMillis_le hle
  · intro raw
    refine ⟨?_, ?_, fun other s => print_timestamp_injective⟩
    · rw [← exists_decodeTimestamp_iff]
      simp [decode_timestamp_eq_ok_iff]
    · intro x hx
      obtain ⟨t, ht, rfl⟩ := decode_timestamp_eq_ok_iff.mp hx
      obtain ⟨-, hreal, hzone, hmicros⟩ := decodeTimestamp_eq_ok_iff.mp ht
      exact ⟨t, rfl, hreal, hzone, hmicros, encode_of_decodeTimestamp ht,
        print_timestamp_eq_ok_iff.mpr ⟨t, ht, rfl⟩⟩

/-- The last microsecond before 1970 belongs to the millisecond before it. -/
theorem timestamps_are_floored_to_milliseconds_of_eve :
    ∃ raw u, encode .timestamp
      (.moment ⟨⟨1969, 12, 31⟩, 23, 59, 59, 999999, none⟩) = .ok raw ∧
      BigEndian.toInt raw = -1 ∧ decode .timestamp raw = .ok (.moment u) ∧
      u.toMicros = -1000 ∧
      print .timestamp raw = .ok "1969-12-31T23:59:59.999+00:00" := by
  obtain ⟨-, hwrite, hread⟩ := timestamps_are_floored_to_milliseconds
  have hvalid : IsValid ⟨⟨1969, 12, 31⟩, 23, 59, 59, 999999, none⟩ :=
    ⟨by decide, by simp⟩
  obtain ⟨⟨raw, hraw⟩, hbytes⟩ := hwrite _ hvalid
  obtain ⟨-, hfloor, -, hback⟩ := hbytes raw hraw
  have hstands : BigEndian.toInt raw = -1 := by
    rw [hfloor, ← toMillis_eq_floor]
    decide
  obtain ⟨u, hu, hreal, hzone, hmicros⟩ := hback (by omega) (by omega)
  obtain ⟨-, hprint, -⟩ := hread raw
  obtain ⟨v, hv, -, -, -, -, htext⟩ := hprint _ hu
  cases hv
  have hmicros' : u.toMicros = -1000 := by
    rw [hmicros]
    decide
  refine ⟨raw, u, hraw, hstands, hu, hmicros', ?_⟩
  rw [htext, ← ofMicros_toMicros hreal hzone, hmicros']
  decide +kernel

end QueryJournal.ColumnType

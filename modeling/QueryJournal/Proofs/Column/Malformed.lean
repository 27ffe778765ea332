import QueryJournal.Proofs.Column.Decimal
import QueryJournal.Proofs.Column.Integer
import QueryJournal.Proofs.Column.Single
import QueryJournal.Proofs.Column.Text
import QueryJournal.Proofs.Column.Timestamp
import QueryJournal.Proofs.Results
import QueryJournal.Render.Parameter

/-!
# Bytes that are no value of a column

The bytes that a column type refuses are described here type by type, together
with the fault that they are refused for, and without the codecs.  Printing a
bound value fails on these bytes and on no others, with one class of error that
names the type and the number of bytes.  The absence of a value is printed
whatever the type is.
-/

namespace QueryJournal

theorem Moment.exists_ofMillis?_iff_year (n : ℤ) :
    (∃ t, ofMillis? n = some t) ↔
      1 ≤ (ofMicros (n * 1000)).date.year ∧
      (ofMicros (n * 1000)).date.year ≤ 9999 := by
  have hyear :=
    Calendar.year_range_iff (Calendar.isReal_ofDays (n * 1000 / dayLength))
  rw [Calendar.toDays_ofDays] at hyear
  rw [exists_ofMillis?_iff]
  refine Iff.trans ?_ hyear.symm
  rw [dayLength]
  omega

theorem Binary.contains_ofBits (bits : ℕ) :
    Format.single.Contains (ofBits .single bits) := by
  cases h : ofBits .single bits with
  | finite negative m q => exact holds_of_ofBits_eq h
  | infinity negative => trivial
  | nan negative => trivial

namespace ColumnType

open Decimal

/-- The bytes are no decimal: the first four tell how many places the number in
the others has, which must be few enough for scaling, and the number must not be
too large when it is rounded to twenty-eight digits. -/
inductive MalformedDecimal (raw : Bytes) : CodecFault → Prop
  | short (h : raw.length < 4) : MalformedDecimal raw .packing
  | far (hlength : 4 ≤ raw.length)
      (h : 2000054 < (BigEndian.toInt (raw.take 4)).natAbs) :
      MalformedDecimal raw .decimalInvalid
  | large {places unscaled : ℤ} {y : Scientific} (hlength : 4 ≤ raw.length)
      (hplaces : BigEndian.toInt (raw.take 4) = places)
      (hnear : places.natAbs ≤ 2000054)
      (hunscaled : BigEndian.toInt (raw.drop 4) = unscaled)
      (hzero : unscaled ≠ 0)
      (hrounding : standard.IsRounding
        (Scientific.value ⟨unscaled.natAbs, -places⟩) y)
      (h : 999999 < adjusted y.coefficient y.exponent) :
      MalformedDecimal raw .decimalOverflow

/-- The bytes are no value of the type that can be printed, and the fault says
why. -/
def Malformed (t : ColumnType) (raw : Bytes) (fault : CodecFault) : Prop :=
  match t with
  | .ascii => fault = .malformedText ∧ ∃ b ∈ raw, 0x80 ≤ b
  | .text | .varchar => fault = .malformedText ∧ ¬raw.toByteArray.IsValidUTF8
  | .tinyint => fault = .packing ∧ raw.length ≠ 1
  | .smallint => fault = .packing ∧ raw.length ≠ 2
  | .int => fault = .packing ∧ raw.length ≠ 4
  | .bigint | .counter | .double => fault = .packing ∧ raw.length ≠ 8
  | .float =>
    fault = .packing ∧ raw.length ≠ 4 ∨
      fault = .overflow ∧ raw.length = 4 ∧
        ¬(Binary.ofBits .single (BigEndian.toNat raw)).HasSingleText
  | .timestamp =>
    fault = .packing ∧ raw.length ≠ 8 ∨
      fault = .overflow ∧ raw.length = 8 ∧
        ¬(1 ≤ (Moment.ofMicros (BigEndian.toInt raw * 1000)).date.year ∧
          (Moment.ofMicros (BigEndian.toInt raw * 1000)).date.year ≤ 9999)
  | .uuid | .timeuuid => fault = .badValue ∧ raw.length ≠ 16
  | .inet => fault = .badValue ∧ ¬(raw.length = 4 ∨ raw.length = 16)
  | .decimal => MalformedDecimal raw fault
  | .varint =>
    fault = .badValue ∧ 10 ^ Number.longestText ≤ (BigEndian.toInt raw).natAbs
  | .boolean | .blob => False

section Refusals

variable {α : Type} {t : ColumnType} {raw : Bytes} {fault : CodecFault}

/-- A codec with one fault refuses exactly what it does not accept. -/
theorem eq_error_iff_of_accepts {r : Except CodecFault α} {only : CodecFault}
    {Accepted : Prop}
    (haccept : (∃ x, r = .ok x) ↔ Accepted)
    (honly : ∀ f, r = .error f → f = only) :
    r = .error fault ↔ fault = only ∧ ¬Accepted := by
  rw [← haccept]
  cases r with
  | error f =>
    have hf := honly f rfl
    subst hf
    simp [eq_comm]
  | ok x => simp

/-! ## What each codec refuses -/

theorem decodeAscii_eq_error_iff :
    decodeAscii raw = .error fault ↔
      fault = .malformedText ∧ ∃ b ∈ raw, 0x80 ≤ b := by
  have honly : ∀ f, decodeAscii raw = .error f → f = .malformedText := by
    intro f h
    rw [decodeAscii] at h
    split at h
    · cases h
    · cases h
      rfl
  rw [eq_error_iff_of_accepts exists_decodeAscii_iff honly]
  simp

theorem decodeText_eq_error_iff :
    decodeText raw = .error fault ↔
      fault = .malformedText ∧ ¬raw.toByteArray.IsValidUTF8 := by
  apply eq_error_iff_of_accepts exists_decodeText_iff
  intro f h
  rw [decodeText] at h
  split at h
  · cases h
  · cases h
    rfl

theorem decodeFixed_eq_error_iff {width : ℕ} :
    decodeFixed width raw = .error fault ↔
      fault = .packing ∧ raw.length ≠ width := by
  rw [decodeFixed]
  by_cases hlength : raw.length = width
  · simp [hlength]
  · simp [hlength, eq_comm]

theorem decodeBinary_eq_error_iff {f : Binary.Format} :
    decodeBinary f raw = .error fault ↔
      fault = .packing ∧ raw.length ≠ f.width := by
  rw [decodeBinary]
  by_cases hlength : raw.length = f.width
  · simp [hlength]
  · simp [hlength, eq_comm]

theorem decode_uuid_eq_error_iff (ht : t ∈ [uuid, timeuuid]) :
    decode t raw = .error fault ↔ fault = .badValue ∧ raw.length ≠ 16 := by
  apply eq_error_iff_of_accepts (exists_decode_uuid_iff ht)
  intro f h
  rw [decode_uuid_eq ht] at h
  split at h
  · cases h
  · cases h
    rfl

theorem decode_inet_eq_error_iff :
    decode .inet raw = .error fault ↔
      fault = .badValue ∧ ¬(raw.length = 4 ∨ raw.length = 16) := by
  apply eq_error_iff_of_accepts exists_decode_inet_iff
  intro f h
  rw [decode] at h
  split at h
  · cases h
  · cases h
    rfl

theorem decodeTimestamp_eq_error_iff :
    decodeTimestamp raw = .error fault ↔ Malformed .timestamp raw fault := by
  have hyear := Moment.exists_ofMillis?_iff_year (BigEndian.toInt raw)
  rw [Malformed, decodeTimestamp, ← hyear]
  by_cases hlength : raw.length = 8
  · cases hmoment : Moment.ofMillis? (BigEndian.toInt raw) with
    | none => simp [hlength, eq_comm]
    | some t => simp [hlength]
  · simp [hlength, eq_comm]

theorem printSingle_eq_error_iff :
    printSingle raw = .error fault ↔ Malformed .float raw fault := by
  have htext :=
    Binary.exists_singleText?_iff (Binary.contains_ofBits (BigEndian.toNat raw))
  rw [Malformed, ← htext]
  by_cases hlength : raw.length = 4
  · change print .float raw = _ ↔ _
    rw [print_float_eq hlength]
    cases (Binary.ofBits .single (BigEndian.toNat raw)).singleText? with
    | none => simp [hlength, eq_comm]
    | some s => simp [hlength]
  · have hfault : decodeBinary .single raw = .error .packing :=
      decodeBinary_eq_error_iff.mpr ⟨rfl, hlength⟩
    rw [printSingle, hfault]
    simp [hlength, bind, Except.bind, eq_comm]

theorem printVarint_eq_error_iff :
    printVarint raw = .error fault ↔ Malformed .varint raw fault := by
  have hdigits : Number.digitCount (BigEndian.toInt raw).natAbs ≤
      Number.longestText ↔
      (BigEndian.toInt raw).natAbs < 10 ^ Number.longestText :=
    Nat.length_toDigits_le_iff (by decide) (by decide)
  rw [Malformed, printVarint, ← not_lt, ← hdigits]
  by_cases hlong : Number.longestText <
    Number.digitCount (BigEndian.toInt raw).natAbs
  · simp [hlong, eq_comm]
  · simp [hlong]

/-- Of the numbers with few enough places the context refuses those that are
rounded to one with a digit beyond the greatest place. -/
theorem round?_eq_none_iff (negative : Bool) (c : ℕ) (e : ℤ) :
    standard.round? negative c e = none ↔
      c ≠ 0 ∧ ∃ y, standard.IsRounding (Scientific.value ⟨c, e⟩) y ∧
        999999 < adjusted y.coefficient y.exponent := by
  obtain ⟨d, hd, hlarge, hsmall⟩ := round?_cases isProper_standard negative c e
  constructor
  · intro hnone
    have hc : c ≠ 0 := by
      rintro rfl
      cases hnone
    have hle : 10 ^ (standard.greatest + 1) ≤ d.value := by
      by_contra hlt
      obtain ⟨r, hr, -⟩ := hsmall (not_le.mp hlt)
      rw [hnone] at hr
      cases hr
    have hpos : 0 < d.coefficient :=
      Scientific.coefficient_pos (lt_of_lt_of_le (ten_zpow_pos _) hle)
    exact ⟨hc, d, hd, (lt_adjusted_iff hpos _).mpr hle⟩
  · rintro ⟨hc, y, hy, hadjusted⟩
    have hpositive : 0 < Scientific.value ⟨c, e⟩ :=
      mul_pos (Nat.cast_pos.mpr (Nat.pos_of_ne_zero hc)) (ten_zpow_pos e)
    have hpos : 0 < y.coefficient := by
      by_contra hzero
      have hzero' : y.coefficient = 0 := Nat.eq_zero_of_not_pos hzero
      have htiny := hy.exponent_eq_tiny isProper_standard hpositive hzero'
      have hcount : Number.digitCount 0 = 1 := rfl
      rw [hzero', htiny, adjusted, hcount] at hadjusted
      exact absurd hadjusted (by decide)
    have hle : 10 ^ (standard.greatest + 1) ≤ d.value := by
      rw [hd.value_unique hy]
      exact (lt_adjusted_iff hpos _).mp hadjusted
    exact hlarge hle

theorem scaleLimit_lt_iff {n : ℕ} : standard.scaleLimit < n ↔ 2000054 < n :=
  Int.ofNat_lt

theorem decodeDecimal_eq_error_iff :
    decodeDecimal raw = .error fault ↔ MalformedDecimal raw fault := by
  constructor
  · intro h
    rw [decodeDecimal] at h
    split at h
    next hshort =>
      cases h
      exact .short hshort
    next hlength =>
      dsimp only at h
      split at h
      next hfar =>
        cases h
        exact .far (not_lt.mp hlength) (scaleLimit_lt_iff.mp hfar)
      next hnear =>
        split at h
        next => cases h
        next hnone =>
          cases h
          obtain ⟨hzero, y, hy, hadjusted⟩ :=
            (round?_eq_none_iff _ _ _).mp hnone
          exact .large (not_lt.mp hlength) rfl
            (not_lt.mp (mt scaleLimit_lt_iff.mpr hnear)) rfl
            (Int.natAbs_ne_zero.mp hzero) hy hadjusted
  · intro h
    cases h with
    | short hshort => exact if_pos hshort
    | far hlength hfar =>
      change decode .decimal raw = _
      rw [decode_decimal_eq (not_lt.mpr hlength) rfl rfl]
      exact if_pos (scaleLimit_lt_iff.mpr hfar)
    | @large places unscaled y hlength hplaces hnear hunscaled hzero
      hy hadjusted =>
      have hnone :=
        (round?_eq_none_iff (unscaled < 0) unscaled.natAbs (-places)).mpr
        ⟨Int.natAbs_ne_zero.mpr hzero, y, hy, hadjusted⟩
      have hscale : ¬standard.scaleLimit < places.natAbs :=
        mt scaleLimit_lt_iff.mp (not_lt.mpr hnear)
      change decode .decimal raw = _
      rw [decode_decimal_eq (not_lt.mpr hlength) hplaces hunscaled,
        if_neg hscale, hnone]

/-! ## What is printed -/

/-- What a codec reads has a text, if its type has no way of printing of its
own. -/
theorem exists_forCodec_of_decode {x : Value} (h : decode t raw = .ok x) :
    ∃ s, x.plain.forCodec = .ok s := by
  cases t
  all_goals
    simp only [decode, decodeAscii, decodeText, decodeFixed, decodeBinary,
      decodeDecimal, decodeTimestamp, Except.map] at h
    repeat' split at h
  all_goals cases h
  all_goals exact ⟨_, rfl⟩

/-- Printing fails exactly on bytes that are no value of the type. -/
theorem print_eq_error_iff :
    print t raw = .error fault ↔ Malformed t raw fault := by
  have hplain : ∀ {t}, print t raw =
      (decode t raw >>= fun x => x.plain.forCodec) →
      (print t raw = .error fault ↔ decode t raw = .error fault) := by
    intro t hprint
    rw [hprint]
    cases hdecode : decode t raw with
    | error f => simp [bind, Except.bind]
    | ok x =>
      obtain ⟨s, hs⟩ := exists_forCodec_of_decode hdecode
      simp [bind, Except.bind, hs]
  cases t with
  | ascii => exact (hplain rfl).trans decodeAscii_eq_error_iff
  | text | varchar => exact (hplain rfl).trans decodeText_eq_error_iff
  | tinyint | smallint | int | bigint | counter =>
    exact (hplain rfl).trans decodeFixed_eq_error_iff
  | double =>
    have hfault : decodeBinary .double raw = .error fault ↔
        fault = .packing ∧ raw.length ≠ 8 :=
      decodeBinary_eq_error_iff
    exact (hplain (t := .double) rfl).trans (map_eq_error_iff.trans hfault)
  | float => exact printSingle_eq_error_iff
  | varint => exact printVarint_eq_error_iff
  | decimal => exact (hplain rfl).trans decodeDecimal_eq_error_iff
  | boolean | blob => exact iff_of_false nofun id
  | uuid | timeuuid =>
    exact (hplain rfl).trans (decode_uuid_eq_error_iff (by decide))
  | timestamp => exact map_eq_error_iff.trans decodeTimestamp_eq_error_iff
  | inet => exact (hplain rfl).trans decode_inet_eq_error_iff

end Refusals

end ColumnType

namespace BoundValue

variable {v : BoundValue} {limit : ℤ}

theorem render_of_bytes_eq_nil (h : v.bytes = []) (limit : ℤ) :
    v.render limit = .ok "NULL" := by
  have hnull : v.isNull = true := by
    rw [isNull, h]
    rfl
  exact if_pos hnull

theorem render_of_bytes_ne_nil (h : v.bytes ≠ []) (limit : ℤ) :
    v.render limit =
      match v.type.print v.bytes with
      | .ok s => .ok (Text.cut limit s)
      | .error fault => .error (.rendering v.type v.bytes.length fault) := by
  have hnull : ¬v.isNull = true := by
    rw [isNull, List.isEmpty_iff]
    exact h
  exact if_neg hnull

/-- From a limit of -1 on, a text is kept or cut to as many characters. -/
theorem cut_eq (hlimit : -1 ≤ limit) (s : String) :
    Text.cut limit s =
      if limit = -1 ∨ (s.length : ℤ) ≤ limit then s
      else String.ofList (s.toList.take limit.toNat) ++ "..." := by
  rw [Text.cut]
  split
  · rfl
  next hlong =>
    have hnonneg : ¬limit < 0 := by omega
    simp only [if_neg hnonneg]
    rfl

/-- A value is rendered unless its bytes are malformed.  All that rendering
fails with then is one class of error, caused by the fault of the bytes. -/
theorem rendering_fails_on_malformed_bytes_only (v : BoundValue) (limit : ℤ) :
    (v.bytes = [] → v.render limit = .ok "NULL") ∧
    (v.bytes ≠ [] →
      (∀ f, v.render limit = .error f ↔
        ∃ fault, v.type.Malformed v.bytes fault ∧
          f = .rendering v.type v.bytes.length fault) ∧
      (∀ f, v.render limit = .error f →
        f.cls = .journal .rendering ∧
        f.message? = some ("Cannot render " ++ v.type.name ++ " value from " ++
          toString (v.bytes.length : ℤ) ++ " bytes") ∧
        ∃ fault, v.type.Malformed v.bytes fault ∧ f.cause? = some fault.cls) ∧
      ((∀ fault, ¬v.type.Malformed v.bytes fault) → -1 ≤ limit →
        ∃ s, v.type.print v.bytes = .ok s ∧
          v.render limit = .ok (if limit = -1 ∨ (s.length : ℤ) ≤ limit then s
            else String.ofList (s.toList.take limit.toNat) ++ "..."))) := by
  refine ⟨fun h => render_of_bytes_eq_nil h limit, ?_⟩
  intro hbytes
  have hrender := render_of_bytes_ne_nil hbytes limit
  have hfails : ∀ f, v.render limit = .error f ↔
      ∃ fault, v.type.Malformed v.bytes fault ∧
        f = .rendering v.type v.bytes.length fault := by
    intro f
    simp only [← ColumnType.print_eq_error_iff]
    rw [hrender]
    cases v.type.print v.bytes with
    | error fault => simp [eq_comm]
    | ok s => simp
  refine ⟨hfails, ?_, ?_⟩
  · intro f hf
    obtain ⟨fault, hfault, rfl⟩ := (hfails f).mp hf
    refine ⟨rfl, ?_, fault, hfault, rfl⟩
    rw [← Number.text_eq_toString]
    rfl
  · intro hwell hlimit
    cases hprint : v.type.print v.bytes with
    | error fault =>
      exact absurd (ColumnType.print_eq_error_iff.mp hprint) (hwell fault)
    | ok s =>
      refine ⟨s, rfl, ?_⟩
      rw [hrender, hprint, ← cut_eq hlimit]

/-- The least power of ten beyond the standard context is malformed as a
decimal, and a text of three characters is cut to two. -/
theorem rendering_fails_on_malformed_bytes_only_of_power :
    BoundValue.render (-1) ⟨some [0xff, 0xf0, 0xbd, 0xc0, 0x01], .decimal⟩ =
      .error (.rendering .decimal 5 .decimalOverflow) ∧
    BoundValue.render 2 ⟨some [0x61, 0x62, 0x63], .text⟩ = .ok "ab..." := by
  constructor
  · have hplaces : BigEndian.toInt [0xff, 0xf0, 0xbd, 0xc0] = -1000000 := by
      decide
    have hunscaled : BigEndian.toInt [0x01] = 1 := by decide
    have hmalformed : ColumnType.Malformed .decimal [0xff, 0xf0,
        0xbd, 0xc0, 0x01]
        .decimalOverflow :=
      .large (by decide) hplaces (by decide) hunscaled (by decide)
        (Decimal.isRounding_nearest (by decide)) (by decide)
    obtain ⟨-, hbytes⟩ := rendering_fails_on_malformed_bytes_only
      ⟨some [0xff, 0xf0, 0xbd, 0xc0, 0x01], .decimal⟩ (-1)
    exact ((hbytes (by decide)).1 _).mpr ⟨_, hmalformed, rfl⟩
  · have htext : ColumnType.print .text [0x61, 0x62, 0x63] = .ok "abc" := by
      decide +kernel
    have hwell : ∀ fault, ¬ColumnType.Malformed .text [0x61, 0x62,
        0x63] fault := by
      intro fault hfault
      rw [← ColumnType.print_eq_error_iff, htext] at hfault
      cases hfault
    obtain ⟨-, hbytes⟩ := rendering_fails_on_malformed_bytes_only
      ⟨some [0x61, 0x62, 0x63], .text⟩ 2
    obtain ⟨s, hs, hcut⟩ := (hbytes (by decide)).2.2 hwell (by decide)
    cases htext.symm.trans hs
    exact hcut

end BoundValue

end QueryJournal

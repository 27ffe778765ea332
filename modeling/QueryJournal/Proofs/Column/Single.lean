import QueryJournal.Column.Encode
import QueryJournal.Proofs.Number.NineDigits
import QueryJournal.Proofs.Number.Numerals
import QueryJournal.Proofs.Wire.BigEndian
import QueryJournal.Render.Parameter
import QueryJournal.Statement.Bind

/-!
# Printed single-precision numbers

Four bytes in a column of single-precision numbers are printed as the name of an
infinity or a NaN, or as the fewest digits that identify the number.  From
`3.4025e38` on, where the correct rounding to four digits is beyond the format,
printing overflows.
-/

namespace QueryJournal

namespace Binary

variable {negative : Bool} {m : ℕ} {q : ℤ}

/-- Four bytes hold a significand and an exponent of the format, unless they
hold no finite number. -/
theorem holds_of_ofBits_eq {bits : ℕ}
    (h : ofBits .single bits = .finite negative m q) :
    Format.single.Holds m q := by
  have htop : Format.single.topField = 255 := rfl
  have hprecision : Format.single.precision = 24 := rfl
  have hleast : Format.single.leastExponent = -149 := rfl
  have hgreatest : Format.single.greatestExponent = 104 := rfl
  have hwidth : Format.single.width = 4 := rfl
  rw [ofBits, htop, hprecision, hleast, hwidth] at h
  norm_num at h
  split at h
  · split at h
    · cases h
    · cases h
  next hfield =>
    split at h
    next hzero =>
      cases h
      refine ⟨?_, le_refl _, by decide, Or.inl rfl⟩
      rw [hprecision]
      omega
    next hnonzero =>
      rw [Binary.finite.injEq] at h
      obtain ⟨-, rfl, rfl⟩ := h
      refine ⟨?_, ?_, ?_, Or.inr ?_⟩
      · rw [hprecision]
        omega
      · rw [hleast]
        omega
      · rw [hgreatest]
        omega
      · rw [hprecision]
        omega

/-- A number of a format. -/
def Format.Contains (f : Format) : Binary → Prop
  | .finite _ m q => f.Holds m q
  | _ => True

theorem contains_convert (x : Binary) :
    Format.single.Contains (x.convert .single) := by
  cases x with
  | nan negative => trivial
  | infinity negative => trivial
  | finite negative k r =>
    obtain ⟨num, den, hden, -, -, hconvert⟩ :=
      convert_finite .single negative k r
    rw [hconvert]
    rcases ofRatio_cases .single negative num den with h | ⟨m, q, h⟩
    · rw [h]
      trivial
    · have hholds := (holds_of_ofRatio_eq isProper_single hden h).1
      rw [h]
      exact hholds

/-- The fields of a code are read back. -/
theorem ofBits_assemble
    (negative : Bool) {field fraction : ℕ}
    (hfield : field < 256) (hfraction : fraction < 2 ^ 23) :
    ofBits .single (BigEndian.toNat (BigEndian.ofNat 4
        (Format.single.assemble negative field fraction))) =
      if field = 255 then
        if fraction = 0 then .infinity negative else .nan negative
      else if field = 0 then .finite negative fraction (-149)
      else .finite negative (fraction + 2 ^ 23) (-149 + field - 1) := by
  have hcode : ∃ code, BigEndian.toNat (BigEndian.ofNat 4
      (Format.single.assemble negative field fraction)) = code ∧
      (code / 2 ^ 31 % 2 = 1 ↔ negative = true) ∧
      code % 2 ^ 31 / 2 ^ 23 = field ∧
      code % 2 ^ 23 = fraction := by
    refine ⟨_, rfl, ?_⟩
    rw [BigEndian.toNat_ofNat]
    cases negative with
    | true =>
      change ((2 ^ 31 + field * 2 ^ 23 + fraction) % 2 ^ 32 / 2 ^
        31 % 2 = 1 ↔ _) ∧
        (2 ^ 31 + field * 2 ^ 23 + fraction) % 2 ^ 32 % 2 ^ 31 /
          2 ^ 23 = field ∧
        (2 ^ 31 + field * 2 ^ 23 + fraction) % 2 ^ 32 % 2 ^ 23 = fraction
      exact ⟨iff_of_true (by omega) rfl, by omega, by omega⟩
    | false =>
      change ((0 + field * 2 ^ 23 + fraction) % 2 ^ 32 / 2 ^ 31 % 2 = 1 ↔ _) ∧
        (0 + field * 2 ^ 23 + fraction) % 2 ^ 32 % 2 ^ 31 / 2 ^ 23 = field ∧
        (0 + field * 2 ^ 23 + fraction) % 2 ^ 32 % 2 ^ 23 = fraction
      exact ⟨iff_of_false (by omega) Bool.false_ne_true, by omega, by omega⟩
  obtain ⟨code, heq, hnegative, rfl, rfl⟩ := hcode
  rw [heq]
  have hsign : decide (code / 2 ^ 31 % 2 = 1) = negative := by
    rw [Bool.eq_iff_iff, decide_eq_true_iff]
    exact hnegative
  rw [← hsign]
  rfl

/-- A number of the format is read back from its code. -/
theorem ofBits_toBits {x : Binary} (h : Format.single.Contains x) :
    ofBits .single
      (BigEndian.toNat (BigEndian.ofNat 4 (x.toBits .single))) = x := by
  cases x with
  | nan negative =>
    exact ofBits_assemble negative (by decide : 255 < 256)
      (by decide : 2 ^ 22 < 2 ^ 23)
  | infinity negative =>
    exact ofBits_assemble negative (by decide : 255 < 256)
      (by decide : 0 < 2 ^ 23)
  | finite negative m q =>
    have hsignificand : m < 2 ^ 24 := h.significand
    have hgreatest : q ≤ 104 := h.greatest
    have hleast : -149 ≤ q := h.least
    have hfull : q = -149 ∨ 2 ^ 24 ≤ 2 * m := h.full
    by_cases hm : m < 2 ^ 23
    · have hq : q = -149 := by omega
      have hbits : (Binary.finite negative m q).toBits .single =
          Format.single.assemble negative 0 m := if_pos hm
      rw [hbits, ofBits_assemble negative (by decide) hm, hq]
      rfl
    · have hbits : (Binary.finite negative m q).toBits .single =
          Format.single.assemble negative (q + 149 + 1).toNat (m - 2 ^ 23) :=
            if_neg hm
      have hsum : m - 2 ^ 23 + 2 ^ 23 = m := by omega
      have hexponent : -149 + ((q + 149 + 1).toNat : ℤ) - 1 = q := by omega
      rw [hbits, ofBits_assemble negative (by omega) (by omega),
        if_neg (by omega), if_neg (by omega), hsum, hexponent]

/-- The text of a single-precision number: it is laid out from the digits of the
correct rounding to `count` digits, the fewest that read back as the number, and
it identifies the number. -/
structure IsSingleText (negative : Bool) (m : ℕ) (q : ℤ) (count : ℕ)
    (s : String) : Prop where
  positive : 1 ≤ count
  nine : count ≤ 9
  reads : ReadsBack negative m q count
  least : ∀ fewer, 1 ≤ fewer → fewer < count → ¬ReadsBack negative m q fewer
  layout : s = (if negative then "-" else "") ++
    if m = 0 then "0.0"
    else
      readable.write (significantDigits (roundedTo m q count).coefficient)
        (roundedTo m q count).point
  identifies : ∃ x, ofText? .double s = some x ∧
    x.convert .single = .finite negative m q

theorem isSingleText_zero (negative : Bool) :
    ∃ s, singleText? (.finite negative 0 (-149)) = some s ∧
      IsSingleText negative 0 (-149) 1 s := by
  cases negative with
  | true =>
    refine ⟨"-0.0", by
      decide +kernel, le_refl _, by decide, ?_, by omega, rfl, ?_⟩
    · rw [ReadsBack]
      decide +kernel
    · exact ⟨.finite true 0 (-1074), by decide +kernel, rfl⟩
  | false =>
    refine ⟨"0.0", by
      decide +kernel, le_refl _, by decide, ?_, by omega, rfl, ?_⟩
    · rw [ReadsBack]
      decide +kernel
    · exact ⟨.finite false 0 (-1074), by decide +kernel, rfl⟩

/-- Below the bound a number has its text. -/
theorem exists_isSingleText
    (h : Format.single.Holds m q) (negative : Bool)
    (hsmall : scaled m q < 34025 * 10 ^ 34) :
    ∃ count s, singleText? (.finite negative m q) = some s ∧
      IsSingleText negative m q count s := by
  rcases Nat.eq_zero_or_pos m with rfl | hm
  · have hq : q = -149 := h.full.resolve_right (by decide)
    rw [hq]
    exact ⟨1, isSingleText_zero negative⟩
  obtain ⟨count, hone, hnine, hreads, hleast, htext⟩ :=
    exists_singleText?_eq h hm negative hsmall
  obtain ⟨k, r, heq, hnormal, -⟩ := exists_roundedDouble h hm negative hone
  have hdouble : ofDecimal .double negative (roundedTo m q count).coefficient
      (roundedTo m q count).exponent = .finite negative k r := heq
  have hshort : (roundedTo m q count).coefficient < 10 ^ 15 := by
    have hle := roundedTo_coefficient_le (m := m) (q := q) hone
    have hpow : 10 ^ count ≤ 10 ^ 9 := Nat.pow_le_pow_right (by decide) hnine
    omega
  have hpos : 0 < (roundedTo m q count).coefficient := by
    refine Nat.pos_of_ne_zero fun hzero => ?_
    rw [hzero, ofDecimal, if_pos (Or.inl rfl)] at hdouble
    cases hdouble
    exact absurd hnormal.pos (lt_irrefl 0)
  have hlayout := text_finite negative hnormal hshort
    ((ofDecimal_eq_finite_iff negative _ _).mp hdouble)
  refine ⟨count, _, htext, hone, hnine, hreads, hleast, ?_, ?_⟩
  · rw [heq, hlayout, if_neg hm.ne']
  · refine ⟨.finite negative k r, ?_, ?_⟩
    · rw [heq, hlayout,
        ofText?_write_significantDigits .double negative readable hpos, hdouble]
    · rw [← heq]
      exact hreads

/-- The numbers that are printed. -/
def HasSingleText : Binary → Prop
  | .finite _ m q => scaled m q < 34025 * 10 ^ 34
  | _ => True

theorem exists_singleText?_iff {x : Binary} (h : Format.single.Contains x) :
    (∃ s, x.singleText? = some s) ↔ x.HasSingleText := by
  cases x with
  | nan negative => exact iff_of_true ⟨_, rfl⟩ trivial
  | infinity negative => exact iff_of_true ⟨_, rfl⟩ trivial
  | finite negative m q =>
    rw [HasSingleText]
    constructor
    · rintro ⟨s, hs⟩
      by_contra hlarge
      rw [singleText?_eq_none h (not_lt.mp hlarge) negative] at hs
      cases hs
    · intro hsmall
      obtain ⟨count, s, hs, -⟩ := exists_isSingleText h negative hsmall
      exact ⟨s, hs⟩

end Binary

namespace ColumnType

theorem print_float_eq {raw : Bytes} (hraw : raw.length = 4) :
    print .float raw =
      match (Binary.ofBits .single (BigEndian.toNat raw)).singleText? with
      | some s => .ok s
      | none => .error .overflow := by
  have hdecode : decodeBinary .single raw =
      .ok (.ofBits .single (BigEndian.toNat raw)) :=
    if_pos hraw
  rw [print, printSingle, hdecode]
  rfl

/-- The bytes of a floating-point number are those of the nearest
single-precision one. -/
theorem encode_float_eq {x : Binary} {raw : Bytes}
    (h : encode .float (.float x) = .ok raw) :
    raw = BigEndian.ofNat 4 ((x.convert .single).toBits .single) := by
  change (if _ then _ else _) = _ at h
  split at h
  · cases h
  · cases h
    rfl

theorem exists_of_ofValue_float_eq {x : Binary} {bound : BoundValue}
    (h : BoundValue.ofValue .float (.float x) = .ok bound) :
    ∃ raw, encode .float (.float x) = .ok raw ∧ bound = ⟨some raw, .float⟩ := by
  unfold BoundValue.ofValue at h
  dsimp only at h
  cases hencode : encode .float (.float x) with
  | error fault =>
    rw [hencode] at h
    cases h
  | ok raw =>
    rw [hencode] at h
    cases h
    exact ⟨raw, rfl, rfl⟩

theorem render_float_eq {raw : Bytes} (hraw : raw.length = 4) (limit : ℤ) :
    (BoundValue.mk (some raw) .float).render limit =
      match (Binary.ofBits .single (BigEndian.toNat raw)).singleText? with
      | some s => .ok (Text.cut limit s)
      | none => .error (.rendering .float 4 .overflow) := by
  have hnull : (BoundValue.mk (some raw) .float).isNull = false := by
    rw [BoundValue.isNull, List.isEmpty_eq_false_iff, ← List.length_pos_iff]
    exact lt_of_lt_of_eq (by decide) hraw.symm
  have hbytes : (BoundValue.mk (some raw) .float).bytes = raw := rfl
  rw [BoundValue.render, hnull, if_neg Bool.false_ne_true, hbytes,
    print_float_eq hraw, hraw]
  cases (Binary.ofBits .single (BigEndian.toNat raw)).singleText? with
  | some s => rfl
  | none => rfl

theorem exists_render_iff {raw : Bytes} (hraw : raw.length = 4) (limit : ℤ) :
    (∃ s, (BoundValue.mk (some raw) .float).render limit = .ok s) ↔
      ∃ s,
        (Binary.ofBits .single (BigEndian.toNat raw)).singleText? = some s := by
  rw [render_float_eq hraw]
  cases (Binary.ofBits .single (BigEndian.toNat raw)).singleText? with
  | some s => exact iff_of_true ⟨_, rfl⟩ ⟨_, rfl⟩
  | none =>
    refine iff_of_false ?_ ?_
    · rintro ⟨s, hs⟩
      cases hs
    · rintro ⟨s, hs⟩
      cases hs

/-- Four bytes are printed as `nan`, `inf` or `-inf` if they hold no finite
number, and as the fewest correctly rounded digits that identify the number if
it is below `3.4025e38`. Printing overflows otherwise, so of the values that are
written as such bytes exactly those below the bound can be rendered. -/
theorem float_prints_fewest_digits (a b c d : UInt8) :
    (match Binary.ofBits .single (BigEndian.toNat [a, b, c, d]) with
    | .nan _ => print .float [a, b, c, d] = .ok "nan"
    | .infinity negative =>
      print .float [a, b, c, d] = .ok (if negative then "-inf" else "inf")
    | .finite negative m q =>
      (∀ count, 0 < count →
        (Binary.roundedTo m q count).IsRounding (Binary.scaled m q) count) ∧
      (Binary.scaled m q < 34025 * 10 ^ 34 →
        ∃ count s, print .float [a, b, c, d] = .ok s ∧
          Binary.IsSingleText negative m q count s) ∧
      (34025 * 10 ^ 34 ≤ Binary.scaled m q →
        print .float [a, b, c, d] = .error .overflow)) ∧
    ∀ x bound, BoundValue.ofValue .float (.float x) = .ok bound →
      bound.bytes.length = 4 ∧
      Binary.ofBits .single (BigEndian.toNat bound.bytes) = x.convert .single ∧
      ∀ limit, (∃ s, bound.render limit = .ok s) ↔
        (x.convert .single).HasSingleText := by
  constructor
  · have hlength : [a, b, c, d].length = 4 := rfl
    have hprint := print_float_eq hlength
    revert hprint
    cases hx : Binary.ofBits .single (BigEndian.toNat [a, b, c, d]) with
    | nan negative => exact id
    | infinity negative => exact id
    | finite negative m q =>
      have hholds := Binary.holds_of_ofBits_eq hx
      intro hprint
      refine ⟨fun count hcount =>
        Binary.isRounding_roundedTo m q hcount, ?_, ?_⟩
      · intro hsmall
        obtain ⟨count, s, hs, htext⟩ :=
          Binary.exists_isSingleText hholds negative hsmall
        rw [hs] at hprint
        exact ⟨count, s, hprint, htext⟩
      · intro hlarge
        rw [Binary.singleText?_eq_none hholds hlarge negative] at hprint
        exact hprint
  · intro x bound hbound
    have hcontains := Binary.contains_convert x
    obtain ⟨bytes, hencode, rfl⟩ := exists_of_ofValue_float_eq hbound
    have hbytes := encode_float_eq hencode
    have hlength : bytes.length = 4 := by
      rw [hbytes]
      exact BigEndian.length_ofNat 4 _
    have hvalue : Binary.ofBits .single (BigEndian.toNat bytes) =
        x.convert .single := by
      rw [hbytes]
      exact Binary.ofBits_toBits hcontains
    refine ⟨hlength, hvalue, fun limit => ?_⟩
    rw [exists_render_iff hlength, hvalue]
    exact Binary.exists_singleText?_iff hcontains

example : print .float [0x3d, 0xcc, 0xcc, 0xcd] = .ok "0.1" := by
  decide +kernel

/-- The greatest number of the format is written and then not printed, although
nine digits identify it. -/
theorem greatest_single_is_not_printed :
    let raw : Bytes := [0x7f, 0x7f, 0xff, 0xff]
    BoundValue.ofValue .float (.float (.finite false 9007198717870080 75)) =
        .ok ⟨some raw, .float⟩ ∧
      Binary.ofBits .single (BigEndian.toNat raw) = .finite false 16777215 104 ∧
      print .float raw = .error .overflow ∧
      BoundValue.render 1000 ⟨some raw,
        .float⟩ = .error (.rendering .float 4 .overflow) ∧
      (Binary.ofText? .double "3.4028235e+38").map (Binary.convert .single) =
        some (.finite false 16777215 104) := by
  have hlength : ([0x7f, 0x7f, 0xff, 0xff] : Bytes).length = 4 := rfl
  have hnone : (Binary.ofBits .single
      (BigEndian.toNat [0x7f, 0x7f, 0xff, 0xff])).singleText? = none := by
        decide +kernel
  refine ⟨by decide +kernel, by decide +kernel, ?_, ?_, by decide +kernel⟩
  · rw [print_float_eq hlength, hnone]
  · rw [render_float_eq hlength, hnone]

end ColumnType

end QueryJournal

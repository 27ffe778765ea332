import QueryJournal.Column.Decode
import QueryJournal.Column.Encode
import QueryJournal.Proofs.Number.Context
import QueryJournal.Proofs.Wire.BigEndian

/-!
# Columns of decimals

Every decimal whose places can be counted in four bytes is written exactly.
Reading rounds it in the standard context, so it is read back as the same number
exactly if its places are within the limit for scaling and the context holds the
number.
-/

namespace QueryJournal

namespace Decimal

/-- The number of a size and a sign. -/
def signed (negative : Bool) (x : ℚ) : ℚ :=
  if negative then -x else x

/-- The number that a decimal stands for, unless it is an infinity or a NaN. -/
def number? : Decimal → Option ℚ
  | .finite negative c e => some (signed negative (Scientific.value ⟨c, e⟩))
  | _ => none

theorem signed_injective (negative : Bool) {x y : ℚ}
    (h : signed negative x = signed negative y) :
    x = y := by
  cases negative with
  | true => exact neg_injective h
  | false => exact h

end Decimal

namespace ColumnType

open Decimal

/-- The digits of a decimal as an integer with its sign. -/
def unscaled (negative : Bool) (c : ℕ) : ℤ :=
  if negative then -c else c

theorem natAbs_unscaled (negative : Bool) (c : ℕ) :
    (unscaled negative c).natAbs = c := by
  cases negative with
  | true => exact Int.natAbs_neg c
  | false => rfl

/-- The sign is lost of zero only. -/
theorem signed_unscaled (negative : Bool) {c : ℕ} {x : ℚ} (hx : c = 0 → x = 0) :
    signed (unscaled negative c < 0) x = signed negative x := by
  rcases Nat.eq_zero_or_pos c with hzero | hpos
  · rw [hx hzero]
    simp [signed]
  · cases negative with
    | true =>
      have hneg : unscaled true c < 0 :=
        Int.neg_neg_of_pos (Int.natCast_pos.mpr hpos)
      simp [hneg]
    | false =>
      have hnonneg : ¬unscaled false c < 0 := not_lt.mpr (Int.natCast_nonneg c)
      simp [hnonneg]

/-- The bytes of a finite decimal. -/
def decimalBytes (negative : Bool) (c : ℕ) (e : ℤ) : Bytes :=
  BigEndian.ofInt 4 (-e) ++ BigEndian.ofIntAny (unscaled negative c)

theorem decode_decimal_eq {raw : Bytes} {places v : ℤ}
    (hlength : ¬raw.length < 4)
    (hplaces : BigEndian.toInt (raw.take 4) = places)
    (hv : BigEndian.toInt (raw.drop 4) = v) :
    decode .decimal raw =
      if standard.scaleLimit < places.natAbs then .error .decimalInvalid
      else
        match standard.round? (v < 0) v.natAbs (-places) with
        | some d => .ok (.decimal d)
        | none => .error .decimalOverflow := by
  subst hplaces hv
  exact if_neg hlength

section Codec

variable (negative : Bool) {c : ℕ} {e : ℤ}
  (hlow : -2 ^ 31 ≤ -e) (hhigh : -e < 2 ^ 31)

include hlow hhigh

theorem fits_places : BigEndian.fits 4 (-e) = true :=
  (BigEndian.fits_iff_range (by decide)).mpr ⟨hlow, hhigh⟩

theorem encode_decimal_eq (hdigits : c < 10 ^ Number.longestText) :
    encode .decimal (.decimal (.finite negative c e)) =
      .ok (decimalBytes negative c e) := by
  have hshort : Number.digitCount c ≤ Number.longestText :=
    (Nat.length_toDigits_le_iff (by decide) (by decide)).mpr hdigits
  change (if _ then _ else if _ then _ else _) = _
  rw [if_neg (Nat.not_lt.mpr hshort), if_pos (fits_places hlow hhigh)]
  rfl

theorem decode_decimalBytes :
    decode .decimal (decimalBytes negative c e) =
      if standard.scaleLimit < e.natAbs then .error .decimalInvalid
      else
        match standard.round? (unscaled negative c < 0) c e with
        | some d => .ok (.decimal d)
        | none => .error .decimalOverflow := by
  have hfour := BigEndian.length_ofInt 4 (-e)
  have hlength : ¬(decimalBytes negative c e).length < 4 := by
    rw [decimalBytes, List.length_append, hfour]
    omega
  have hplaces : BigEndian.toInt ((decimalBytes negative c e).take 4) = -e := by
    rw [decimalBytes, List.take_left' hfour,
      BigEndian.toInt_ofInt (fits_places hlow hhigh)]
  have hunscaled :
      BigEndian.toInt ((decimalBytes negative c e).drop 4) =
        unscaled negative c := by
    rw [decimalBytes, List.drop_left' hfour, BigEndian.toInt_ofIntAny]
  rw [decode_decimal_eq hlength hplaces hunscaled, natAbs_unscaled,
    Int.natAbs_neg, neg_neg]

/-- What is read of a decimal is the decimal rounded to the standard context. -/
theorem exists_rounding_decimalBytes :
    ∃ y, standard.IsRounding (Scientific.value ⟨c, e⟩) y ∧
      (standard.scaleLimit < e.natAbs →
        decode .decimal (decimalBytes negative c e) = .error .decimalInvalid) ∧
      (e.natAbs ≤ standard.scaleLimit → 10 ^ (standard.greatest + 1) ≤ y.value →
        decode .decimal (decimalBytes negative c e) = .error .decimalOverflow) ∧
      (e.natAbs ≤ standard.scaleLimit → y.value < 10 ^ (standard.greatest + 1) →
        ∃ d, decode .decimal (decimalBytes negative c e) = .ok (.decimal d) ∧
          d.number? = some (signed negative y.value)) := by
  obtain ⟨y, hrounding, hoverflow, hround⟩ :=
    round?_cases isProper_standard (unscaled negative c < 0) c e
  have hdecode := decode_decimalBytes negative (c := c) hlow hhigh
  refine ⟨y, hrounding, ?_, ?_, ?_⟩
  · intro hscale
    rw [hdecode, if_pos hscale]
  · intro hscale hle
    rw [hdecode, if_neg (not_lt.mpr hscale), hoverflow hle]
  · intro hscale hlt
    obtain ⟨r, hr, hvalue⟩ := hround hlt
    refine ⟨.finite (unscaled negative c < 0) r.coefficient r.exponent, ?_, ?_⟩
    · rw [hdecode, if_neg (not_lt.mpr hscale), hr]
    · have hzero : c = 0 → r.value = 0 := by
        rintro rfl
        rw [hvalue]
        exact hrounding.value_eq_zero
      rw [number?, signed_unscaled negative hzero, hvalue]

end Codec

/-- Decimals are written exactly and rounded to the standard context when they
are read. They are read back as the same numbers exactly if the limit for
scaling and the context allow them. -/
theorem decimals_are_rounded_when_read
    (negative : Bool) (c : ℕ) (e : ℤ) (hdigits : c < 10 ^ Number.longestText)
    (hlow : -2 ^ 31 ≤ -e) (hhigh : -e < 2 ^ 31) :
    ∃ raw y, encode .decimal (.decimal (.finite negative c e)) = .ok raw ∧
      standard.IsRounding (Scientific.value ⟨c, e⟩) y ∧
      (standard.scaleLimit < e.natAbs →
        decode .decimal raw = .error .decimalInvalid) ∧
      (e.natAbs ≤ standard.scaleLimit → 10 ^ (standard.greatest + 1) ≤ y.value →
        decode .decimal raw = .error .decimalOverflow) ∧
      (e.natAbs ≤ standard.scaleLimit → y.value < 10 ^ (standard.greatest + 1) →
        ∃ d, decode .decimal raw = .ok (.decimal d) ∧
          d.number? = some (signed negative y.value)) ∧
      ((∃ d, decode .decimal raw = .ok (.decimal d) ∧
          d.number? = (Decimal.finite negative c e).number?) ↔
        e.natAbs ≤ standard.scaleLimit ∧
        standard.Holds (Scientific.value ⟨c, e⟩) ∧
        Scientific.value ⟨c, e⟩ < 10 ^ (standard.greatest + 1)) := by
  obtain ⟨y, hrounding, hinvalid, hlarge, hread⟩ :=
    exists_rounding_decimalBytes negative (c := c) hlow hhigh
  have hexact := hrounding.value_eq_iff
  refine ⟨decimalBytes negative c e, y,
    encode_decimal_eq negative hlow hhigh hdigits,
    hrounding, hinvalid, hlarge, hread, ?_⟩
  constructor
  · rintro ⟨d, hd, hnumber⟩
    have hscale : e.natAbs ≤ standard.scaleLimit := by
      by_contra hlt
      rw [hinvalid (not_le.mp hlt)] at hd
      cases hd
    have hlt : y.value < 10 ^ (standard.greatest + 1) := by
      by_contra hle
      rw [hlarge hscale (not_lt.mp hle)] at hd
      cases hd
    obtain ⟨d', hd', hnumber'⟩ := hread hscale hlt
    rw [hd] at hd'
    cases hd'
    rw [hnumber, number?, Option.some.injEq] at hnumber'
    have hvalue := (signed_injective negative hnumber').symm
    exact ⟨hscale, hexact.mp hvalue, hvalue ▸ hlt⟩
  · rintro ⟨hscale, hholds, hlt⟩
    have hvalue := hexact.mpr hholds
    rw [← hvalue] at hlt
    obtain ⟨d, hd, hnumber⟩ := hread hscale hlt
    refine ⟨d, hd, ?_⟩
    rw [hnumber, hvalue, number?]

/-- A number of twenty-eight digits is read back with its sign and its
places. -/
theorem decimals_are_rounded_when_read_of_price :
    ∃ raw d, encode .decimal
      (.decimal (.finite true 1234567890123456789012345678 (-2))) = .ok raw ∧
      decode .decimal raw = .ok (.decimal d) ∧
      d.number? =
        (Decimal.finite true 1234567890123456789012345678 (-2)).number? := by
  have hdigits : 1234567890123456789012345678 < 10 ^ Number.longestText :=
    lt_of_lt_of_le (by norm_num)
      (Nat.pow_le_pow_right (by decide) (by decide : 28 ≤ 4300))
  obtain ⟨raw, -, hraw, -, -, -, -, hexact⟩ :=
    decimals_are_rounded_when_read true
      1234567890123456789012345678 (-2) hdigits
      (by norm_num) (by norm_num)
  have hsmall : Scientific.value ⟨1234567890123456789012345678, -2⟩ <
      10 ^ (standard.greatest + 1) :=
    lt_of_lt_of_le (Scientific.value_lt _)
      (zpow_le_zpow_right₀ (by norm_num) (by decide +kernel))
  obtain ⟨d, hd, hnumber⟩ :=
    hexact.mpr ⟨by decide, ⟨_, rfl, by decide, by decide⟩, hsmall⟩
  exact ⟨raw, d, hraw, hd, hnumber⟩

/-- A twenty-ninth digit is written, but it is not read back; and neither is a
number with more zeros at its end than scaling allows. -/
theorem long_decimals_are_not_read_back :
    (∃ raw d,
      encode .decimal
        (.decimal (.finite false 12345678901234567890123456789 0)) = .ok raw ∧
      decode .decimal raw = .ok (.decimal d) ∧
      d.number? ≠
        (Decimal.finite false 12345678901234567890123456789 0).number?) ∧
    ∃ raw, encode .decimal (.decimal (.finite false 1 2000055)) = .ok raw ∧
      decode .decimal raw = .error .decimalInvalid := by
  refine ⟨⟨decimalBytes false 12345678901234567890123456789 0,
    .finite false 1234567890123456789012345679 1, by decide +kernel, ?_, ?_⟩,
    ⟨decimalBytes false 1 2000055, by decide +kernel, ?_⟩⟩
  · have hround : standard.round?
        (unscaled false 12345678901234567890123456789 < 0)
        12345678901234567890123456789 0 =
        some (.finite false 1234567890123456789012345679 1) := by decide +kernel
    rw [decode_decimalBytes false (by norm_num) (by norm_num),
      if_neg (by decide), hround]
  · norm_num [number?, signed, Scientific.value]
  · rw [decode_decimalBytes false (by norm_num) (by norm_num),
      if_pos (by decide)]

end ColumnType

end QueryJournal

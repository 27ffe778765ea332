import QueryJournal.Number.Shortest
import QueryJournal.Proofs.Number.Nearest

/-!
# Values of decimals

The value of a decimal, the place of its first digit, and the digits that are
left when the zeros at its end are dropped.  The latter two are determined by
the value.  Decimals that are nearer to each other than both of their last
places are equal.  Rounding to a floating-point format is a matter of the value,
too, as is the exact decimal of a floating-point number.
-/

namespace QueryJournal

/-! ## Digits -/

namespace Number

theorem digitCount_pos (n : ℕ) : 0 < digitCount n :=
  Nat.length_toDigits_pos

theorem lt_pow_digitCount (n : ℕ) : n < 10 ^ digitCount n :=
  (Nat.length_toDigits_le_iff (by decide) (digitCount_pos n)).mp (le_refl _)

theorem pow_pred_digitCount_le {n : ℕ} (hn : 0 < n) :
    10 ^ (digitCount n - 1) ≤ n := by
  by_contra hlt
  rcases Nat.eq_zero_or_pos (digitCount n - 1) with hone | hmore
  · rw [hone] at hlt
    omega
  · have hshort := (Nat.length_toDigits_le_iff (by decide) hmore).mpr
      (Nat.lt_of_not_le hlt)
    have hpos := digitCount_pos n
    rw [digitCount, digits] at hmore hpos hshort
    omega

theorem digits_mul_pow {n : ℕ} (hn : 0 < n) (k : ℕ) :
    digits (n * 10 ^ k) = digits n ++ List.replicate k '0' := by
  induction k with
  | zero => rw [pow_zero, mul_one, List.replicate_zero, List.append_nil]
  | succ k ih =>
    have hpos : 0 < n * 10 ^ k := Nat.mul_pos hn (Nat.pow_pos (by decide))
    have hlast := Nat.toDigits_append_toDigits (d := 0)
      (by decide : 1 < 10) hpos (by decide)
    rw [pow_succ, ← mul_assoc, mul_comm _ 10, digits,
      ← Nat.add_zero (10 * (n * 10 ^ k)), ← hlast, ← digits, ih,
      List.replicate_succ', ← List.append_assoc]
    rfl

end Number

theorem ten_zpow_pos (e : ℤ) : (0 : ℚ) < 10 ^ e :=
  zpow_pos (by norm_num) e

/-! ## Values -/

namespace Scientific

/-- The number that a decimal stands for. -/
def value (d : Scientific) : ℚ :=
  d.coefficient * 10 ^ d.exponent

/-- The number of digits before the point, negative for zeros after it. -/
def point (d : Scientific) : ℤ :=
  Number.digitCount d.coefficient + d.exponent

variable {d e : Scientific}

theorem value_pos (h : 0 < d.coefficient) : 0 < d.value :=
  mul_pos (by exact_mod_cast h) (ten_zpow_pos _)

theorem coefficient_pos (h : 0 < d.value) : 0 < d.coefficient := by
  refine Nat.pos_of_ne_zero fun hzero => ?_
  rw [value, hzero, Nat.cast_zero, zero_mul] at h
  exact lt_irrefl 0 h

theorem value_lt (d : Scientific) : d.value < 10 ^ d.point := by
  have hdigits : (d.coefficient : ℚ) <
      10 ^ Number.digitCount d.coefficient := by
    exact_mod_cast Number.lt_pow_digitCount d.coefficient
  rw [value, point, zpow_add₀ (by norm_num), zpow_natCast]
  exact mul_lt_mul_of_pos_right hdigits (ten_zpow_pos _)

theorem le_value (h : 0 < d.coefficient) : 10 ^ (d.point - 1) ≤ d.value := by
  have hdigits : (10 : ℚ) ^
      (Number.digitCount d.coefficient - 1) ≤ d.coefficient := by
    exact_mod_cast Number.pow_pred_digitCount_le h
  have hpos := Number.digitCount_pos d.coefficient
  have hpoint : d.point - 1 =
      ((Number.digitCount d.coefficient - 1 : ℕ) : ℤ) + d.exponent := by
    rw [point]
    omega
  rw [value, hpoint, zpow_add₀ (by norm_num), zpow_natCast]
  exact mul_le_mul_of_nonneg_right hdigits (ten_zpow_pos _).le

theorem point_le_of_value_lt {k : ℤ}
    (h : 0 < d.coefficient) (hlt : d.value < 10 ^ k) :
    d.point ≤ k := by
  have hpow : (10 : ℚ) ^ (d.point - 1) < 10 ^ k :=
    lt_of_le_of_lt (le_value h) hlt
  have hexponents := (zpow_lt_zpow_iff_right₀ (by norm_num)).mp hpow
  omega

theorem lt_point_of_le_value {k : ℤ} (hle : 10 ^ k ≤ d.value) : k < d.point :=
  (zpow_lt_zpow_iff_right₀ (by norm_num : (1 : ℚ) < 10)).mp
    (lt_of_le_of_lt hle (value_lt d))

/-- Every decimal is a multiple of the places after its last one. -/
theorem exists_value_eq {place : ℤ} (h : place ≤ d.exponent) :
    ∃ k : ℕ, d.value = k * 10 ^ place ∧
      k = d.coefficient * 10 ^ (d.exponent - place).toNat := by
  refine ⟨_, ?_, rfl⟩
  have hsplit : d.exponent = ((d.exponent - place).toNat : ℤ) + place := by
    omega
  rw [value, Nat.cast_mul, Nat.cast_pow, Nat.cast_ofNat, mul_assoc,
    ← zpow_natCast, ← zpow_add₀ (by norm_num), ← hsplit]

theorem value_eq_of_near
    (hd : |d.value - e.value| < 10 ^ d.exponent)
    (he : |d.value - e.value| < 10 ^ e.exponent) :
    d.value = e.value := by
  obtain ⟨k, hk, -⟩ := exists_value_eq (min_le_left d.exponent e.exponent)
  obtain ⟨l, hl, -⟩ := exists_value_eq (min_le_right d.exponent e.exponent)
  have h : |d.value - e.value| < 10 ^ min d.exponent e.exponent := by
    rcases min_choice d.exponent e.exponent with heq | heq
    · rw [heq]
      exact hd
    · rw [heq]
      exact he
  rw [hk, hl, ← sub_mul, abs_mul, abs_of_pos (ten_zpow_pos _),
    mul_lt_iff_lt_one_left (ten_zpow_pos _)] at h
  have hint : |(k : ℤ) - l| < 1 := by exact_mod_cast h
  have heq : k = l := by
    have hzero := Int.abs_lt_one_iff.mp hint
    omega
  rw [hk, hl, heq]

end Scientific

theorem Binary.significantDigits_mul_pow {n : ℕ} (hn : 0 < n) (k : ℕ) :
    significantDigits (n * 10 ^ k) = significantDigits n := by
  rw [significantDigits, Number.digits_mul_pow hn, List.reverse_append,
    List.reverse_replicate, List.dropWhile_append_of_pos (by simp),
    significantDigits]

namespace Scientific

variable {d e : Scientific}

/-- Decimals of one value have the same digits in the same places. -/
theorem digits_of_value_eq (hd : 0 < d.coefficient) (h : d.value = e.value) :
    Binary.significantDigits d.coefficient =
      Binary.significantDigits e.coefficient ∧
      d.point = e.point := by
  have he : 0 < e.coefficient := coefficient_pos (h ▸ value_pos hd)
  have hpoint : d.point = e.point := by
    apply le_antisymm
    · exact point_le_of_value_lt hd (h ▸ value_lt e)
    · exact point_le_of_value_lt he (h ▸ value_lt d)
  refine ⟨?_, hpoint⟩
  rcases le_total d.exponent e.exponent with hle | hle
  · obtain ⟨k, hk, hcoefficient⟩ := exists_value_eq hle
    rw [← h, value, mul_left_inj' (ten_zpow_pos _).ne', Nat.cast_inj] at hk
    rw [hk, hcoefficient, Binary.significantDigits_mul_pow he]
  · obtain ⟨k, hk, hcoefficient⟩ := exists_value_eq hle
    rw [h, value, mul_left_inj' (ten_zpow_pos _).ne', Nat.cast_inj] at hk
    rw [hk, hcoefficient, Binary.significantDigits_mul_pow hd]

end Scientific

/-! ## Rounding to a format -/

namespace Binary

variable {f : Format} {negative sign : Bool} {d e : Scientific}
  {num den k m : ℕ} {q r : ℤ}

theorem ofRatio_eq_finite_iff (negative : Bool) :
    ofRatio f negative num den = .finite negative m q ↔
      ofRatio f false num den = .finite false m q := by
  unfold ofRatio
  split
  · simp
  · dsimp only
    split
    · split
      · simp
      · simp
    · split
      · simp
      · simp

/-- A sign is kept. -/
theorem ofDecimal_eq_finite_iff (negative : Bool) (c : ℕ) (place : ℤ) :
    ofDecimal f negative c place = .finite negative m q ↔
      ofDecimal f false c place = .finite false m q := by
  unfold ofDecimal
  dsimp only
  split
  · simp
  · split
    · simp
    · exact ofRatio_eq_finite_iff negative

theorem ratio_eq_value (d : Scientific) :
    0 < 10 ^ (-d.exponent).toNat ∧
      ((d.coefficient * 10 ^ d.exponent.toNat : ℕ) : ℚ) /
        (10 ^ (-d.exponent).toNat : ℕ) =
        d.value := by
  refine ⟨Nat.pow_pos (by norm_num), ?_⟩
  rw [Scientific.value, ← pow_toNat_div (by norm_num) d.exponent]
  push_cast
  rw [mul_div_assoc]

/-- Decimals of sizes that a format may reach are rounded as fractions. -/
theorem ofDecimal_eq_ofRatio
    (f : Format) (negative : Bool) (hd : 0 < d.coefficient)
    (hlow : -330 ≤ d.point) (hhigh : d.point ≤ 310) :
    ofDecimal f negative d.coefficient d.exponent =
      ofRatio f negative (d.coefficient * 10 ^ d.exponent.toNat)
        (10 ^ (-d.exponent).toNat) := by
  rw [Scientific.point] at hlow hhigh
  unfold ofDecimal
  dsimp only
  rw [if_neg (by omega), if_neg (by omega)]
  rfl

/-- The value of a decimal determines what it is rounded to. -/
theorem ofDecimal_congr (f : Format) (negative : Bool) (h : d.value = e.value) :
    ofDecimal f negative d.coefficient d.exponent =
      ofDecimal f negative e.coefficient e.exponent := by
  rcases Nat.eq_zero_or_pos d.coefficient with hzero | hd
  · have hzero' : e.coefficient = 0 := by
      by_contra hne
      have hpos := Scientific.value_pos (Nat.pos_of_ne_zero hne)
      rw [← h, Scientific.value, hzero, Nat.cast_zero, zero_mul] at hpos
      exact lt_irrefl 0 hpos
    rw [hzero, hzero', ofDecimal, if_pos (Or.inl rfl), ofDecimal,
      if_pos (Or.inl rfl)]
  · have he : 0 < e.coefficient :=
      Scientific.coefficient_pos (h ▸ Scientific.value_pos hd)
    have hpoint := (Scientific.digits_of_value_eq hd h).2
    rw [Scientific.point, Scientific.point] at hpoint
    unfold ofDecimal
    dsimp only
    rw [hpoint]
    have hzero : d.coefficient = 0 ↔ e.coefficient = 0 := by omega
    simp only [hzero]
    split
    · rfl
    split
    · rfl
    · apply ofRatio_congr negative (ratio_eq_value d).1 (ratio_eq_value e).1
      exact (ratio_eq_value d).2.trans (h.trans (ratio_eq_value e).2.symm)

theorem ratio_pos (hd : 0 < d.coefficient) :
    0 < d.coefficient * 10 ^ d.exponent.toNat :=
  Nat.mul_pos hd (Nat.pow_pos (by norm_num))

theorem ofDecimal_of_near
    (hf : f.IsProper) (h : f.Holds m q) (negative : Bool)
    (hd : 0 < d.coefficient) (hlow : -330 ≤ d.point) (hhigh : d.point ≤ 310)
    (hnear : |d.value - scaled m q| < 2 ^ q / 4) :
    ofDecimal f negative d.coefficient d.exponent = .finite negative m q := by
  obtain ⟨hden, hvalue⟩ := ratio_eq_value d
  rw [ofDecimal_eq_ofRatio f negative hd hlow hhigh]
  apply ofRatio_of_near hf h negative (ratio_pos hd) hden
  rw [hvalue]
  exact hnear

theorem holds_of_ofDecimal_eq
    (hf : f.IsProper) (hm : 0 < m)
    (h : ofDecimal f negative d.coefficient d.exponent = .finite sign m q) :
    f.Holds m q ∧ |d.value - scaled m q| ≤ 2 ^ q / 2 := by
  obtain ⟨hden, hvalue⟩ := ratio_eq_value d
  unfold ofDecimal at h
  dsimp only at h
  split at h
  · cases h
    exact absurd hm (lt_irrefl 0)
  split at h
  · cases h
  · rw [← hvalue]
    exact holds_of_ofRatio_eq hf hden h

/-- What a number of one format is in another is a matter of the fraction that
is its value. -/
theorem convert_finite (f : Format) (negative : Bool) (k : ℕ) (r : ℤ) :
    ∃ num den : ℕ, 0 < den ∧ (0 < k → 0 < num) ∧ (num / den : ℚ) = scaled k r ∧
      (Binary.finite negative k r).convert f = ofRatio f negative num den := by
  have hden : 0 < Nat.pow 2 (-r).toNat := Nat.pow_pos (by norm_num)
  refine ⟨_, _, hden, fun hk =>
    Nat.mul_pos hk (Nat.pow_pos (by norm_num)), ?_, rfl⟩
  rw [scaled, ← pow_toNat_div two_ne_zero r, Nat.pow_eq]
  push_cast
  rw [mul_div_assoc]

theorem convert_of_near
    (hf : f.IsProper) (h : f.Holds m q) (negative : Bool) (hk : 0 < k)
    (hnear : |scaled k r - scaled m q| < 2 ^ q / 4) :
    (Binary.finite negative k r).convert f = .finite negative m q := by
  obtain ⟨num, den, hden, hnum, hvalue, hconvert⟩ :=
    convert_finite f negative k r
  rw [hconvert]
  apply ofRatio_of_near hf h negative (hnum hk) hden
  rw [hvalue]
  exact hnear

theorem near_of_convert_eq
    (hf : f.IsProper)
    (h : (Binary.finite negative k r).convert f = .finite sign m q) :
    |scaled k r - scaled m q| ≤ 2 ^ q / 2 := by
  obtain ⟨num, den, hden, -, hvalue, hconvert⟩ := convert_finite f negative k r
  rw [hconvert] at h
  rw [← hvalue]
  exact (holds_of_ofRatio_eq hf hden h).2

theorem convert_eq_infinity_iff (hf : f.IsProper) (negative : Bool)
    (hk : 0 < k) :
    (Binary.finite negative k r).convert f = .infinity negative ↔
      (2 * 2 ^ f.precision - 1) * 2 ^ f.greatestExponent ≤ 2 * scaled k r := by
  obtain ⟨num, den, hden, hnum, hvalue, hconvert⟩ :=
    convert_finite f negative k r
  rw [hconvert, ← hvalue]
  exact ofRatio_eq_infinity_iff hf negative (hnum hk) hden

end Binary

/-! ## Decimals of floating-point numbers -/

namespace Binary

variable {m : ℕ} {q : ℤ}

theorem halve_mul (m steps : ℕ) :
    (halve m steps).1 * 2 ^ steps = m * 2 ^ (halve m steps).2 := by
  induction steps generalizing m with
  | zero => rfl
  | succ steps ih =>
    rw [halve]
    split
    next heven =>
      have hm : m = m / 2 * 2 := by omega
      rw [pow_succ, ← mul_assoc, ih, mul_right_comm, ← hm]
    next => rfl

/-- The exact decimal has the value of the number. -/
theorem value_exactScientific (m : ℕ) (q : ℤ) :
    (exactScientific m q).value = scaled m q := by
  have hhalves := halve_mul (m * Nat.pow 2 q.toNat) (-q).toNat
  rw [exactScientific, exactDecimal, Scientific.value, scaled]
  dsimp only
  revert hhalves
  generalize halve (m * Nat.pow 2 q.toNat) (-q).toNat = x
  obtain ⟨c, places⟩ := x
  intro hhalves
  have hcast : (c : ℚ) * 2 ^ (-q).toNat = m * 2 ^ q.toNat * 2 ^ places := by
    exact_mod_cast hhalves
  have hten : (10 : ℚ) ^ (-(places : ℤ)) = (5 ^ places)⁻¹ * (2 ^ places)⁻¹ := by
    rw [zpow_neg, zpow_natCast, ← mul_inv, ← mul_pow]
    norm_num
  have htwo : (2 : ℚ) ^ places ≠ 0 := by positivity
  have htwo' : (2 : ℚ) ^ (-q).toNat ≠ 0 := by positivity
  have hfive : (5 : ℚ) ^ places ≠ 0 := by positivity
  rw [hten, ← pow_toNat_div two_ne_zero q, Nat.pow_eq]
  push_cast
  field_simp
  linarith

end Binary

/-- A decimal of at most `count` significant digits that is nearest to a number,
of two equally near ones the one with the even digit: its place is that of the
last of the number's first `count` digits, unless the number ends before. -/
structure Scientific.IsRounding (x : ℚ) (count : ℕ)
    (d : Scientific) : Prop where
  nearest : Number.IsNearest (x / 10 ^ d.exponent) d.coefficient
  short : x < 10 ^ (d.exponent + count)
  long : 10 ^ (d.exponent + count - 1) ≤ x ∨ d.value = x

namespace Binary

/-- Numbers are rounded correctly to any number of digits. -/
theorem isRounding_roundedTo (m : ℕ) (q : ℤ) {count : ℕ} (hcount : 0 < count) :
    (roundedTo m q count).IsRounding (scaled m q) count := by
  rw [← value_exactScientific m q, roundedTo]
  generalize exactScientific m q = x
  generalize hexcess : Number.digitCount x.coefficient - count = excess
  have hpow : 0 < 10 ^ excess := Nat.pow_pos (by norm_num)
  have hscaled : x.value / 10 ^ (x.exponent + excess) =
      (x.coefficient : ℚ) / (10 ^ excess : ℕ) := by
    have hne := (ten_zpow_pos x.exponent).ne'
    rw [Scientific.value, zpow_add₀ (by norm_num), zpow_natCast]
    push_cast
    field_simp
  have hnearest := Number.isNearest_divRound x.coefficient hpow
  rw [← hscaled] at hnearest
  refine ⟨hnearest, ?_, ?_⟩
  · refine lt_of_lt_of_le x.value_lt (zpow_le_zpow_right₀ (by norm_num) ?_)
    rw [Scientific.point]
    dsimp only
    omega
  · rcases Nat.eq_zero_or_pos excess with rfl | hmore
    · right
      have hexact : Number.divRound x.coefficient
          (Nat.pow 10 0) = x.coefficient := by
        apply Number.IsNearest.unique (Number.isNearest_divRound _ (by decide))
        apply Number.IsNearest.of_lt
        norm_num
      rw [Scientific.value, hexact, Nat.cast_zero, add_zero, Scientific.value]
    · left
      have hpos : 0 < x.coefficient := by
        refine Nat.pos_of_ne_zero fun hzero => ?_
        have hone : Number.digitCount 0 = 1 := rfl
        rw [hzero, hone] at hexcess
        omega
      refine le_trans (zpow_le_zpow_right₀ (by norm_num) ?_)
        (Scientific.le_value hpos)
      rw [Scientific.point]
      dsimp only
      omega

end Binary

end QueryJournal

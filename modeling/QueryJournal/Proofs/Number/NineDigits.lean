import Mathlib.Tactic.IntervalCases
import Mathlib.Tactic.NormNum
import QueryJournal.Number.Single
import QueryJournal.Proofs.Number.FifteenDigits

/-!
# Nine digits

The rounding of a single-precision number to nine digits reads back as the
number by way of double precision.  The search for the fewest digits ends with a
text exactly for the numbers below `3.4025e38`: the larger ones are rounded up
to `3.403e38` first, which no single-precision number is near.
-/

namespace QueryJournal

/-! ## Errors of rounding -/

namespace Scientific.IsRounding

variable {x : ℚ} {count : ℕ} {d : Scientific}

/-- The error is at most half of a unit of the last of the digits. -/
theorem near (h : d.IsRounding x count) (hcount : 0 < count) (hx : 0 ≤ x) :
    |d.value - x| ≤ x / 10 ^ (count - 1) / 2 := by
  rcases h.long with hlong | hexact
  · have hunit := ten_zpow_pos d.exponent
    have hclose := h.nearest.close
    rw [abs_sub_comm, sub_div' hunit.ne', abs_div, abs_of_pos hunit,
      div_le_iff₀ hunit] at hclose
    have hsplit : d.exponent + count - 1 = d.exponent + (count - 1 : ℕ) := by
      omega
    rw [hsplit, zpow_add₀ (by norm_num), zpow_natCast,
      ← le_div_iff₀ (by positivity)] at hlong
    rw [value]
    linarith
  · rw [hexact, sub_self, abs_zero]
    positivity

/-- The decade of a number determines the place of the last digit. -/
theorem exists_value_eq
    (h : d.IsRounding x count) (decade : ℤ) (hlow : 10 ^ (decade - 1) ≤ x)
    (hhigh : x < 10 ^ decade) :
    ∃ n : ℕ, Number.IsNearest (x / 10 ^ (decade - count)) n ∧
      d.value = n * 10 ^ (decade - count) := by
  have hplace : decade - count ≤ d.exponent := by
    have hpow :=
      (zpow_lt_zpow_iff_right₀ (by norm_num)).mp (lt_of_le_of_lt hlow h.short)
    omega
  rcases h.long with hlong | hexact
  · have hpow := (zpow_lt_zpow_iff_right₀ (by norm_num)).mp
      (lt_of_le_of_lt hlong hhigh)
    have heq : d.exponent = decade - count := by omega
    have hnearest := h.nearest
    rw [heq] at hnearest
    refine ⟨d.coefficient, hnearest, ?_⟩
    rw [value, heq]
  · obtain ⟨n, hn, -⟩ := Scientific.exists_value_eq hplace
    refine ⟨n, ?_, hn⟩
    rw [← hexact, hn, mul_div_cancel_right₀ _ (ten_zpow_pos _).ne']
    apply Number.IsNearest.of_lt
    norm_num

end Scientific.IsRounding

namespace Binary

variable {d : Scientific} {m k : ℕ} {q r : ℤ} {count : ℕ}

/-- Decimals of moderate size are numbers of double precision up to a small
error. -/
theorem exists_ofDecimal_double
    (negative : Bool) (hlow : 10 ^ (-50 : ℤ) ≤ d.value)
    (hhigh : d.value ≤ 10 ^ (40 : ℤ)) :
    ∃ k r, ofDecimal .double negative d.coefficient d.exponent =
      .finite negative k r ∧
      IsNormal k r ∧ |d.value - scaled k r| ≤ d.value / 2 ^ 52 := by
  have hd : 0 < d.coefficient :=
    Scientific.coefficient_pos (lt_of_lt_of_le (ten_zpow_pos _) hlow)
  have hpoint := Scientific.lt_point_of_le_value hlow
  have hpoint' : d.point ≤ 41 :=
    Scientific.point_le_of_value_lt hd (lt_of_le_of_lt hhigh (by norm_num))
  obtain ⟨hden, hvalue⟩ := ratio_eq_value d
  rw [ofDecimal_eq_ofRatio .double negative hd (by omega) (by omega)]
  have hfinite : ofRatio .double negative
      (d.coefficient * 10 ^ d.exponent.toNat)
      (10 ^ (-d.exponent).toNat) ≠ .infinity negative := by
    rw [ne_eq, ofRatio_eq_infinity_iff isProper_double negative
      (ratio_pos hd) hden, hvalue, not_le]
    have hpow : (2 : ℚ) ^ (200 : ℤ) ≤ 2 ^ Format.double.greatestExponent :=
      zpow_le_zpow_right₀ (by norm_num) (by decide)
    have hprecision : Format.double.precision = 53 := rfl
    rw [hprecision]
    norm_num at hpow hhigh ⊢
    linarith
  obtain ⟨k, r, heq⟩ :=
    (ofRatio_cases .double negative _ _).resolve_left hfinite
  obtain ⟨hholds, hnear⟩ := holds_of_ofRatio_eq isProper_double hden heq
  rw [hvalue] at hnear
  have hunit := two_zpow_pos r
  have hbounds := abs_le.mp hnear
  have hfull : 2 ^ 52 ≤ k := by
    rcases hholds.full with hleast | hfull
    · exfalso
      have hsignificand : (k : ℚ) < 2 ^ 53 := by
        exact_mod_cast hholds.significand
      have hscaled := mul_lt_mul_of_pos_right hsignificand hunit
      have hpow : (2 : ℚ) ^ r ≤ 2 ^ (-250 : ℤ) := by
        rw [hleast]
        exact zpow_le_zpow_right₀ (by norm_num) (by decide)
      rw [scaled] at hbounds
      norm_num at hpow hlow hscaled
      linarith
    · have hprecision : Format.double.precision = 53 := rfl
      rw [hprecision] at hfull
      omega
  have hnormal : IsNormal k r := ⟨hholds, hfull⟩
  have hscaled := hnormal.le_scaled
  refine ⟨k, r, heq, hnormal, le_trans hnear ?_⟩
  norm_num at hscaled ⊢
  linarith

/-! ## Single-precision numbers -/

section Single

variable (h : Format.single.Holds m q) (hm : 0 < m)

include h in
theorem scaled_lt_of_single : scaled m q < 34029 * 10 ^ 34 := by
  have hsignificand : (m : ℚ) < 2 ^ 24 := by exact_mod_cast h.significand
  have hexponent : (2 : ℚ) ^ q ≤ 2 ^ (104 : ℤ) :=
    zpow_le_zpow_right₀ (by norm_num) h.greatest
  have hscaled : scaled m q ≤ 2 ^ 24 * 2 ^ (104 : ℤ) :=
    mul_le_mul hsignificand.le hexponent (two_zpow_pos q).le (by positivity)
  norm_num at hscaled ⊢
  linarith

include h hm in
theorem le_scaled_of_single : 10 ^ (-46 : ℤ) ≤ scaled m q := by
  have hone : (1 : ℚ) ≤ m := by exact_mod_cast hm
  have hexponent : (2 : ℚ) ^ (-149 : ℤ) ≤ 2 ^ q :=
    zpow_le_zpow_right₀ (by norm_num) h.least
  have hscaled : 1 * 2 ^ (-149 : ℤ) ≤ scaled m q :=
    mul_le_mul hone hexponent (two_zpow_pos _).le (Nat.cast_nonneg m)
  norm_num at hscaled ⊢
  linarith

/-- Every rounding of a single-precision number is a number of double precision
up to a small error. -/
theorem exists_roundedDouble
    (h : Format.single.Holds m q) (hm : 0 < m) (negative : Bool)
    (hcount : 0 < count) :
    ∃ k r, roundedDouble negative m q count = .finite negative k r ∧
      IsNormal k r ∧
      |(roundedTo m q count).value - scaled k r| ≤
        (roundedTo m q count).value / 2 ^ 52 := by
  have hlow := le_scaled_of_single h hm
  have hhigh := scaled_lt_of_single h
  have hpos := scaled_pos (q := q) hm
  have hnear := (isRounding_roundedTo m q hcount).near hcount hpos.le
  have hhalf : scaled m q / 10 ^ (count - 1) / 2 ≤ scaled m q / 2 := by
    have hone : (1 : ℚ) ≤ 10 ^ (count - 1) := one_le_pow₀ (by norm_num)
    have hquot := div_le_self hpos.le hone
    linarith
  have hbounds := abs_le.mp (le_trans hnear hhalf)
  apply exists_ofDecimal_double
  · norm_num at hlow ⊢
    linarith
  · norm_num at hhigh ⊢
    linarith

/-- Rounding to a number of digits reads back as a single-precision number. -/
def ReadsBack (negative : Bool) (m : ℕ) (q : ℤ) (count : ℕ) : Prop :=
  (roundedDouble negative m q count).convert .single = .finite negative m q

/-- Nine digits suffice. -/
theorem readsBack_nine (h : Format.single.Holds m q) (hm : 0 < m)
    (negative : Bool) :
    ReadsBack negative m q 9 := by
  obtain ⟨k, r, heq, hnormal, hdouble⟩ := exists_roundedDouble h hm negative
    (by decide : 0 < 9)
  have hpos := scaled_pos (q := q) hm
  have hnear :=
    (isRounding_roundedTo m q (by decide : 0 < 9)).near (by decide) hpos.le
  have hsignificand : (m : ℚ) < 2 ^ 24 := by exact_mod_cast h.significand
  have hscaled := mul_lt_mul_of_pos_right hsignificand (two_zpow_pos q)
  have hsize : scaled m q = m * 2 ^ q := rfl
  rw [ReadsBack, heq]
  apply convert_of_near isProper_single h negative hnormal.pos
  rw [abs_le] at hdouble hnear
  rw [abs_lt]
  norm_num at hdouble hnear hscaled
  constructor
  · linarith
  · linarith

/-! ## Overflow -/

theorem convert_single_eq_infinity_iff (negative : Bool) (hk : 0 < k) :
    (Binary.finite negative k r).convert .single = .infinity negative ↔
      (2 * 2 ^ 24 - 1) * 2 ^ (104 : ℤ) ≤ 2 * scaled k r :=
  convert_eq_infinity_iff isProper_single negative hk

/-- What is rounded to at most `3.4025e38` does not overflow. -/
theorem convert_ne_infinity
    (h : Format.single.Holds m q) (hm : 0 < m) (negative : Bool)
    (hcount : 0 < count)
    (hvalue : (roundedTo m q count).value ≤ 34025 * 10 ^ 34) :
    (roundedDouble negative m q count).convert .single ≠
      .infinity negative := by
  obtain ⟨k, r, heq, hnormal, hdouble⟩ :=
    exists_roundedDouble h hm negative hcount
  rw [heq, ne_eq, convert_single_eq_infinity_iff negative hnormal.pos, not_le]
  rw [abs_le] at hdouble
  norm_num at hdouble hvalue ⊢
  linarith

/-- Numbers between two powers of ten are rounded to at most the nearest
multiple. -/
theorem roundedTo_value_le
    (top : ℕ) {bound : ℚ} (hcount : 0 < count)
    (hlow : 10 ^ (38 : ℤ) ≤ scaled m q)
    (hhigh : scaled m q < 10 ^ (39 : ℤ))
    (htop : scaled m q < (top + 1 / 2) * 10 ^ (39 - count : ℤ))
    (hbound : top * 10 ^ (39 - count : ℤ) ≤ bound) :
    (roundedTo m q count).value ≤ bound := by
  obtain ⟨n, hn, hvalue⟩ :=
    (isRounding_roundedTo m q hcount).exists_value_eq 39 hlow hhigh
  have hunit := ten_zpow_pos (39 - count)
  have hle : n ≤ top := hn.le_of_lt ((div_lt_iff₀ hunit).mpr htop)
  have hle' : (n : ℚ) ≤ top := by exact_mod_cast hle
  rw [hvalue]
  exact le_trans (mul_le_mul_of_nonneg_right hle' hunit.le) hbound

theorem roundedTo_value_le_of_lt
    (hm : 0 < m) (hsmall : scaled m q < 34025 * 10 ^ 34) (hcount : 0 < count)
    (hnine : count ≤ 9) :
    (roundedTo m q count).value ≤ 34025 * 10 ^ 34 := by
  rcases lt_or_ge (scaled m q) (10 ^ (38 : ℤ)) with hless | hlow
  · have hpos := scaled_pos (q := q) hm
    have hnear := (isRounding_roundedTo m q hcount).near hcount hpos.le
    have hone : (1 : ℚ) ≤ 10 ^ (count - 1) := one_le_pow₀ (by norm_num)
    have hquot := div_le_self hpos.le hone
    have hupper := (abs_le.mp hnear).2
    norm_num at hless ⊢
    linarith
  · have hhigh : scaled m q < 10 ^ (39 : ℤ) := lt_trans hsmall (by norm_num)
    apply roundedTo_value_le (34025 * 10 ^ count / 10 ^ 5) hcount hlow hhigh
    · refine lt_of_lt_of_le hsmall ?_
      interval_cases count
      all_goals norm_num
    · interval_cases count
      all_goals norm_num

/-- The bound is no number of the format. -/
theorem scaled_ne_bound (h : Format.single.Holds m q) :
    scaled m q ≠ 34025 * 10 ^ 34 := by
  intro heq
  have hsignificand : (m : ℚ) < 2 ^ 24 := by exact_mod_cast h.significand
  have hq : q = 104 := by
    by_contra hne
    have hgreatest : q ≤ 104 := h.greatest
    have hexponent : (2 : ℚ) ^ q ≤ 2 ^ (103 : ℤ) :=
      zpow_le_zpow_right₀ (by norm_num) (by omega)
    have hscaled : scaled m q ≤ 2 ^ 24 * 2 ^ (103 : ℤ) :=
      mul_le_mul hsignificand.le hexponent (two_zpow_pos q).le (by positivity)
    rw [heq] at hscaled
    norm_num at hscaled
  have hnat : m * 2 ^ 104 = 34025 * 10 ^ 34 := by
    rw [scaled, hq] at heq
    exact_mod_cast heq
  have hmod := congrArg (· % 2 ^ 104) hnat
  rw [Nat.mul_mod_left] at hmod
  exact absurd hmod (by decide)

end Single

/-! ## The search -/

theorem tryDigits?_of_readsBack
    {negative : Bool} (h : ReadsBack negative m q count) :
    tryDigits? negative m q count =
      some (.found (roundedDouble negative m q count)) := by
  rw [ReadsBack] at h
  rw [tryDigits?, h, if_neg Binary.noConfusion, if_pos rfl]

theorem tryDigits?_of_not_readsBack
    {negative : Bool} (h : ¬ReadsBack negative m q count)
    (hfits : (roundedDouble negative m q count).convert .single ≠
      .infinity negative) :
    tryDigits? negative m q count = none := by
  rw [ReadsBack] at h
  rw [tryDigits?, if_neg hfits, if_neg h]

theorem findSome?_range'_eq
    {β : Type} {f : ℕ → Option β} {p n : ℕ} {b : β} (hone : 1 ≤ p) (hp : p ≤ n)
    (hfound : f p = some b) (hless : ∀ k, 1 ≤ k → k < p → f k = none) :
    (List.range' 1 n).findSome? f = some b := by
  have hsplit : List.range' 1 n =
      List.range' 1 (p - 1) ++ p :: List.range' (p + 1) (n - p) := by
    have happend := List.range'_append_1 (s := 1) (m := p - 1) (n := n - p + 1)
    have hstart : 1 + (p - 1) = p := by omega
    have hlength : p - 1 + (n - p + 1) = n := by omega
    rw [hstart, hlength] at happend
    exact happend.symm
  have hnone : (List.range' 1 (p - 1)).findSome? f = none := by
    rw [List.findSome?_eq_none_iff]
    intro k hk
    rw [List.mem_range'_1] at hk
    exact hless k (by omega) (by omega)
  rw [hsplit, List.findSome?_append, hnone, List.findSome?_cons, hfound]
  rfl

/-- The fewest digits that read back are found below the bound. -/
theorem exists_singleText?_eq
    (h : Format.single.Holds m q) (hm : 0 < m) (negative : Bool)
    (hsmall : scaled m q < 34025 * 10 ^ 34) :
    ∃ count, 1 ≤ count ∧ count ≤ 9 ∧ ReadsBack negative m q count ∧
      (∀ fewer, 1 ≤ fewer → fewer < count → ¬ReadsBack negative m q fewer) ∧
      singleText? (.finite negative m q) =
        some (roundedDouble negative m q count).text := by
  classical
  have hexists : ∃ count, 1 ≤ count ∧ ReadsBack negative m q count :=
    ⟨9, by decide, readsBack_nine h hm negative⟩
  obtain ⟨hone, hreads⟩ := Nat.find_spec hexists
  have hnine : Nat.find hexists ≤ 9 :=
    Nat.find_min' hexists ⟨by decide, readsBack_nine h hm negative⟩
  have hleast : ∀ fewer, 1 ≤ fewer → fewer < Nat.find hexists →
      ¬ReadsBack negative m q fewer :=
    fun fewer hfewer hlt hreads => Nat.find_min hexists hlt ⟨hfewer, hreads⟩
  refine ⟨Nat.find hexists, hone, hnine, hreads, hleast, ?_⟩
  have hsearch : (List.range' 1 9).findSome? (tryDigits? negative m q) =
      some (.found (roundedDouble negative m q (Nat.find hexists))) := by
    apply findSome?_range'_eq hone hnine (tryDigits?_of_readsBack hreads)
    intro fewer hfewer hlt
    apply tryDigits?_of_not_readsBack (hleast fewer hfewer hlt)
    exact convert_ne_infinity h hm negative hfewer
      (roundedTo_value_le_of_lt hm hsmall hfewer (by omega))
  rw [singleText?, hsearch]

/-! ## Numbers from the bound on -/

section Large

variable (h : Format.single.Holds m q) (hlarge : 34025 * 10 ^ 34 ≤ scaled m q)

include hlarge in
theorem pos_of_large : 0 < m := by
  refine Nat.pos_of_ne_zero fun hzero => ?_
  rw [hzero, scaled, Nat.cast_zero, zero_mul] at hlarge
  norm_num at hlarge

include hlarge in
theorem decade_le_of_large : 10 ^ (38 : ℤ) ≤ scaled m q :=
  le_trans (by norm_num) hlarge

include h in
theorem lt_decade_of_single : scaled m q < 10 ^ (39 : ℤ) :=
  lt_trans (scaled_lt_of_single h) (by norm_num)

include h hlarge

/-- Rounding to four digits goes up to `3.403e38` or further. -/
theorem le_roundedTo_four : 3403 * 10 ^ 35 ≤ (roundedTo m q 4).value := by
  have hbound : (34025 : ℚ) * 10 ^ 34 < scaled m q :=
    lt_of_le_of_ne hlarge (scaled_ne_bound h).symm
  obtain ⟨n, hn, hvalue⟩ :=
    (isRounding_roundedTo m q (by decide : 0 < 4)).exists_value_eq 39
    (decade_le_of_large hlarge) (lt_decade_of_single h)
  have hquot : (3402 + 1 / 2 : ℚ) < scaled m q / 10 ^ (39 - (4 : ℕ) : ℤ) := by
    rw [lt_div_iff₀ (ten_zpow_pos _)]
    norm_num at hbound ⊢
    linarith
  have hclose := (abs_le.mp hn.close).2
  have hlt : ((3402 : ℕ) : ℚ) < n := by
    push_cast
    linarith
  have hmany : 3403 ≤ n := by exact_mod_cast hlt
  have hmany' : (3403 : ℚ) ≤ n := by exact_mod_cast hmany
  have hscaled :=
    mul_le_mul_of_nonneg_right hmany' (ten_zpow_pos (39 - (4 : ℕ))).le
  rw [hvalue]
  norm_num at hscaled ⊢
  linarith

theorem tryDigits?_four (negative : Bool) :
    tryDigits? negative m q 4 = some .overflow := by
  obtain ⟨k, r, heq, hnormal, hdouble⟩ :=
    exists_roundedDouble h (pos_of_large hlarge) negative
    (by decide : 0 < 4)
  have hvalue := le_roundedTo_four h hlarge
  have hoverflow : (roundedDouble negative m q 4).convert .single =
      .infinity negative := by
    rw [heq, convert_single_eq_infinity_iff negative hnormal.pos]
    rw [abs_le] at hdouble
    norm_num at hdouble hvalue ⊢
    linarith
  rw [tryDigits?, if_pos hoverflow]

/-- Rounding to fewer digits goes down to `3.4e38` at most. -/
theorem roundedTo_le_of_lt_four
    (hone : 1 ≤ count) (hlt : count < 4) :
    (roundedTo m q count).value ≤ 34 * 10 ^ 37 := by
  apply roundedTo_value_le (34029 * 10 ^ count / 10 ^ 5) hone
    (decade_le_of_large hlarge) (lt_decade_of_single h)
  · refine lt_of_lt_of_le (scaled_lt_of_single h) ?_
    interval_cases count
    all_goals norm_num
  · interval_cases count
    all_goals norm_num

theorem tryDigits?_of_lt_four
    (negative : Bool) (hone : 1 ≤ count) (hlt : count < 4) :
    tryDigits? negative m q count = none := by
  have hm := pos_of_large hlarge
  have hvalue := roundedTo_le_of_lt_four h hlarge hone hlt
  apply tryDigits?_of_not_readsBack
  · intro hreads
    obtain ⟨k, r, heq, hnormal, hdouble⟩ :=
      exists_roundedDouble h hm negative hone
    rw [ReadsBack, heq] at hreads
    have hnear := near_of_convert_eq isProper_single hreads
    have hexponent : (2 : ℚ) ^ q ≤ 2 ^ (104 : ℤ) :=
      zpow_le_zpow_right₀ (by norm_num) h.greatest
    rw [abs_le] at hdouble hnear
    norm_num at hdouble hvalue hnear hlarge hexponent
    linarith
  · exact convert_ne_infinity h hm negative hone (le_trans hvalue (by norm_num))

/-- From the bound on four digits overflow, while fewer do not read back. -/
theorem singleText?_eq_none (negative : Bool) :
    singleText? (.finite negative m q) = none := by
  have hsearch := findSome?_range'_eq (by decide) (by decide : 4 ≤ 9)
    (tryDigits?_four h hlarge negative)
    fun count hone hlt => tryDigits?_of_lt_four h hlarge negative hone hlt
  rw [singleText?, hsearch]

end Large

end Binary

end QueryJournal

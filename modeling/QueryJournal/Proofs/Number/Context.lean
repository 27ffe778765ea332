import QueryJournal.Number.Decimal
import QueryJournal.Proofs.Number.Decimals

/-!
# Decimal arithmetic of limited precision

A context rounds a number to the nearest decimal with as many digits as the
context has, or to the nearest multiple of its last place, ties to the even
digit.  Exactly the numbers that have such a decimal stay as they are.  There is
no result where the rounded number has a digit beyond the greatest place.
-/

namespace QueryJournal

theorem Number.isNearest_natCast (k : ℕ) : Number.IsNearest k k :=
  Number.IsNearest.of_lt (by norm_num)

theorem Number.IsNearest.ge_of_le {x : ℚ} {k n : ℕ}
    (hk : Number.IsNearest x k) (hx : n ≤ x) :
    n ≤ k := by
  have hclose := (abs_le.mp hk.close).2
  have hlt : (n : ℚ) < (k + 1 : ℕ) := by
    push_cast
    linarith
  have hlt' : n < k + 1 := by exact_mod_cast hlt
  omega

theorem Scientific.value_lt_iff (d : Scientific) (count : ℕ) :
    d.value < 10 ^ (d.exponent + count) ↔ d.coefficient < 10 ^ count := by
  rw [value, zpow_add₀ (by norm_num), mul_comm,
    mul_lt_mul_iff_right₀ (ten_zpow_pos _), zpow_natCast]
  exact_mod_cast Iff.rfl

namespace Decimal

/-- A context has at least one digit, and one is among its numbers. -/
structure Context.IsProper (ctx : Context) : Prop where
  digits : 0 < ctx.precision
  places : 0 ≤ ctx.greatest

theorem isProper_standard : standard.IsProper :=
  ⟨by decide, by decide⟩

/-- The decimal that a number is rounded to: the nearest multiple of a place, of
two equally near ones the even.  The place is the last one of the context, or
the last of as many digits as the context has, unless nothing has to be
rounded. -/
structure Context.IsRounding (ctx : Context) (x : ℚ)
    (d : Scientific) : Prop where
  nearest : Number.IsNearest (x / 10 ^ d.exponent) d.coefficient
  least : ctx.tiny ≤ d.exponent
  short : x < 10 ^ (d.exponent + ctx.precision)
  full : d.exponent = ctx.tiny ∨
    10 ^ (d.exponent + ctx.precision - 1) ≤ x ∨ d.value = x

/-- A number has a decimal with the digits and the places of a context. -/
def Context.Holds (ctx : Context) (x : ℚ) : Prop :=
  ∃ d : Scientific, d.value = x ∧ d.coefficient < 10 ^ ctx.precision ∧
    ctx.tiny ≤ d.exponent

section Rounding

variable {ctx : Context} {x : ℚ} {d e : Scientific}

/-- Multiples of the place that a number is rounded to stay as they are. -/
theorem Context.IsRounding.value_eq_of_le
    (h : ctx.IsRounding e.value d) (hplace : d.exponent ≤ e.exponent) :
    d.value = e.value := by
  obtain ⟨k, hk, -⟩ := Scientific.exists_value_eq hplace
  have hnearest := h.nearest
  rw [hk, mul_div_cancel_right₀ _ (ten_zpow_pos _).ne'] at hnearest
  rw [Scientific.value, hnearest.unique (Number.isNearest_natCast k), hk]

/-- Exactly the numbers of a context stay as they are. -/
theorem Context.IsRounding.value_eq_iff (h : ctx.IsRounding x d) :
    d.value = x ↔ ctx.Holds x := by
  constructor
  · intro hvalue
    have hshort := h.short
    rw [← hvalue, Scientific.value_lt_iff] at hshort
    exact ⟨d, hvalue, hshort, h.least⟩
  · rintro ⟨e, rfl, hdigits, hleast⟩
    rcases h.full with htiny | hlong | hvalue
    · exact h.value_eq_of_le (htiny ▸ hleast)
    · have hpow := lt_of_le_of_lt hlong ((e.value_lt_iff _).mpr hdigits)
      have hplaces := (zpow_lt_zpow_iff_right₀ (by norm_num)).mp hpow
      exact h.value_eq_of_le (by omega)
    · exact hvalue

/-- A number is rounded to one number only, whatever place it is written
with. -/
theorem Context.IsRounding.value_unique (hd : ctx.IsRounding x d)
    (he : ctx.IsRounding x e) :
    d.value = e.value := by
  wlog hplace : d.exponent ≤ e.exponent generalizing d e
  · exact (this he hd (le_of_not_ge hplace)).symm
  rcases eq_or_lt_of_le hplace with hsame | hlt
  · have hnearest := hd.nearest
    rw [hsame] at hnearest
    rw [Scientific.value, Scientific.value, hsame, hnearest.unique he.nearest]
  · have hleast := hd.least
    -- The greater place is neither the least one nor that of the first digits.
    rcases he.full with htiny | hlong | hvalue
    · omega
    · have hpow := (zpow_lt_zpow_iff_right₀ (by norm_num)).mp
        (lt_of_le_of_lt hlong hd.short)
      omega
    · rw [← hvalue] at hd
      exact hd.value_eq_of_le hplace

/-- Only at the least place is a number rounded to zero. -/
theorem Context.IsRounding.exponent_eq_tiny (hctx : ctx.IsProper)
    (h : ctx.IsRounding x d)
    (hx : 0 < x) (hzero : d.coefficient = 0) : d.exponent = ctx.tiny := by
  rcases h.full with htiny | hlong | hvalue
  · exact htiny
  · have hdigits := hctx.digits
    have hplace : (10 : ℚ) ^ d.exponent ≤ x :=
      le_trans (zpow_le_zpow_right₀ (by norm_num) (by omega)) hlong
    have hone : ((1 : ℕ) : ℚ) ≤ x / 10 ^ d.exponent := by
      rw [Nat.cast_one, le_div_iff₀ (ten_zpow_pos _), one_mul]
      exact hplace
    have hcoefficient := h.nearest.ge_of_le hone
    omega
  · rw [Scientific.value, hzero, Nat.cast_zero, zero_mul] at hvalue
    exact absurd hvalue hx.ne

theorem Context.IsRounding.value_eq_zero {place : ℤ}
    (h : ctx.IsRounding (Scientific.value ⟨0, place⟩) d) : d.value = 0 := by
  have hzero : ∀ place, Scientific.value ⟨0, place⟩ = 0 := by
    simp [Scientific.value]
  rw [h.value_eq_iff.mpr
    ⟨⟨0, ctx.tiny⟩, by rw [hzero, hzero], by positivity, le_refl _⟩, hzero]

end Rounding

/-! ## What a context computes -/

theorem lt_adjusted_iff {d : Scientific} (hd : 0 < d.coefficient) (k : ℤ) :
    k < adjusted d.coefficient d.exponent ↔ 10 ^ (k + 1) ≤ d.value := by
  have hpoint : adjusted d.coefficient d.exponent = d.point - 1 := by
    rw [adjusted, Scientific.point]
    ring
  rw [hpoint]
  constructor
  · intro hlt
    refine le_trans ?_ (Scientific.le_value hd)
    exact zpow_le_zpow_right₀ (by norm_num) (by omega)
  · intro hle
    have hlt := Scientific.lt_point_of_le_value hle
    omega

section Compute

variable (ctx : Context) (c : ℕ) (e : ℤ)

/-- The multiple of the last place that is nearest to a number. -/
def Context.nearest : Scientific :=
  ⟨Number.divRound c (Nat.pow 10 (ctx.lastPlace c e - e).toNat),
    ctx.lastPlace c e⟩

theorem isNearest_nearest :
    Number.IsNearest (Scientific.value ⟨c, e⟩ / 10 ^ (ctx.nearest c e).exponent)
      (ctx.nearest c e).coefficient := by
  have hplace : e ≤ ctx.lastPlace c e := le_max_left _ _
  have hsplit : ctx.lastPlace c e = e + (ctx.lastPlace c e - e).toNat := by
    omega
  have hpow : 0 < 10 ^ (ctx.lastPlace c e - e).toNat := by positivity
  have hscaled : Scientific.value ⟨c, e⟩ / 10 ^ ctx.lastPlace c e =
      (c : ℚ) / (10 ^ (ctx.lastPlace c e - e).toNat : ℕ) := by
    have hne := (ten_zpow_pos e).ne'
    rw [Scientific.value, hsplit, zpow_add₀ (by norm_num),
      zpow_natCast, ← hsplit]
    push_cast
    field_simp
  change Number.IsNearest (Scientific.value ⟨c, e⟩ / 10 ^ ctx.lastPlace c e) _
  rw [hscaled]
  exact Number.isNearest_divRound c hpow

theorem value_nearest_of_lastPlace_eq (h : ctx.lastPlace c e = e) :
    (ctx.nearest c e).value = Scientific.value ⟨c, e⟩ := by
  have hnearest := isNearest_nearest ctx c e
  have hexponent : (ctx.nearest c e).exponent = e := h
  rw [hexponent, Scientific.value,
    mul_div_cancel_right₀ _ (ten_zpow_pos _).ne'] at hnearest
  rw [Scientific.value, hexponent, hnearest.unique (Number.isNearest_natCast c),
    Scientific.value]

variable {ctx c e} (hc : 0 < c)

include hc

theorem isRounding_nearest :
    ctx.IsRounding (Scientific.value ⟨c, e⟩) (ctx.nearest c e) := by
  have hpoint : Scientific.point ⟨c, e⟩ = adjusted c e + 1 := by
    rw [adjusted, Scientific.point]
    ring
  have hplace : adjusted c e - ctx.precision + 1 ≤ ctx.lastPlace c e :=
    le_trans (le_max_right _ _) (le_max_right _ _)
  refine ⟨isNearest_nearest ctx c e,
    le_trans (le_max_left _ _) (le_max_right _ _), ?_, ?_⟩
  · refine lt_of_lt_of_le (Scientific.value_lt _)
      (zpow_le_zpow_right₀ (by norm_num) ?_)
    change Scientific.point ⟨c, e⟩ ≤ ctx.lastPlace c e + ctx.precision
    omega
  · change ctx.lastPlace c e = ctx.tiny ∨
      10 ^ (ctx.lastPlace c e + ctx.precision - 1) ≤ _ ∨ _
    rcases max_choice e
      (max ctx.tiny (adjusted c e - ctx.precision + 1)) with h | h
    · exact Or.inr (Or.inr (value_nearest_of_lastPlace_eq ctx c e h))
    · rcases max_choice ctx.tiny (adjusted c e - ctx.precision + 1) with h' | h'
      · exact Or.inl (h.trans h')
      · refine Or.inr (Or.inl (le_trans (zpow_le_zpow_right₀ (by norm_num) ?_)
          (Scientific.le_value (d := ⟨c, e⟩) hc)))
        have hlast : ctx.lastPlace c e = _ := h.trans h'
        omega

/-- A number with a digit beyond the greatest place is not rounded to a smaller
one. -/
theorem le_value_nearest (hctx : ctx.IsProper)
    (hlarge : ctx.greatest < adjusted c e) :
    10 ^ (ctx.greatest + 1) ≤ (ctx.nearest c e).value := by
  have hvalue : 10 ^ adjusted c e ≤ Scientific.value ⟨c, e⟩ := by
    have hle := Scientific.le_value (d := ⟨c, e⟩) hc
    have hpoint : Scientific.point ⟨c, e⟩ - 1 = adjusted c e := by
      rw [adjusted, Scientific.point]
      ring
    rwa [hpoint] at hle
  refine le_trans (zpow_le_zpow_right₀ (by norm_num) hlarge) ?_
  have hdigits := hctx.digits
  have hplaces := hctx.places
  rcases max_choice e
    (max ctx.tiny (adjusted c e - ctx.precision + 1)) with h | h
  · rw [value_nearest_of_lastPlace_eq ctx c e h]
    exact hvalue
  · rcases max_choice ctx.tiny (adjusted c e - ctx.precision + 1) with h' | h'
    · have htiny : adjusted c e - ctx.precision + 1 ≤ ctx.tiny := by
        rw [← h']
        exact le_max_right _ _
      rw [Context.tiny] at htiny
      omega
    · -- The least number with this first digit is a multiple of the place.
      have hlast : (ctx.nearest c e).exponent =
          adjusted c e - ctx.precision + 1 := h.trans h'
      have hsplit : adjusted c e =
          ((ctx.precision - 1 : ℕ) : ℤ) + (ctx.nearest c e).exponent := by omega
      have hle : ((10 ^ (ctx.precision - 1) : ℕ) : ℚ) ≤
          Scientific.value ⟨c, e⟩ / 10 ^ (ctx.nearest c e).exponent := by
        rw [le_div_iff₀ (ten_zpow_pos _)]
        push_cast
        rw [← zpow_natCast, ← zpow_add₀ (by norm_num), ← hsplit]
        exact hvalue
      have hcoefficient := (isNearest_nearest ctx c e).ge_of_le hle
      have hcast : ((10 : ℚ) ^ (ctx.precision - 1)) ≤
          (ctx.nearest c e).coefficient := by
        exact_mod_cast hcoefficient
      rw [hsplit, zpow_add₀ (by norm_num), zpow_natCast, Scientific.value]
      exact mul_le_mul_of_nonneg_right hcast (ten_zpow_pos _).le

omit hc in
/-- As long as no digit is beyond the greatest place, the last place is not
either. -/
theorem lastPlace_le (hctx : ctx.IsProper)
    (hsmall : adjusted c e ≤ ctx.greatest) :
    ctx.lastPlace c e ≤ ctx.greatest := by
  have hdigits := hctx.digits
  have hplaces := hctx.places
  have hcount := Number.digitCount_pos c
  rw [adjusted] at hsmall
  rw [Context.lastPlace, Context.tiny, adjusted]
  omega

end Compute

/-- One digit too many after rounding up is a zero. -/
def Context.carried (ctx : Context) (d : Scientific) : Scientific :=
  if d.coefficient = 10 ^ ctx.precision then
    ⟨10 ^ (ctx.precision - 1), d.exponent + 1⟩ else d

theorem value_carried {ctx : Context} (hctx : ctx.IsProper) (d : Scientific) :
    (ctx.carried d).value = d.value := by
  rw [Context.carried]
  split
  next hcarry =>
    have hdigits := hctx.digits
    have hpow : 10 ^ ctx.precision = 10 ^ (ctx.precision - 1) * 10 := by
      rw [← pow_succ]
      congr 1
      omega
    rw [Scientific.value, Scientific.value, hcarry, hpow,
      zpow_add₀ (by norm_num)]
    push_cast
    ring
  next => rfl

theorem carried_of_coefficient_eq_zero {ctx : Context} {d : Scientific}
    (hzero : (ctx.carried d).coefficient = 0) : ctx.carried d = d := by
  rw [Context.carried] at hzero ⊢
  split at hzero
  next =>
    have hpos : 0 < 10 ^ (ctx.precision - 1) := by positivity
    exact absurd hzero hpos.ne'
  next hcarry => exact if_neg hcarry

theorem round?_eq {c : ℕ}
    (hc : 0 < c) (ctx : Context) (negative : Bool) (e : ℤ) :
    ctx.round? negative c e =
      let d := ctx.carried (ctx.nearest c e)
      if ctx.greatest < adjusted c e then none
      else if ctx.greatest < adjusted d.coefficient d.exponent then none
      else some (.finite negative d.coefficient d.exponent) := by
  rw [Context.round?, if_neg hc.ne', Context.carried]
  by_cases hcarry :
      Number.divRound c (Nat.pow 10 (ctx.lastPlace c e - e).toNat) =
        Nat.pow 10 ctx.precision
  · have hcoefficient : (ctx.nearest c e).coefficient =
        10 ^ ctx.precision := hcarry
    rw [if_pos hcoefficient]
    simp only [hcarry, if_true]
    rfl
  · have hcoefficient : ¬(ctx.nearest c e).coefficient =
        10 ^ ctx.precision := hcarry
    rw [if_neg hcoefficient]
    simp only [hcarry, if_false]
    rfl

/-- The first digit of a rounded number is no further than its value says. -/
theorem adjusted_carried_le {ctx : Context}
    (hctx : ctx.IsProper) {c : ℕ} {e : ℤ}
    (hsmall : adjusted c e ≤ ctx.greatest)
    (hlt : (ctx.nearest c e).value < 10 ^ (ctx.greatest + 1)) :
    adjusted (ctx.carried (ctx.nearest c e)).coefficient
      (ctx.carried (ctx.nearest c e)).exponent ≤ ctx.greatest := by
  rcases Nat.eq_zero_or_pos
    (ctx.carried (ctx.nearest c e)).coefficient with hzero | hpos
  · -- A number that is rounded to zero keeps its place.
    have hexponent : (ctx.carried (ctx.nearest c e)).exponent =
        ctx.lastPlace c e := by
      rw [carried_of_coefficient_eq_zero hzero]
      rfl
    have hplace := lastPlace_le hctx hsmall
    have hcount : Number.digitCount 0 = 1 := rfl
    rw [hzero, hexponent, adjusted, hcount]
    omega
  · by_contra hlarge
    rw [not_le, lt_adjusted_iff hpos, value_carried hctx] at hlarge
    exact absurd hlarge (not_le.mpr hlt)

/-- A context gives the number that is rounded correctly, unless that has a
digit beyond the greatest place. -/
theorem round?_cases
    {ctx : Context} (hctx : ctx.IsProper) (negative : Bool) (c : ℕ) (e : ℤ) :
    ∃ d, ctx.IsRounding (Scientific.value ⟨c, e⟩) d ∧
      (10 ^ (ctx.greatest + 1) ≤ d.value → ctx.round? negative c e = none) ∧
      (d.value < 10 ^ (ctx.greatest + 1) → ∃ r : Scientific,
        ctx.round? negative c e =
          some (.finite negative r.coefficient r.exponent) ∧
        r.value = d.value) := by
  rcases Nat.eq_zero_or_pos c with rfl | hc
  · have hvalue : ∀ place, Scientific.value ⟨0, place⟩ = 0 := by
      simp [Scientific.value]
    refine ⟨⟨0, ctx.tiny⟩, ?_, ?_, ?_⟩
    · refine ⟨?_, le_refl _, ?_, Or.inl rfl⟩
      · rw [hvalue, zero_div]
        exact_mod_cast Number.isNearest_natCast 0
      · rw [hvalue]
        exact ten_zpow_pos _
    · intro hle
      rw [hvalue] at hle
      exact absurd (ten_zpow_pos _) (not_lt.mpr hle)
    · intro _
      refine ⟨⟨0, max ctx.tiny (min ctx.greatest e)⟩, rfl, ?_⟩
      rw [hvalue, hvalue]
  · refine ⟨ctx.nearest c e, isRounding_nearest hc, ?_, ?_⟩
    · intro hle
      have hpos : 0 < (ctx.carried (ctx.nearest c e)).coefficient := by
        apply Scientific.coefficient_pos
        rw [value_carried hctx]
        exact lt_of_lt_of_le (ten_zpow_pos _) hle
      rw [← value_carried hctx, ← lt_adjusted_iff hpos] at hle
      rw [round?_eq hc]
      dsimp only
      rw [if_pos hle, ite_self]
    · intro hlt
      have hsmall : adjusted c e ≤ ctx.greatest := by
        by_contra hlarge
        exact absurd (le_value_nearest hc hctx (not_le.mp hlarge))
          (not_le.mpr hlt)
      refine ⟨ctx.carried (ctx.nearest c e), ?_, value_carried hctx _⟩
      rw [round?_eq hc]
      dsimp only
      rw [if_neg (not_lt.mpr hsmall),
        if_neg (not_lt.mpr (adjusted_carried_le hctx hsmall hlt))]

end Decimal

end QueryJournal

import Mathlib.Algebra.Order.Field.Power
import Mathlib.Algebra.Order.Ring.Rat
import Mathlib.Tactic.FieldSimp
import Mathlib.Tactic.Linarith
import Mathlib.Tactic.Positivity
import Mathlib.Tactic.Ring
import QueryJournal.Number.Binary

/-!
# Nearest numbers

A rational number is rounded to the nearest integer, ties to the even one, and
in the same way to the nearest number of a floating-point format.  What it is
rounded to is determined by its value, not by the fraction that it is given as.
A number that is much nearer to a number of the format than the numbers of the
format are to each other is rounded to that one.
-/

namespace QueryJournal

namespace Number

/-! ## Integers -/

/-- An integer that is nearest to a number; of two equally near ones the
even. -/
structure IsNearest (x : ℚ) (k : ℕ) : Prop where
  close : |x - k| ≤ 1 / 2
  even : |x - k| = 1 / 2 → k % 2 = 0

theorem IsNearest.of_lt {x : ℚ} {k : ℕ} (h : |x - k| < 1 / 2) : IsNearest x k :=
  ⟨h.le, fun heq => absurd heq h.ne⟩

theorem IsNearest.not_lt {x : ℚ} {k l : ℕ}
    (hk : IsNearest x k) (hl : IsNearest x l) :
    ¬k < l := by
  intro hlt
  have hkx := abs_le.mp hk.close
  have hlx := abs_le.mp hl.close
  have hsucc : (k : ℚ) + 1 ≤ l := by exact_mod_cast hlt
  -- Both are at a distance of one half, so both are even, but one follows the
  -- other.
  have hk' : x - k = 1 / 2 := by linarith
  have hl' : x - l = -(1 / 2) := by linarith
  have hkeven := hk.even (by rw [hk', abs_of_pos (by norm_num)])
  have hleven := hl.even (by rw [hl', abs_neg, abs_of_pos (by norm_num)])
  have hnext : (l : ℚ) = (k + 1 : ℕ) := by
    push_cast
    linarith
  have hkl : l = k + 1 := by exact_mod_cast hnext
  omega

theorem IsNearest.unique {x : ℚ} {k l : ℕ}
    (hk : IsNearest x k) (hl : IsNearest x l) : k = l :=
  Nat.le_antisymm (Nat.le_of_not_lt (hl.not_lt hk))
    (Nat.le_of_not_lt (hk.not_lt hl))

theorem IsNearest.le_of_lt {x : ℚ} {k n : ℕ}
    (hk : IsNearest x k) (hx : x < n + 1 / 2) :
    k ≤ n := by
  have hclose := (abs_le.mp hk.close).1
  have hlt : (k : ℚ) < (n + 1 : ℕ) := by
    push_cast
    linarith
  have hlt' : k < n + 1 := by exact_mod_cast hlt
  omega

/-- Fractions are rounded to the nearest integer. -/
theorem isNearest_divRound (num : ℕ) {den : ℕ} (hden : 0 < den) :
    IsNearest ((num : ℚ) / den) (divRound num den) := by
  have hd : (0 : ℚ) < den := by exact_mod_cast hden
  have hnum : (num : ℚ) = den * (num / den : ℕ) + (num % den : ℕ) := by
    exact_mod_cast (Nat.div_add_mod num den).symm
  have hquot : (num : ℚ) / den =
      (num / den : ℕ) + ((num % den : ℕ) : ℚ) / den := by
    rw [hnum, add_div, mul_div_cancel_left₀ _ hd.ne']
  have hpart : ((num % den : ℕ) : ℚ) / den < 1 := by
    rw [div_lt_one hd]
    exact_mod_cast Nat.mod_lt num hden
  have hnonneg : 0 ≤ ((num % den : ℕ) : ℚ) / den := by positivity
  rw [hquot, divRound]
  split
  next h =>
    have hsmall : ((num % den : ℕ) : ℚ) / den < 1 / 2 := by
      rw [div_lt_div_iff₀ hd (by norm_num)]
      have hcast : (2 : ℚ) * (num % den : ℕ) < den := by exact_mod_cast h
      linarith
    apply IsNearest.of_lt
    rw [add_sub_cancel_left, abs_of_nonneg hnonneg]
    exact hsmall
  split
  next h =>
    have hlarge : 1 / 2 < ((num % den : ℕ) : ℚ) / den := by
      rw [div_lt_div_iff₀ (by norm_num) hd]
      have hcast : (den : ℚ) < 2 * (num % den : ℕ) := by exact_mod_cast h
      linarith
    apply IsNearest.of_lt
    rw [Nat.cast_succ, add_sub_add_left_eq_sub, abs_lt]
    constructor
    · linarith
    · linarith
  next h h' =>
    have hhalf : ((num % den : ℕ) : ℚ) / den = 1 / 2 := by
      rw [div_eq_div_iff hd.ne' (by norm_num)]
      have heq : 2 * (num % den) = den := by omega
      have hcast : (2 : ℚ) * (num % den : ℕ) = den := by exact_mod_cast heq
      linarith
    rw [hhalf]
    have heven : (num / den + num / den % 2) % 2 = 0 := by omega
    refine ⟨?_, fun _ => heven⟩
    rw [Nat.cast_add, add_sub_add_left_eq_sub, abs_le]
    rcases Nat.mod_two_eq_zero_or_one (num / den) with hmod | hmod
    · rw [hmod]
      norm_num
    · rw [hmod]
      norm_num

end Number

namespace Binary

/-! ## Exponents -/

/-- The value of a significand at an exponent. -/
def scaled (m : ℕ) (q : ℤ) : ℚ :=
  m * 2 ^ q

theorem two_zpow_pos (q : ℤ) : (0 : ℚ) < 2 ^ q :=
  zpow_pos (by norm_num) q

theorem two_zpow_add (q : ℤ) (k : ℕ) : (2 : ℚ) ^ (q + k) = 2 ^ k * 2 ^ q := by
  rw [zpow_add₀ (by norm_num), zpow_natCast, mul_comm]

/-- A power is a fraction of two powers with natural exponents, one of which is
zero. -/
theorem pow_toNat_div {b : ℚ} (hb : b ≠ 0) (e : ℤ) :
    b ^ e.toNat / b ^ (-e).toNat = b ^ e := by
  rw [← zpow_natCast, ← zpow_natCast, ← zpow_sub₀ hb]
  congr 1
  omega

/-- The exponent whose multiples have full precision near a number, or the least
one of the format. -/
structure Format.IsExponent (f : Format) (x : ℚ) (q : ℤ) : Prop where
  least : f.leastExponent ≤ q
  below : x < 2 ^ f.precision * 2 ^ q
  full : q = f.leastExponent ∨ 2 ^ f.precision * 2 ^ q ≤ 2 * x

theorem scaleDown_eq (num : ℕ) {den : ℕ} (hden : 0 < den) (q : ℤ) :
    0 < (scaleDown num den q).2 ∧
      ((scaleDown num den q).1 : ℚ) / (scaleDown num den q).2 =
        num / den / 2 ^ q := by
  have hd : (den : ℚ) ≠ 0 := by exact_mod_cast hden.ne'
  rw [scaleDown]
  refine ⟨Nat.mul_pos hden (Nat.pow_pos (by norm_num)), ?_⟩
  rw [← pow_toNat_div two_ne_zero q, Nat.pow_eq, Nat.pow_eq]
  push_cast
  field_simp

/-- The lengths of numerator and denominator tell the size of a fraction up to a
factor of two. -/
theorem log2_bounds {num den : ℕ} (hnum : 0 < num) (hden : 0 < den) :
    (2 : ℚ) ^ ((num.log2 : ℤ) - den.log2) < 2 * (num / den) ∧
      (num / den : ℚ) < 2 * 2 ^ ((num.log2 : ℤ) - den.log2) := by
  have hd : (0 : ℚ) < den := by exact_mod_cast hden
  have hnumLow : (2 : ℚ) ^ num.log2 ≤ num := by
    exact_mod_cast Nat.log2_self_le hnum.ne'
  have hnumHigh : (num : ℚ) < 2 ^ num.log2 * 2 := by
    rw [← pow_succ]
    exact_mod_cast Nat.lt_log2_self
  have hdenLow : (2 : ℚ) ^ den.log2 ≤ den := by
    exact_mod_cast Nat.log2_self_le hden.ne'
  have hdenHigh : (den : ℚ) < 2 ^ den.log2 * 2 := by
    rw [← pow_succ]
    exact_mod_cast Nat.lt_log2_self
  have hpow : (0 : ℚ) < 2 ^ den.log2 := by positivity
  have hnumPos : (0 : ℚ) < 2 ^ num.log2 := by positivity
  rw [zpow_sub₀ (by norm_num), zpow_natCast, zpow_natCast, mul_div_assoc',
    mul_div_assoc', div_lt_div_iff₀ hpow hd, div_lt_div_iff₀ hd hpow]
  constructor
  · nlinarith
  · nlinarith

theorem Format.IsExponent.max
    {f : Format} {x : ℚ} {q : ℤ} (hbelow : x < 2 ^ f.precision * 2 ^ q)
    (hfull : 2 ^ f.precision * 2 ^ q ≤ 2 * x) :
    f.IsExponent x (Max.max f.leastExponent q) := by
  rcases le_total f.leastExponent q with h | h
  · rw [max_eq_right h]
    exact ⟨h, hbelow, Or.inr hfull⟩
  · rw [max_eq_left h]
    refine ⟨le_refl _, lt_of_lt_of_le hbelow ?_, Or.inl rfl⟩
    exact mul_le_mul_of_nonneg_left (zpow_le_zpow_right₀ (by norm_num) h)
      (by positivity)

/-- The exponent that is found by the lengths of numerator and denominator. -/
theorem isExponent_exponentNear
    (f : Format) {num den : ℕ} (hnum : 0 < num) (hden : 0 < den) :
    f.IsExponent (num / den) (f.exponentNear num den) := by
  obtain ⟨hlow, hhigh⟩ := log2_bounds hnum hden
  rw [Format.exponentNear]
  generalize hguess : (num.log2 : ℤ) - den.log2 - f.precision = guess
  have hsize : (2 : ℚ) ^ ((num.log2 : ℤ) - den.log2) =
      2 ^ f.precision * 2 ^ guess := by
    rw [← two_zpow_add, ← hguess, sub_add_cancel]
  rw [hsize] at hlow hhigh
  obtain ⟨hpos, hscaled⟩ := scaleDown_eq num hden guess
  have hd : (0 : ℚ) < (scaleDown num den guess).2 := by exact_mod_cast hpos
  have htest : (scaleDown num den guess).1 <
      Nat.pow 2 f.precision * (scaleDown num den guess).2 ↔
      (num / den : ℚ) < 2 ^ f.precision * 2 ^ guess := by
    rw [← div_lt_iff₀ (two_zpow_pos guess), ← hscaled,
      div_lt_iff₀ hd, Nat.pow_eq]
    exact_mod_cast Iff.rfl
  dsimp only
  by_cases h : (num / den : ℚ) < 2 ^ f.precision * 2 ^ guess
  · rw [if_pos (htest.mpr h)]
    exact Format.IsExponent.max h hlow.le
  · have hnext : (2 : ℚ) ^ f.precision * 2 ^ (guess + 1) =
        2 * (2 ^ f.precision * 2 ^ guess) := by
      rw [zpow_add_one₀ (by norm_num)]
      ring
    rw [if_neg (mt htest.mp h)]
    apply Format.IsExponent.max
    · rw [hnext]
      exact hhigh
    · rw [hnext]
      linarith

theorem Format.IsExponent.not_lt
    {f : Format} {x : ℚ} {q r : ℤ}
    (hq : f.IsExponent x q) (hr : f.IsExponent x r) : ¬q < r := by
  intro hlt
  have hfull : 2 ^ f.precision * 2 ^ r ≤ 2 * x := by
    refine hr.full.resolve_left fun heq => ?_
    have hleast := hq.least
    omega
  have hstep : (2 : ℚ) * 2 ^ q ≤ 2 ^ r := by
    rw [← zpow_one_add₀ (by norm_num)]
    exact zpow_le_zpow_right₀ (by norm_num) (by omega)
  have hscaled : (2 : ℚ) ^ f.precision * (2 * 2 ^ q) ≤
      2 ^ f.precision * 2 ^ r :=
    mul_le_mul_of_nonneg_left hstep (by positivity)
  have hbelow := hq.below
  linarith

theorem Format.IsExponent.unique
    {f : Format} {x : ℚ} {q r : ℤ}
    (hq : f.IsExponent x q) (hr : f.IsExponent x r) : q = r :=
  le_antisymm (Int.not_lt.mp (hr.not_lt hq)) (Int.not_lt.mp (hq.not_lt hr))

/-! ## Numbers of a format -/

/-- The number of the format with a significand that has at most full precision,
or one more than that. -/
def Format.settle (f : Format) (negative : Bool) (m : ℕ) (q : ℤ) : Binary :=
  let (m, q) :=
    if m = Nat.pow 2 f.precision then
      (Nat.pow 2 (f.precision - 1), q + 1) else (m, q)
  if f.greatestExponent < q then .infinity negative
  else .finite negative m q

/-- A significand and an exponent of a finite number of the format. -/
structure Format.Holds (f : Format) (m : ℕ) (q : ℤ) : Prop where
  significand : m < 2 ^ f.precision
  least : f.leastExponent ≤ q
  greatest : q ≤ f.greatestExponent
  full : q = f.leastExponent ∨ 2 ^ f.precision ≤ 2 * m

/-- A format with bits and exponents. -/
structure Format.IsProper (f : Format) : Prop where
  precision : 0 < f.precision
  exponents : f.leastExponent ≤ f.greatestExponent

theorem isProper_single : Format.single.IsProper :=
  ⟨by decide, by decide⟩

theorem isProper_double : Format.double.IsProper :=
  ⟨by decide, by decide⟩

section Settle

variable {f : Format} {m : ℕ} {q : ℤ} (negative : Bool)

theorem settle_of_lt (hm : m < 2 ^ f.precision) :
    f.settle negative m q =
      if f.greatestExponent < q then .infinity negative
      else .finite negative m q := by
  have hne : ¬m = Nat.pow 2 f.precision := hm.ne
  rw [Format.settle, if_neg hne]

theorem settle_pow (f : Format) (q : ℤ) :
    f.settle negative (2 ^ f.precision) q =
      if f.greatestExponent < q + 1 then .infinity negative
      else .finite negative (2 ^ (f.precision - 1)) (q + 1) := by
  rw [Format.settle, if_pos (Nat.pow_eq).symm]
  rfl

end Settle

theorem two_mul_pow_pred {f : Format} (h : f.IsProper) :
    2 * 2 ^ (f.precision - 1) = 2 ^ f.precision := by
  rw [← pow_succ', Nat.sub_add_cancel h.precision]

variable {f : Format} {negative : Bool} {num den m : ℕ} {q : ℤ}

/-- Numbers are rounded to a significand at their exponent. -/
theorem ofRatio_eq
    (negative : Bool) (hnum : 0 < num) (hden : 0 < den)
    (hq : f.IsExponent (num / den) q)
    (hm : Number.IsNearest (num / den / 2 ^ q) m) :
    ofRatio f negative num den = f.settle negative m q := by
  have hexponent : f.exponentNear num den = q :=
    (isExponent_exponentNear f hnum hden).unique hq
  obtain ⟨hpos, hscaled⟩ := scaleDown_eq num hden q
  have hround : Number.divRound (scaleDown num den q).1
      (scaleDown num den q).2 = m := by
    refine Number.IsNearest.unique ?_ hm
    rw [← hscaled]
    exact Number.isNearest_divRound _ hpos
  rw [ofRatio, if_neg hnum.ne', Format.settle]
  simp only [hexponent, hround]

theorem exists_ofRatio_eq
    (f : Format) (negative : Bool) (hnum : 0 < num) (hden : 0 < den) :
    ∃ q m, f.IsExponent (num / den) q ∧
      Number.IsNearest (num / den / 2 ^ q : ℚ) m ∧
      ofRatio f negative num den = f.settle negative m q := by
  have hq := isExponent_exponentNear f hnum hden
  obtain ⟨hpos, hscaled⟩ := scaleDown_eq num hden (f.exponentNear num den)
  have hm := Number.isNearest_divRound
    (scaleDown num den (f.exponentNear num den)).1 hpos
  rw [hscaled] at hm
  exact ⟨_, _, hq, hm, ofRatio_eq negative hnum hden hq hm⟩

theorem ofRatio_cases (f : Format) (negative : Bool) (num den : ℕ) :
    ofRatio f negative num den = .infinity negative ∨
      ∃ m q, ofRatio f negative num den = .finite negative m q := by
  unfold ofRatio
  split
  · exact Or.inr ⟨_, _, rfl⟩
  · dsimp only
    generalize (if Number.divRound _ _ = _ then _ else _ : ℕ × ℤ) = x
    split
    · exact Or.inl rfl
    · exact Or.inr ⟨_, _, rfl⟩

theorem ofRatio_zero (f : Format) (negative : Bool) (den : ℕ) :
    ofRatio f negative 0 den = .finite negative 0 f.leastExponent := by
  rw [ofRatio, if_pos rfl]

/-- The value of a fraction determines what it is rounded to. -/
theorem ofRatio_congr
    {num' den' : ℕ} (negative : Bool) (hden : 0 < den) (hden' : 0 < den')
    (h : (num / den : ℚ) = num' / den') :
    ofRatio f negative num den = ofRatio f negative num' den' := by
  have hd : (den : ℚ) ≠ 0 := by exact_mod_cast hden.ne'
  have hd' : (den' : ℚ) ≠ 0 := by exact_mod_cast hden'.ne'
  have hzero : num = 0 ↔ num' = 0 := by
    have hcross : (num : ℚ) = 0 ↔ (num' : ℚ) = 0 := by
      rw [← div_eq_zero_iff.trans (or_iff_left hd), h,
        div_eq_zero_iff.trans (or_iff_left hd')]
    exact_mod_cast hcross
  rcases Nat.eq_zero_or_pos num with hnum | hnum
  · rw [hnum, hzero.mp hnum, ofRatio_zero, ofRatio_zero]
  · have hnum' : 0 < num' := Nat.pos_of_ne_zero (mt hzero.mpr hnum.ne')
    obtain ⟨q, m, hq, hm, heq⟩ := exists_ofRatio_eq f negative hnum hden
    rw [h] at hq hm
    rw [heq, ofRatio_eq negative hnum' hden' hq hm]

/-- A number that is much nearer to a number of the format than half its
distance to the others is rounded to it. -/
theorem ofRatio_of_near
    (hf : f.IsProper) (h : f.Holds m q) (negative : Bool) (hnum : 0 < num)
    (hden : 0 < den) (hnear : |(num / den : ℚ) - scaled m q| < 2 ^ q / 4) :
    ofRatio f negative num den = .finite negative m q := by
  have hgap : |(num / den / 2 ^ q : ℚ) - m| < 1 / 4 := by
    rw [div_sub' (two_zpow_pos q).ne', abs_div, abs_of_pos (two_zpow_pos q),
      mul_comm, div_lt_iff₀ (two_zpow_pos q)]
    rw [scaled] at hnear
    linarith
  have hlow := (abs_lt.mp hgap).1
  have hhigh := (abs_lt.mp hgap).2
  have hsignificand : (m : ℚ) + 1 ≤ 2 ^ f.precision := by
    exact_mod_cast h.significand
  have hbelow : (num / den / 2 ^ q : ℚ) < 2 ^ f.precision := by linarith
  rw [div_lt_iff₀ (two_zpow_pos q)] at hbelow
  by_cases hfull : q = f.leastExponent ∨
    (2 ^ f.precision * 2 ^ q : ℚ) ≤ 2 * (num / den)
  · rw [ofRatio_eq negative hnum hden ⟨h.least, hbelow,
        hfull⟩ (.of_lt (lt_trans hgap (by norm_num))),
      settle_of_lt negative h.significand, if_neg (Int.not_lt.mpr h.greatest)]
  -- Below a power of two the numbers of the format are twice as dense.
  · obtain ⟨hleast, hsmall⟩ := not_or.mp hfull
    have hsmall' : 2 * (num / den / 2 ^ q : ℚ) < 2 ^ f.precision := by
      rw [mul_div_assoc', div_lt_iff₀ (two_zpow_pos q)]
      exact not_le.mp hsmall
    have hpow : 2 * m = 2 ^ f.precision := by
      have hge : 2 ^ f.precision ≤ 2 * m := h.full.resolve_left hleast
      have hlt : ((2 * m : ℕ) : ℚ) < (2 ^ f.precision + 1 : ℕ) := by
        push_cast
        linarith
      have hlt' : 2 * m < 2 ^ f.precision + 1 := by exact_mod_cast hlt
      omega
    have hm : m = 2 ^ (f.precision - 1) := by
      have hpred := two_mul_pow_pred hf
      omega
    have hhalf : (2 : ℚ) ^ q = 2 * 2 ^ (q - 1) := by
      rw [← zpow_one_add₀ (by norm_num), add_sub_cancel]
    have hpowCast : (2 : ℚ) ^ f.precision = 2 * m := by exact_mod_cast hpow.symm
    have hone : (1 : ℚ) ≤ m := by
      rw [hm]
      exact_mod_cast Nat.one_le_two_pow
    have hscale : (num / den / 2 ^ (q - 1) : ℚ) = 2 * (num / den / 2 ^ q) := by
      rw [hhalf]
      field_simp
    have hq : f.IsExponent (num / den) (q - 1) := by
      refine ⟨by have hleast' := h.least; omega, ?_, Or.inr ?_⟩
      · rw [← div_lt_iff₀ (two_zpow_pos _), hscale]
        exact hsmall'
      · rw [← le_div_iff₀ (two_zpow_pos _), mul_div_assoc, hscale]
        linarith
    have hnearest : Number.IsNearest (num / den / 2 ^ (q - 1) : ℚ)
        (2 ^ f.precision) := by
      apply Number.IsNearest.of_lt
      push_cast
      rw [hscale, hpowCast, ← mul_sub, abs_mul,
        abs_of_pos (by norm_num : (0 : ℚ) < 2)]
      linarith
    rw [ofRatio_eq negative hnum hden hq hnearest, settle_pow, sub_add_cancel,
      ← hm, if_neg (Int.not_lt.mpr h.greatest)]

/-- The nearest significand, which has at most full precision or is one more
than that. -/
theorem significand_le
    (hq : f.IsExponent (num / den) q)
    (hm : Number.IsNearest (num / den / 2 ^ q) m) :
    m ≤ 2 ^ f.precision := by
  have hbelow := hq.below
  rw [← div_lt_iff₀ (two_zpow_pos q)] at hbelow
  have hclose := (abs_le.mp hm.close).1
  have hlt : (m : ℚ) < (2 ^ f.precision + 1 : ℕ) := by
    push_cast
    linarith
  have hlt' : m < 2 ^ f.precision + 1 := by exact_mod_cast hlt
  omega

theorem close_of_isNearest (hm : Number.IsNearest (num / den / 2 ^ q) m) :
    |(num / den : ℚ) - scaled m q| ≤ 2 ^ q / 2 := by
  have hclose := hm.close
  rw [div_sub' (two_zpow_pos q).ne', abs_div, abs_of_pos (two_zpow_pos q),
    mul_comm, div_le_iff₀ (two_zpow_pos q)] at hclose
  rw [scaled]
  linarith

theorem full_of_isNearest
    (hf : f.IsProper) (hq : f.IsExponent (num / den) q)
    (hm : Number.IsNearest (num / den / 2 ^ q) m) :
    q = f.leastExponent ∨ 2 ^ f.precision ≤ 2 * m := by
  refine hq.full.imp_right fun hfull => ?_
  rw [← le_div_iff₀ (two_zpow_pos q), mul_div_assoc] at hfull
  have hclose := (abs_le.mp hm.close).2
  have hpred := two_mul_pow_pred hf
  have hlt : (2 ^ f.precision : ℕ) < ((2 * m + 2 : ℕ) : ℚ) := by
    push_cast
    linarith
  have hlt' : 2 ^ f.precision < 2 * m + 2 := by exact_mod_cast hlt
  omega

/-- What is rounded to a finite number is at most half of a unit of its last
place away. -/
theorem holds_of_ofRatio_eq
    {sign : Bool} (hf : f.IsProper) (hden : 0 < den)
    (h : ofRatio f negative num den = .finite sign m q) :
    f.Holds m q ∧ |(num / den : ℚ) - scaled m q| ≤ 2 ^ q / 2 := by
  rcases Nat.eq_zero_or_pos num with hzero | hnum
  · rw [hzero, ofRatio_zero, Binary.finite.injEq] at h
    obtain ⟨-, rfl, rfl⟩ := h
    refine ⟨⟨Nat.two_pow_pos _, le_refl _, hf.exponents, Or.inl rfl⟩, ?_⟩
    rw [hzero, scaled, Nat.cast_zero, zero_div, zero_mul, sub_zero, abs_zero]
    have hpos := two_zpow_pos f.leastExponent
    positivity
  obtain ⟨r, k, hr, hk, heq⟩ := exists_ofRatio_eq f negative hnum hden
  rw [h] at heq
  rcases (significand_le hr hk).lt_or_eq with hlt | rfl
  · rw [settle_of_lt negative hlt] at heq
    split at heq
    · cases heq
    next hgreatest =>
      cases heq
      exact ⟨⟨hlt, hr.least, Int.not_lt.mp hgreatest,
          full_of_isNearest hf hr hk⟩,
        close_of_isNearest hk⟩
  · rw [settle_pow] at heq
    split at heq
    · cases heq
    next hgreatest =>
      cases heq
      have hpred := two_mul_pow_pred hf
      have hleast := hr.least
      have hclose := close_of_isNearest hk
      have hpowPos := Nat.two_pow_pos (f.precision - 1)
      refine ⟨⟨by omega, by omega, Int.not_lt.mp hgreatest, Or.inr hpred.ge⟩,
        ?_⟩
      have hvalue : scaled (2 ^ (f.precision - 1)) (r + 1) =
          scaled (2 ^ f.precision) r := by
        rw [scaled, scaled, ← hpred, zpow_add_one₀ (by norm_num)]
        push_cast
        ring
      have hpos := two_zpow_pos r
      rw [hvalue, zpow_add_one₀ (by norm_num)]
      linarith

/-- The midpoint between the largest significand and the next power of two is
rounded to the latter, which is even. -/
theorem two_mul_lt_of_isNearest
    {x : ℚ} (hf : f.IsProper) (hm : Number.IsNearest x m)
    (hlt : m < 2 ^ f.precision) :
    2 * x < 2 * 2 ^ f.precision - 1 := by
  have hpred := two_mul_pow_pred hf
  have hcast : (m : ℚ) + 1 ≤ 2 ^ f.precision := by exact_mod_cast hlt
  rcases hm.close.lt_or_eq with hclose | htie
  · have hhigh := (abs_lt.mp hclose).2
    linarith
  · have heven := hm.even htie
    have hless : m + 2 ≤ 2 ^ f.precision := by omega
    have hless' : (m : ℚ) + 2 ≤ 2 ^ f.precision := by exact_mod_cast hless
    have hhigh := (abs_le.mp hm.close).2
    linarith

/-- Numbers overflow from the midpoint between the largest number of the format
and the next power of two. -/
theorem ofRatio_eq_infinity_iff
    (hf : f.IsProper) (negative : Bool) (hnum : 0 < num) (hden : 0 < den) :
    ofRatio f negative num den = .infinity negative ↔
      (2 * 2 ^ f.precision - 1) * 2 ^ f.greatestExponent ≤
        2 * (num / den : ℚ) := by
  obtain ⟨q, m, hq, hm, heq⟩ := exists_ofRatio_eq f negative hnum hden
  have hpow : (1 : ℚ) ≤ 2 ^ f.precision := one_le_pow₀ (by norm_num)
  have hgpos := two_zpow_pos f.greatestExponent
  rw [heq]
  rcases lt_or_ge f.greatestExponent q with hlarge | hsmall
  · have hinfinite : f.settle negative m q = .infinity negative := by
      rcases (significand_le hq hm).lt_or_eq with hlt | rfl
      · rw [settle_of_lt negative hlt, if_pos hlarge]
      · rw [settle_pow, if_pos (by omega)]
    have hfull : (2 ^ f.precision * 2 ^ q : ℚ) ≤ 2 * (num / den) := by
      refine hq.full.resolve_left fun hleast => ?_
      have hexponents := hf.exponents
      omega
    have hstep : (2 : ℚ) * 2 ^ f.greatestExponent ≤ 2 ^ q := by
      rw [← zpow_one_add₀ (by norm_num)]
      exact zpow_le_zpow_right₀ (by norm_num) (by omega)
    refine iff_of_true hinfinite ?_
    nlinarith
  rcases (significand_le hq hm).lt_or_eq with hlt | rfl
  · have hfinite : f.settle negative m q = .finite negative m q := by
      rw [settle_of_lt negative hlt, if_neg (Int.not_lt.mpr hsmall)]
    refine iff_of_false (by rw [hfinite]; exact Binary.noConfusion) ?_
    have hscale : (2 : ℚ) ^ q ≤ 2 ^ f.greatestExponent :=
      zpow_le_zpow_right₀ (by norm_num) hsmall
    have hless := two_mul_lt_of_isNearest hf hm hlt
    rw [mul_div_assoc', div_lt_iff₀ (two_zpow_pos q)] at hless
    have hscaled := mul_le_mul_of_nonneg_left hscale
      (by linarith : (0 : ℚ) ≤ 2 * 2 ^ f.precision - 1)
    exact not_le.mpr (lt_of_lt_of_le hless hscaled)
  · rw [settle_pow]
    rcases hsmall.lt_or_eq with hsmaller | rfl
    · have hbelow := hq.below
      have hstep : (2 : ℚ) * 2 ^ q ≤ 2 ^ f.greatestExponent := by
        rw [← zpow_one_add₀ (by norm_num)]
        exact zpow_le_zpow_right₀ (by norm_num) (by omega)
      refine iff_of_false
        (by rw [if_neg (by omega)]; exact Binary.noConfusion) ?_
      nlinarith
    · have hclose := (abs_le.mp (close_of_isNearest hm)).1
      rw [scaled] at hclose
      push_cast at hclose
      refine iff_of_true (by rw [if_pos (by omega)]) ?_
      linarith

end Binary

end QueryJournal

import QueryJournal.Proofs.Number.Decimals

/-!
# Fifteen digits

Decimals of at most fifteen digits are farther apart than numbers of double
precision are near them.  So the shortest digits of the number that such a
decimal is rounded to are the digits of the decimal.
-/

namespace QueryJournal.Binary

variable {m : ℕ} {q : ℤ} {d e : Scientific}

/-! ## Sizes -/

/-- A number of double precision whose significand has fifty-three bits. -/
structure IsNormal (m : ℕ) (q : ℤ) : Prop where
  holds : Format.double.Holds m q
  full : 2 ^ 52 ≤ m

theorem IsNormal.pos (h : IsNormal m q) : 0 < m :=
  lt_of_lt_of_le (by norm_num) h.full

theorem IsNormal.le_scaled (h : IsNormal m q) :
    2 ^ 52 * 2 ^ q ≤ scaled m q := by
  have hfull : (2 : ℚ) ^ 52 ≤ m := by exact_mod_cast h.full
  exact mul_le_mul_of_nonneg_right hfull (two_zpow_pos q).le

/-- A decimal is within half a unit of a number's last place. -/
def IsClose (m : ℕ) (q : ℤ) (d : Scientific) : Prop :=
  |d.value - scaled m q| ≤ 2 ^ q / 2

theorem isClose_of_reads
    (h : IsNormal m q)
    (hreads : ofDecimal .double false d.coefficient d.exponent =
      .finite false m q) :
    IsClose m q d :=
  (holds_of_ofDecimal_eq isProper_double h.pos hreads).2

/-- The last place of a decimal with few digits is larger than that of the
number. -/
theorem IsClose.unit_lt
    (hclose : IsClose m q d) (h : IsNormal m q)
    (hshort : d.coefficient ≤ 4 * 10 ^ 15) :
    (2 : ℚ) ^ q < 10 ^ d.exponent := by
  have hshort' : (d.coefficient : ℚ) ≤ 4 * 10 ^ 15 := by exact_mod_cast hshort
  have hnear := (abs_le.mp hclose).1
  have hunit := two_zpow_pos q
  have hsize := h.le_scaled
  have hvalue : d.value ≤ 4 * 10 ^ 15 * 10 ^ d.exponent :=
    mul_le_mul_of_nonneg_right hshort' (ten_zpow_pos _).le
  norm_num at hsize
  linarith

/-- At most one number with few digits is close. -/
theorem IsClose.value_eq
    (hd : IsClose m q d) (he : IsClose m q e) (h : IsNormal m q)
    (hdshort : d.coefficient ≤ 4 * 10 ^ 15)
    (heshort : e.coefficient ≤ 4 * 10 ^ 15) :
    d.value = e.value := by
  have hdnear := abs_le.mp hd
  have henear := abs_le.mp he
  have hdistance : |d.value - e.value| ≤ 2 ^ q := by
    rw [abs_le]
    constructor
    · linarith
    · linarith
  exact Scientific.value_eq_of_near
    (lt_of_le_of_lt hdistance (hd.unit_lt h hdshort))
    (lt_of_le_of_lt hdistance (he.unit_lt h heshort))

theorem Format.Holds.scaled_lt (h : Format.double.Holds m q) :
    scaled m q < 10 ^ (309 : ℤ) := by
  have hsignificand : (m : ℚ) < 2 ^ 53 := by exact_mod_cast h.significand
  have hexponent : (2 : ℚ) ^ q ≤ 2 ^ (971 : ℤ) :=
    zpow_le_zpow_right₀ (by norm_num) h.greatest
  have hpow : (2 : ℚ) ^ 1024 < 10 ^ 309 := by
    exact_mod_cast (by decide +kernel : 2 ^ 1024 < 10 ^ 309)
  calc scaled m q ≤ m * 2 ^ (971 : ℤ) :=
    mul_le_mul_of_nonneg_left hexponent (Nat.cast_nonneg m)
    _ ≤ 2 ^ 53 * 2 ^ (971 : ℤ) :=
      mul_le_mul_of_nonneg_right hsignificand.le (two_zpow_pos _).le
    _ = 2 ^ 1024 := by
      rw [← zpow_natCast, ← zpow_natCast, ← zpow_add₀ (by norm_num)]
      rfl
    _ < 10 ^ 309 := hpow
    _ = 10 ^ (309 : ℤ) := (zpow_natCast 10 309).symm

theorem Format.Holds.le_scaled (h : Format.double.Holds m q) (hm : 0 < m) :
    10 ^ (-324 : ℤ) ≤ scaled m q := by
  have hone : (1 : ℚ) ≤ m := by exact_mod_cast hm
  have hexponent : (2 : ℚ) ^ (-1074 : ℤ) ≤ 2 ^ q :=
    zpow_le_zpow_right₀ (by norm_num) h.least
  have hpow : (2 : ℚ) ^ 1074 ≤ 10 ^ 324 := by
    exact_mod_cast (by decide +kernel : 2 ^ 1074 ≤ 10 ^ 324)
  calc (10 : ℚ) ^ (-324 : ℤ) = (10 ^ 324)⁻¹ := by rw [zpow_neg]; rfl
    _ ≤ (2 ^ 1074)⁻¹ := inv_anti₀ (by positivity) hpow
    _ = 2 ^ (-1074 : ℤ) := by rw [zpow_neg]; rfl
    _ ≤ 1 * 2 ^ q := by rw [one_mul]; exact hexponent
    _ ≤ scaled m q := mul_le_mul_of_nonneg_right hone (two_zpow_pos q).le

theorem scaled_pos (hm : 0 < m) : 0 < scaled m q :=
  mul_pos (by exact_mod_cast hm) (two_zpow_pos q)

/-- A decimal that has the value of a number reads back as it. -/
theorem ofDecimal_of_value_eq
    (h : Format.double.Holds m q) (hm : 0 < m) (negative : Bool)
    (hd : d.value = scaled m q) :
    ofDecimal .double negative d.coefficient d.exponent =
      .finite negative m q := by
  have hpos : 0 < d.coefficient :=
    Scientific.coefficient_pos (hd ▸ scaled_pos hm)
  have hlow := Scientific.lt_point_of_le_value (hd ▸ h.le_scaled hm)
  have hhigh := Scientific.point_le_of_value_lt hpos (hd ▸ h.scaled_lt)
  refine ofDecimal_of_near isProper_double h negative hpos
    (by omega) (by omega) ?_
  rw [hd, sub_self, abs_zero]
  have hunit := two_zpow_pos q
  positivity

/-! ## Candidates -/

theorem readsAs_iff :
    readsAs .double m q d = true ↔
      ofDecimal .double false d.coefficient d.exponent = .finite false m q :=
  decide_eq_true_iff

theorem roundedTo_coefficient_le {count : ℕ} (hcount : 0 < count) :
    (roundedTo m q count).coefficient ≤ 10 ^ count := by
  have hround := isRounding_roundedTo m q hcount
  apply hround.nearest.le_of_lt
  have hshort := hround.short
  rw [zpow_add₀ (by norm_num), mul_comm, zpow_natCast,
    ← div_lt_iff₀ (ten_zpow_pos _)] at hshort
  push_cast
  linarith

/-- The first candidate of a length is the correct rounding, the second one
differs from it by one. -/
theorem exists_shortestAt?_eq (f : Format) (m : ℕ) (q : ℤ) (count : ℕ) :
    ∃ other : Scientific, other.coefficient ≤
      (roundedTo m q count).coefficient + 1 ∧
      shortestAt? f m q count =
        [roundedTo m q count, other].find? (readsAs f m q) := by
  refine ⟨_, ?_, rfl⟩
  dsimp only
  split
  · exact le_refl _
  · exact le_trans (Nat.sub_le _ _) (Nat.le_succ _)

theorem reads_of_shortestAt?_eq
    {count : ℕ} (hcount : 0 < count)
    (h : shortestAt? .double m q count = some d) :
    ofDecimal .double false d.coefficient d.exponent = .finite false m q ∧
      d.coefficient ≤ 10 ^ count + 1 := by
  obtain ⟨other, hother, heq⟩ := exists_shortestAt?_eq .double m q count
  rw [heq] at h
  have hle := roundedTo_coefficient_le (m := m) (q := q) hcount
  refine ⟨readsAs_iff.mp (List.find?_some h), ?_⟩
  have hmem := List.mem_of_find?_eq_some h
  rw [List.mem_cons, List.mem_singleton] at hmem
  rcases hmem with rfl | rfl
  · omega
  · omega

theorem isSome_shortestAt?
    {f : Format} {count : ℕ} (h : readsAs f m q (roundedTo m q count) = true) :
    (shortestAt? f m q count).isSome = true := by
  obtain ⟨other, -, heq⟩ := exists_shortestAt?_eq f m q count
  rw [heq, List.find?_cons_of_pos h]
  rfl

/-- The last place of a decimal that reads back is not beyond the fifteenth
digit. -/
theorem exponent_le_of_isClose
    (h : IsNormal m q) (hshort : d.coefficient < 10 ^ 15)
    (hclose : IsClose m q d) {place : ℤ}
    (hlong : 10 ^ (place + 14) ≤ scaled m q) : place ≤ d.exponent := by
  by_contra hlt
  -- Otherwise the decimal is below a power of ten that is close to the number,
  -- too.
  let power : Scientific := ⟨1, place + 14⟩
  have hpower : power.value = 10 ^ (place + 14) := by
    rw [Scientific.value, Nat.cast_one, one_mul]
  have hless : d.value < power.value := by
    have hcast : (d.coefficient : ℚ) < 10 ^ 15 := by exact_mod_cast hshort
    rw [hpower]
    calc d.value < 10 ^ 15 * 10 ^ d.exponent :=
      mul_lt_mul_of_pos_right hcast (ten_zpow_pos _)
      _ = 10 ^ (d.exponent + 15) := by
        rw [zpow_add₀ (by norm_num), mul_comm]
        rfl
      _ ≤ 10 ^ (place + 14) := zpow_le_zpow_right₀ (by norm_num) (by omega)
  have hnear := abs_le.mp hclose
  have hpowerClose : IsClose m q power := by
    rw [IsClose, abs_le, hpower]
    rw [hpower] at hless
    constructor
    · linarith
    · linarith [two_zpow_pos q]
  have hone : power.coefficient ≤ 4 * 10 ^ 15 := (by decide : 1 ≤ 4 * 10 ^ 15)
  have heq := hclose.value_eq hpowerClose h (by omega) hone
  exact absurd heq hless.ne

/-- A decimal of at most fifteen digits that reads back as a number is its
correct rounding to fifteen digits, unless the latter is exact. -/
theorem reads_roundedTo_fifteen
    (h : IsNormal m q) (hshort : d.coefficient < 10 ^ 15)
    (hreads : ofDecimal .double false d.coefficient d.exponent =
      .finite false m q) :
    readsAs .double m q (roundedTo m q 15) = true := by
  have hclose := isClose_of_reads h hreads
  have hround := isRounding_roundedTo m q (by decide : 0 < 15)
  revert hround
  generalize roundedTo m q 15 = r
  intro hround
  rw [readsAs_iff]
  rcases hround.long with hlong | hexact
  · have hplace : r.exponent ≤ d.exponent := by
      have hplace : r.exponent + (15 : ℕ) - 1 = r.exponent + 14 := by omega
      rw [hplace] at hlong
      exact exponent_le_of_isClose h hshort hclose hlong
    obtain ⟨k, hk, -⟩ := Scientific.exists_value_eq hplace
    have hpos := ten_zpow_pos r.exponent
    have hunit : (2 : ℚ) ^ q < 10 ^ r.exponent := by
      have hsize : scaled m q < 10 ^ 15 * 10 ^ r.exponent := by
        have hlt := hround.short
        rw [zpow_add₀ (by norm_num), mul_comm] at hlt
        exact hlt
      have hscaled := h.le_scaled
      norm_num at hscaled
      linarith
    have hnearest : Number.IsNearest (scaled m q / 10 ^ r.exponent) k := by
      apply Number.IsNearest.of_lt
      rw [div_sub' hpos.ne', abs_div, abs_of_pos hpos, div_lt_iff₀ hpos,
        mul_comm (10 ^ _ : ℚ), ← hk, abs_sub_comm]
      rw [IsClose] at hclose
      linarith
    have heq : r.value = d.value := by
      rw [hk, Scientific.value, hround.nearest.unique hnearest]
    rw [ofDecimal_congr .double false heq]
    exact hreads
  · exact ofDecimal_of_value_eq h.holds h.pos false hexact

/-! ## The shortest decimal -/

/-- The shortest decimal of a number has the value of any decimal of at most
fifteen digits that reads back as the number. -/
theorem value_shortest
    (h : IsNormal m q) (hshort : d.coefficient < 10 ^ 15)
    (hreads : ofDecimal .double false d.coefficient d.exponent =
      .finite false m q) :
    (shortest .double m q).value = d.value := by
  have hfound : ((List.range' 1 15).findSome?
      (shortestAt? .double m q)).isSome = true := by
    rw [List.findSome?_isSome_iff]
    exact ⟨15, by
      decide, isSome_shortestAt? (reads_roundedTo_fifteen h hshort hreads)⟩
  obtain ⟨s, hs⟩ := Option.isSome_iff_exists.mp hfound
  have hshortest : shortest .double m q = s := by
    have hsplit : List.range' 1 17 = List.range' 1 15 ++ [16, 17] := rfl
    rw [shortest, hsplit, List.findSome?_append, hs]
    rfl
  obtain ⟨count, hcount, hat⟩ := List.exists_of_findSome?_eq_some hs
  rw [List.mem_range'_1] at hcount
  obtain ⟨hread, hbound⟩ := reads_of_shortestAt?_eq (by omega) hat
  have hpow : 10 ^ count ≤ 10 ^ 15 :=
    Nat.pow_le_pow_right (by decide) (by omega)
  rw [hshortest]
  exact (isClose_of_reads h hread).value_eq (isClose_of_reads h hreads) h
    (by omega) (by omega)

/-- The readable text of a number is laid out from any decimal of at most
fifteen digits that reads back as the number. -/
theorem text_finite
    (negative : Bool) (h : IsNormal m q) (hshort : d.coefficient < 10 ^ 15)
    (hreads : ofDecimal .double false d.coefficient d.exponent =
      .finite false m q) :
    (Binary.finite negative m q).text =
      (if negative then "-" else "") ++
        readable.write (significantDigits d.coefficient) d.point := by
  have hvalue := value_shortest h hshort hreads
  have hpos : 0 < d.coefficient := by
    refine Nat.pos_of_ne_zero fun hzero => ?_
    rw [hzero, ofDecimal, if_pos (Or.inl rfl)] at hreads
    cases hreads
    exact absurd h.pos (lt_irrefl 0)
  have hpos' : 0 < (shortest .double m q).coefficient :=
    Scientific.coefficient_pos (hvalue ▸ Scientific.value_pos hpos)
  obtain ⟨hdigits, hpoint⟩ := Scientific.digits_of_value_eq hpos' hvalue
  rw [Scientific.point] at hpoint
  rw [text, Layout.finiteText]
  dsimp only
  rw [if_neg h.pos.ne', hdigits, hpoint]

end QueryJournal.Binary

import Mathlib.Data.List.Induction
import Mathlib.Tactic.Linarith
import Mathlib.Tactic.Ring
import QueryJournal.Wire.BigEndian

/-!
# Bytes and integers

A row of bytes and its number determine each other once the length is known, for
natural numbers as for integers in two's complement.  An integer of any size is
written in its shortest form, except that the least integer of each length gets
one byte more than it needs.
-/

namespace QueryJournal.BigEndian

/-! ## Natural numbers -/

theorem length_ofNat (width n : ℕ) : (ofNat width n).length = width := by
  induction width generalizing n with
  | zero => rfl
  | succ width ih => rw [ofNat, List.length_append, ih, List.length_singleton]

theorem toNat_append (bytes : Bytes) (b : UInt8) :
    toNat (bytes ++ [b]) = toNat bytes * 256 + b.toNat :=
  List.foldl_append

theorem toNat_ofNat (width n : ℕ) :
    toNat (ofNat width n) = n % 256 ^ width := by
  induction width generalizing n with
  | zero =>
    rw [pow_zero, Nat.mod_one]
    rfl
  | succ width ih =>
    have hlast : (UInt8.ofNat (n % 256)).toNat = n % 256 :=
      Nat.mod_eq_of_lt (Nat.mod_lt n (by decide))
    rw [ofNat, toNat_append, ih, hlast, pow_succ', Nat.mod_mul, Nat.add_comm,
      Nat.mul_comm 256]

theorem toNat_lt (bytes : Bytes) : toNat bytes < 256 ^ bytes.length := by
  induction bytes using List.reverseRecOn with
  | nil => decide
  | append_singleton bytes b ih =>
    have hb := b.toNat_lt
    rw [toNat_append, List.length_append, List.length_singleton, pow_succ]
    omega

theorem ofNat_toNat (bytes : Bytes) :
    ofNat bytes.length (toNat bytes) = bytes := by
  induction bytes using List.reverseRecOn with
  | nil => rfl
  | append_singleton bytes b ih =>
    have hb := b.toNat_lt
    have hquotient : (toNat bytes * 256 + b.toNat) / 256 = toNat bytes := by
      omega
    have hremainder : (toNat bytes * 256 + b.toNat) % 256 = b.toNat := by omega
    rw [toNat_append, List.length_append, List.length_singleton, ofNat,
      hquotient, hremainder, ih, UInt8.ofNat_toNat]

theorem toNat_cons (b : UInt8) (bytes : Bytes) :
    toNat (b :: bytes) = b.toNat * 256 ^ bytes.length + toNat bytes := by
  induction bytes using List.reverseRecOn with
  | nil => simp [toNat]
  | append_singleton bytes last ih =>
    rw [← List.cons_append, toNat_append, ih, toNat_append, List.length_append,
      List.length_singleton, pow_succ]
    ring

theorem pow_eq_two_pow (width : ℕ) : 256 ^ width = 2 ^ (8 * width) :=
  (pow_mul 2 8 width).symm

/-- As many bits as the bytes have hold the number of the bytes. -/
theorem ofNat_bitVec {bytes : Bytes} {width : ℕ} (h : bytes.length = width) :
    ofNat width (BitVec.ofNat (8 * width) (toNat bytes)).toNat = bytes := by
  have hlt := toNat_lt bytes
  rw [h, pow_eq_two_pow] at hlt
  rw [BitVec.toNat_ofNat, Nat.mod_eq_of_lt hlt, ← h, ofNat_toNat]

theorem bitVec_toNat_ofNat (width : ℕ) (n : BitVec (8 * width)) :
    BitVec.ofNat (8 * width) (toNat (ofNat width n.toNat)) = n := by
  have hlt := n.isLt
  rw [← pow_eq_two_pow] at hlt
  rw [toNat_ofNat, Nat.mod_eq_of_lt hlt, BitVec.ofNat_toNat, BitVec.setWidth_eq]

/-! ## Integers -/

variable {width : ℕ} {v : ℤ} {bytes : Bytes}

theorem fits_iff :
    fits width v = true ↔ -(256 ^ width : ℤ) ≤ 2 * v ∧ 2 * v < 256 ^ width := by
  simp [fits]

theorem pow_eq_two_mul (hwidth : 0 < width) :
    (256 : ℤ) ^ width = 2 * 2 ^ (8 * width - 1) := by
  have hbase : (256 : ℤ) = 2 ^ 8 := by norm_num
  have hexponent : 8 * width = 8 * width - 1 + 1 := by omega
  rw [hbase, ← pow_mul, ← pow_succ', ← hexponent]

/-- A sign bit is left of the bits of each byte that hold the size. -/
theorem fits_iff_range (hwidth : 0 < width) :
    fits width v = true ↔ -2 ^ (8 * width - 1) ≤ v ∧
    v < 2 ^ (8 * width - 1) := by
  rw [fits_iff, pow_eq_two_mul hwidth]
  constructor
  · rintro ⟨hlow, hhigh⟩
    constructor
    · linarith
    · linarith
  · rintro ⟨hlow, hhigh⟩
    constructor
    · linarith
    · linarith

/-- Two's complement takes the remainder that is nearest to zero. -/
theorem toInt_eq (bytes : Bytes) :
    toInt bytes = (toNat bytes : ℤ).bmod (256 ^ bytes.length) := by
  have hmod : (toNat bytes : ℤ) % (256 ^ bytes.length : ℕ) = toNat bytes :=
    Int.emod_eq_of_lt (by positivity) (by exact_mod_cast toNat_lt bytes)
  rw [toInt, Int.bmod_def, hmod, Nat.pow_eq]
  by_cases hnil : bytes = []
  · simp [hnil, toNat]
  · have heven := pow_eq_two_mul (List.length_pos_iff.mpr hnil)
    simp only [hnil, or_false]
    push_cast
    by_cases hsmall : 2 * toNat bytes < 256 ^ bytes.length
    · have hcast : 2 * (toNat bytes : ℤ) < 256 ^ bytes.length := by
        exact_mod_cast hsmall
      rw [if_pos hsmall, if_pos (by omega)]
    · have hcast : ¬2 * (toNat bytes : ℤ) < 256 ^ bytes.length := by
        exact_mod_cast hsmall
      rw [if_neg hsmall, if_neg (by omega)]

theorem fits_toInt (bytes : Bytes) :
    fits bytes.length (toInt bytes) = true := by
  have hpos : 0 < 256 ^ bytes.length := by positivity
  have hlow := Int.le_bmod (x := toNat bytes) hpos
  have hhigh := Int.bmod_lt (x := toNat bytes) hpos
  rw [fits_iff, toInt_eq]
  rcases bytes.length.eq_zero_or_pos with hnil | hcons
  · simp [hnil] at hlow hhigh ⊢
  · have heven := pow_eq_two_mul hcons
    push_cast at hlow hhigh
    omega

theorem length_ofInt (width : ℕ) (v : ℤ) : (ofInt width v).length = width :=
  length_ofNat width _

theorem toNat_ofInt (width : ℕ) (v : ℤ) :
    (toNat (ofInt width v) : ℤ) = v % 256 ^ width := by
  have hnonneg : 0 ≤ v % 256 ^ width := Int.emod_nonneg v (by positivity)
  rw [ofInt, toNat_ofNat, Nat.pow_eq]
  push_cast
  rw [Int.toNat_of_nonneg hnonneg, Int.emod_emod]

theorem toInt_ofInt (h : fits width v = true) : toInt (ofInt width v) = v := by
  have hrange := fits_iff.mp h
  have hmod := Int.emod_bmod v (256 ^ width)
  push_cast at hmod
  rw [toInt_eq, toNat_ofInt, length_ofInt, hmod]
  apply Int.bmod_eq_of_le_mul_two
  · push_cast
    linarith
  · push_cast
    linarith

theorem ofInt_toInt (bytes : Bytes) :
    ofInt bytes.length (toInt bytes) = bytes := by
  have hmod := Int.bmod_emod (x := toNat bytes) (m := 256 ^ bytes.length)
  have hlt := toNat_lt bytes
  rw [ofInt, toInt_eq, Nat.pow_eq, hmod]
  have hnumber :
      ((toNat bytes : ℤ) % (256 ^ bytes.length : ℕ)).toNat = toNat bytes := by
    rw [← Int.natCast_mod, Int.toNat_natCast, Nat.mod_eq_of_lt hlt]
  rw [hnumber, ofNat_toNat]

theorem toInt_injective {other : Bytes} (hlength : bytes.length = other.length)
    (h : toInt bytes = toInt other) : bytes = other := by
  rw [← ofInt_toInt bytes, ← ofInt_toInt other, hlength, h]

/-! ## Integers of any size -/

theorem bitLength_le_iff {k : ℕ} : bitLength v ≤ k ↔ v.natAbs < 2 ^ k := by
  rw [bitLength]
  by_cases hzero : v = 0
  · simp [hzero]
  · rw [if_neg hzero, Nat.add_one_le_iff,
      Nat.log2_lt (Int.natAbs_ne_zero.mpr hzero)]

theorem length_ofIntAny (v : ℤ) : (ofIntAny v).length = bitLength v / 8 + 1 :=
  length_ofInt _ v

/-- The bytes that hold the size of an integer and one byte more hold its sign,
too. -/
theorem fits_bitLength (v : ℤ) : fits (bitLength v / 8 + 1) v = true := by
  have hsize : v.natAbs < 2 ^ (8 * (bitLength v / 8 + 1) - 1) :=
    bitLength_le_iff.mp (by omega)
  rw [fits_iff_range (Nat.succ_pos _)]
  zify at hsize
  rw [abs_lt] at hsize
  exact ⟨hsize.1.le, hsize.2⟩

theorem toInt_ofIntAny (v : ℤ) : toInt (ofIntAny v) = v :=
  toInt_ofInt (fits_bitLength v)

/-- The fewest bytes that stand for an integer.  At least one byte is needed,
since it holds the sign. -/
structure IsShortest (v : ℤ) (bytes : Bytes) : Prop where
  nonempty : bytes ≠ []
  stands : toInt bytes = v
  least : ∀ other, other ≠ [] → toInt other = v → bytes.length ≤ other.length

/-- An integer that is not the least one of a length needs a sign bit beside its
size. -/
theorem length_ofIntAny_le (hbytes : bytes ≠ []) (hv : toInt bytes = v)
    (hleast : v ≠ -2 ^ (8 * bytes.length - 1)) :
    (ofIntAny v).length ≤ bytes.length := by
  have hlength := List.length_pos_iff.mpr hbytes
  have hfits := fits_toInt bytes
  rw [hv, fits_iff_range hlength] at hfits
  have hsize : v.natAbs < 2 ^ (8 * bytes.length - 1) := by
    zify
    rw [abs_lt]
    exact ⟨lt_of_le_of_ne hfits.1 hleast.symm, hfits.2⟩
  have hbits := bitLength_le_iff.mpr hsize
  rw [length_ofIntAny]
  omega

theorem isShortest_ofIntAny (hleast : ∀ k, 0 < k → v ≠ -2 ^ (8 * k - 1)) :
    IsShortest v (ofIntAny v) := by
  refine ⟨?_, toInt_ofIntAny v, ?_⟩
  · rw [← List.length_pos_iff, length_ofIntAny]
    exact Nat.succ_pos _
  · intro other hother hv
    exact length_ofIntAny_le hother hv
      (hleast _ (List.length_pos_iff.mpr hother))

/-- The sign of a negative integer may be repeated in front. -/
theorem toInt_cons_of_neg (h : toInt bytes < 0) :
    toInt (0xff :: bytes) = toInt bytes := by
  have hlt := toNat_lt bytes
  have hnil : bytes ≠ [] := by
    rintro rfl
    exact absurd h (by decide)
  simp only [toInt, hnil, or_false, Nat.pow_eq] at h ⊢
  have hlarge : ¬2 * toNat bytes < 256 ^ bytes.length := by
    intro hsmall
    rw [if_pos hsmall] at h
    omega
  have hnumber : toNat (0xff :: bytes) =
      255 * 256 ^ bytes.length + toNat bytes :=
    toNat_cons 0xff bytes
  have hpow : 256 ^ (0xff :: bytes).length = 256 * 256 ^ bytes.length :=
    pow_succ' 256 _
  rw [hnumber, hpow, if_neg hlarge, if_neg (by simp; omega)]
  push_cast
  ring

theorem bitLength_least {k : ℕ} (hk : 0 < k) :
    bitLength (-2 ^ (8 * k - 1)) = 8 * k := by
  have habs : (-2 ^ (8 * k - 1) : ℤ).natAbs = 2 ^ (8 * k - 1) := by
    rw [Int.natAbs_neg, Int.natAbs_pow]
    rfl
  apply Nat.le_antisymm
  · rw [bitLength_le_iff, habs]
    exact Nat.pow_lt_pow_right (by decide) (by omega)
  · by_contra hlt
    have hle : bitLength (-2 ^ (8 * k - 1)) ≤ 8 * k - 1 := by omega
    rw [bitLength_le_iff, habs] at hle
    exact lt_irrefl _ hle

theorem fits_least {k : ℕ} (hk : 0 < k) : fits k (-2 ^ (8 * k - 1)) = true := by
  rw [fits_iff_range hk]
  have hpos : (0 : ℤ) < 2 ^ (8 * k - 1) := by positivity
  exact ⟨le_refl _, by linarith⟩

/-- The least integer of a length gets a byte that only repeats its sign. -/
theorem ofIntAny_least {k : ℕ} (hk : 0 < k) :
    ofIntAny (-2 ^ (8 * k - 1)) = 0xff :: ofInt k (-2 ^ (8 * k - 1)) := by
  have hstands := toInt_ofInt (fits_least hk)
  have hneg : toInt (ofInt k (-2 ^ (8 * k - 1))) < 0 := by
    rw [hstands]
    have hpos : (0 : ℤ) < 2 ^ (8 * k - 1) := by positivity
    linarith
  apply toInt_injective
  · rw [length_ofIntAny, bitLength_least hk, List.length_cons, length_ofInt]
    omega
  · rw [toInt_ofIntAny, toInt_cons_of_neg hneg, hstands]

theorem isShortest_least {k : ℕ} (hk : 0 < k) :
    IsShortest (-2 ^ (8 * k - 1)) (ofInt k (-2 ^ (8 * k - 1))) := by
  refine ⟨?_, toInt_ofInt (fits_least hk), ?_⟩
  · rw [← List.length_pos_iff, length_ofInt]
    exact hk
  · intro other hother hv
    have hlength := List.length_pos_iff.mpr hother
    have hfits := fits_toInt other
    rw [hv, fits_iff_range hlength] at hfits
    have hpow : (2 : ℤ) ^ (8 * k - 1) ≤ 2 ^ (8 * other.length - 1) := by
      linarith [hfits.1]
    have hexponents :=
      (pow_le_pow_iff_right₀ (by norm_num : (1 : ℤ) < 2)).mp hpow
    rw [length_ofInt]
    omega

end QueryJournal.BigEndian

import QueryJournal.Text.Utf8

/-!
# UTF-8 that is written and read

Each character is read from its own bytes, whatever follows them.  So no byte of
a text is a gap.  Conversely the bytes that a character is read from are those
that it is written as, since longer forms and surrogates are refused.  A byte
that is a character by itself is read wherever it stands.
-/

namespace QueryJournal.Text.Utf8

/-! ## Bytes -/

theorem toNat_ofNat {n : Nat} (h : n < 256) : (UInt8.ofNat n).toNat = n :=
  UInt8.toNat_ofNat_of_lt' h

section Compare

variable {n k : Nat} (hn : n < 256) (hk : k < 256)

include hn hk

theorem ofNat_lt_ofNat_iff : UInt8.ofNat n < UInt8.ofNat k ↔ n < k := by
  rw [UInt8.lt_iff_toNat_lt, toNat_ofNat hn, toNat_ofNat hk]

theorem ofNat_le_ofNat_iff : UInt8.ofNat n ≤ UInt8.ofNat k ↔ n ≤ k := by
  rw [UInt8.le_iff_toNat_le, toNat_ofNat hn, toNat_ofNat hk]

end Compare

/-- Whether a byte lies between two others. -/
theorem within_iff
    {n : Nat} (low high : Nat) (hn : n < 256) (hlow : low < 256)
    (hhigh : high < 256) :
    UInt8.ofNat low ≤ UInt8.ofNat n ∧ UInt8.ofNat n ≤ UInt8.ofNat high ↔
      low ≤ n ∧ n ≤ high :=
  and_congr (ofNat_le_ofNat_iff hlow hn) (ofNat_le_ofNat_iff hn hhigh)

/-- A byte that continues a sequence gives back its six bits. -/
theorem tail?_ofNat {n : Nat} (h : n < 64) :
    tail? (UInt8.ofNat (n + 128)) = some n := by
  have hrange : (0x80 : UInt8) ≤ UInt8.ofNat (n + 128) ∧
      UInt8.ofNat (n + 128) ≤ 0xBF :=
    (within_iff 128 191 (by omega) (by omega) (by omega)).mpr (by omega)
  rw [tail?, if_pos hrange, toNat_ofNat (by omega), Nat.add_sub_cancel]

/-! ## Characters -/

theorem toNat_ofNat_of_isValidChar {n : Nat} (h : n.isValidChar) :
    (Char.ofNat n).toNat = n := by
  rw [Char.ofNat, dif_pos h]
  rfl

theorem toNat_charOfNat {n : Nat} (h : n < 0x80) : (Char.ofNat n).toNat = n :=
  toNat_ofNat_of_isValidChar (Or.inl (by omega))

theorem scalar?_toNat {least n : Nat} {c : Char}
    (hc : c.toNat = n) (h : least ≤ n) :
    scalar? least n = some c := by
  subst hc
  have hvalid : c.toNat.isValidChar := c.valid
  rw [scalar?, dif_pos ⟨hvalid, h⟩]
  rfl

section Lead

variable {n : Nat} (rest : List UInt8)

theorem charAt?_one (h : n < 0x80) :
    charAt? (UInt8.ofNat n) rest = some (Char.ofNat n, 0) := by
  have hlead : UInt8.ofNat n < 0x80 :=
    (ofNat_lt_ofNat_iff (k := 128) (by omega) (by omega)).mpr h
  unfold charAt?
  rw [if_pos hlead, toNat_ofNat (by omega)]

variable {x y z w : Nat} (hy : y < 64) (hz : z < 64) (hw : w < 64)

include hy

theorem charAt?_two (hx : 2 ≤ x ∧ x < 32) :
    charAt? (UInt8.ofNat (x + 192)) (UInt8.ofNat (y + 128) :: rest) =
      (scalar? 0x80 (x * 64 + y)).map (·, 1) := by
  have hone : ¬UInt8.ofNat (x + 192) < 0x80 :=
    mt (ofNat_lt_ofNat_iff (k := 128) (by omega) (by omega)).mp (by omega)
  have htwo : 0xC2 ≤ UInt8.ofNat (x + 192) ∧ UInt8.ofNat (x + 192) ≤ 0xDF :=
    (within_iff 194 223 (by omega) (by omega) (by omega)).mpr (by omega)
  unfold charAt?
  rw [if_neg hone, if_pos htwo]
  dsimp only
  rw [tail?_ofNat hy, toNat_ofNat (by omega), Nat.add_sub_cancel]
  change (scalar? 0x80 (x * 64 + y) >>= _) = _
  cases scalar? 0x80 (x * 64 + y) <;> rfl

include hz

theorem charAt?_three (hx : x < 16) :
    charAt? (UInt8.ofNat (x + 224))
      (UInt8.ofNat (y + 128) :: UInt8.ofNat (z + 128) :: rest) =
      (scalar? 0x800 ((x * 64 + y) * 64 + z)).map (·, 2) := by
  have hone : ¬UInt8.ofNat (x + 224) < 0x80 :=
    mt (ofNat_lt_ofNat_iff (k := 128) (by omega) (by omega)).mp (by omega)
  have htwo : ¬(0xC2 ≤ UInt8.ofNat (x + 224) ∧ UInt8.ofNat (x + 224) ≤ 0xDF) :=
    mt (within_iff 194 223 (by omega) (by omega) (by omega)).mp (by omega)
  have hthree : 0xE0 ≤ UInt8.ofNat (x + 224) ∧ UInt8.ofNat (x + 224) ≤ 0xEF :=
    (within_iff 224 239 (by omega) (by omega) (by omega)).mpr (by omega)
  unfold charAt?
  rw [if_neg hone, if_neg htwo, if_pos hthree]
  dsimp only
  rw [tail?_ofNat hy, tail?_ofNat hz, toNat_ofNat (by omega),
    Nat.add_sub_cancel]
  change (scalar? 0x800 ((x * 64 + y) * 64 + z) >>= _) = _
  cases scalar? 0x800 ((x * 64 + y) * 64 + z) <;> rfl

include hw

theorem charAt?_four (hx : x < 5) :
    charAt? (UInt8.ofNat (x + 240))
        (UInt8.ofNat (y + 128) :: UInt8.ofNat (z + 128) ::
          UInt8.ofNat (w + 128) :: rest) =
      (scalar? 0x10000 (((x * 64 + y) * 64 + z) * 64 + w)).map (·, 3) := by
  have hone : ¬UInt8.ofNat (x + 240) < 0x80 :=
    mt (ofNat_lt_ofNat_iff (k := 128) (by omega) (by omega)).mp (by omega)
  have htwo : ¬(0xC2 ≤ UInt8.ofNat (x + 240) ∧ UInt8.ofNat (x + 240) ≤ 0xDF) :=
    mt (within_iff 194 223 (by omega) (by omega) (by omega)).mp (by omega)
  have hthree : ¬(0xE0 ≤ UInt8.ofNat (x + 240) ∧
      UInt8.ofNat (x + 240) ≤ 0xEF) :=
    mt (within_iff 224 239 (by omega) (by omega) (by omega)).mp (by omega)
  have hfour : 0xF0 ≤ UInt8.ofNat (x + 240) ∧ UInt8.ofNat (x + 240) ≤ 0xF4 :=
    (within_iff 240 244 (by omega) (by omega) (by omega)).mpr (by omega)
  unfold charAt?
  rw [if_neg hone, if_neg htwo, if_neg hthree, if_pos hfour]
  dsimp only
  rw [tail?_ofNat hy, tail?_ofNat hz, tail?_ofNat hw, toNat_ofNat (by omega),
    Nat.add_sub_cancel]
  change (scalar? 0x10000 (((x * 64 + y) * 64 + z) * 64 + w) >>= _) = _
  cases scalar? 0x10000 (((x * 64 + y) * 64 + z) * 64 + w) <;> rfl

end Lead

section Encoded

variable {c : Char} {x y z w : Nat}

theorem utf8EncodeChar_one (hc : c.toNat < 0x80) :
    String.utf8EncodeChar c = [UInt8.ofNat c.toNat] := by
  change c.val.toNat < 0x80 at hc
  rw [String.utf8EncodeChar]
  exact if_pos (by omega)

variable (hy : y < 64) (hz : z < 64) (hw : w < 64)

include hy

theorem utf8EncodeChar_two (hc : c.toNat = x * 64 + y) (hx : 2 ≤ x ∧ x < 32) :
    String.utf8EncodeChar c =
      [UInt8.ofNat (x + 192), UInt8.ofNat (y + 128)] := by
  change c.val.toNat = _ at hc
  have hlead : c.val.toNat / 64 % 32 = x := by omega
  have htail : c.val.toNat % 64 = y := by omega
  simp only [String.utf8EncodeChar, hlead, htail]
  rw [if_neg (by omega), if_pos (by omega)]

include hz

/-- Three bytes are needed if two do not hold the character. -/
theorem utf8EncodeChar_three
    (hc : c.toNat = (x * 64 + y) * 64 + z) (hx : x < 16)
    (hleast : 0x800 ≤ c.toNat) :
    String.utf8EncodeChar c =
      [UInt8.ofNat (x + 224), UInt8.ofNat (y + 128),
        UInt8.ofNat (z + 128)] := by
  change c.val.toNat = _ at hc
  change 0x800 ≤ c.val.toNat at hleast
  have hlead : c.val.toNat / 4096 % 16 = x := by omega
  have hmiddle : c.val.toNat / 64 % 64 = y := by omega
  have htail : c.val.toNat % 64 = z := by omega
  simp only [String.utf8EncodeChar, hlead, hmiddle, htail]
  rw [if_neg (by omega), if_neg (by omega), if_pos (by omega)]

include hw

theorem utf8EncodeChar_four
    (hc : c.toNat = ((x * 64 + y) * 64 + z) * 64 + w) (hx : x < 5)
    (hleast : 0x10000 ≤ c.toNat) :
    String.utf8EncodeChar c = [UInt8.ofNat (x + 240), UInt8.ofNat (y + 128),
      UInt8.ofNat (z + 128), UInt8.ofNat (w + 128)] := by
  change c.val.toNat = _ at hc
  change 0x10000 ≤ c.val.toNat at hleast
  have hlead : c.val.toNat / 262144 % 8 = x := by omega
  have hsecond : c.val.toNat / 4096 % 64 = y := by omega
  have hthird : c.val.toNat / 64 % 64 = z := by omega
  have htail : c.val.toNat % 64 = w := by omega
  simp only [String.utf8EncodeChar, hlead, hsecond, hthird, htail]
  rw [if_neg (by omega), if_neg (by omega), if_neg (by omega)]

end Encoded

/-- A character is read from its bytes, whatever follows them. -/
theorem exists_charAt?_encode (c : Char) :
    ∃ a more, String.utf8EncodeChar c = a :: more ∧
      ∀ rest, charAt? a (more ++ rest) = some (c, more.length) := by
  have hbound : c.toNat < 0x110000 := by
    have hvalid : c.toNat.isValidChar := c.valid
    rcases hvalid with h | ⟨-, h⟩
    · exact Nat.lt_trans h (by decide)
    · exact h
  have hlow : c.toNat % 64 < 64 := Nat.mod_lt _ (by decide)
  have hmiddle : c.toNat / 64 % 64 < 64 := Nat.mod_lt _ (by decide)
  have hhigh : c.toNat / 4096 % 64 < 64 := Nat.mod_lt _ (by decide)
  by_cases hone : c.toNat < 0x80
  · refine ⟨_, _, utf8EncodeChar_one hone, fun rest => ?_⟩
    rw [List.nil_append, charAt?_one rest hone, Char.ofNat_toNat]
    rfl
  by_cases htwo : c.toNat < 0x800
  · have hc : c.toNat = c.toNat / 64 * 64 + c.toNat % 64 := by omega
    refine ⟨_, _, utf8EncodeChar_two hlow hc (by omega), fun rest => ?_⟩
    rw [List.singleton_append, charAt?_two rest hlow (by omega),
      scalar?_toNat hc (by omega)]
    rfl
  by_cases hthree : c.toNat < 0x10000
  · have hc : c.toNat = (c.toNat / 4096 * 64 + c.toNat / 64 % 64) * 64 +
        c.toNat % 64 := by omega
    refine ⟨_, _, utf8EncodeChar_three hmiddle hlow hc (by omega) (by omega),
      fun rest => ?_⟩
    rw [List.cons_append, List.singleton_append,
      charAt?_three rest hmiddle hlow (by omega), scalar?_toNat hc (by omega)]
    rfl
  · have hc : c.toNat =
        ((c.toNat / 262144 * 64 + c.toNat / 4096 % 64) * 64 + c.toNat /
          64 % 64) * 64 +
          c.toNat % 64 := by omega
    refine ⟨_, _,
      utf8EncodeChar_four hhigh hmiddle hlow hc (by omega) (by omega),
      fun rest => ?_⟩
    rw [List.cons_append, List.cons_append, List.singleton_append, charAt?_four
      rest hhigh hmiddle hlow (by omega), scalar?_toNat hc (by omega)]
    rfl

/-! ## Texts -/

theorem symbolsAfter_append (skipped rest : List UInt8) :
    symbolsAfter skipped.length (skipped ++ rest) = symbolsAfter 0 rest := by
  induction skipped with
  | nil => rfl
  | cons b skipped ih => exact ih

theorem symbols_encode (cs : List Char) :
    symbols (encode cs) = cs.map some := by
  rw [symbols, encode]
  induction cs with
  | nil => rfl
  | cons c cs ih =>
    obtain ⟨a, more, hbytes, hread⟩ := exists_charAt?_encode c
    rw [List.flatMap_cons, hbytes, List.cons_append, symbolsAfter, hread]
    dsimp only
    rw [symbolsAfter_append, ih, List.map_cons]

theorem mapM_id_eq_some_iff {symbols : List (Option Char)} {cs : List Char} :
    symbols.mapM id = some cs ↔ symbols = cs.map some := by
  constructor
  · intro h
    induction symbols generalizing cs with
    | nil =>
      cases h
      rfl
    | cons symbol symbols ih =>
      simp only [List.mapM_cons, id, Option.bind_eq_bind,
        Option.bind_eq_some_iff, Option.pure_def, Option.some.injEq] at h
      obtain ⟨c, rfl, cs', hrest, rfl⟩ := h
      rw [ih hrest, List.map_cons]
  · rintro rfl
    induction cs with
    | nil => rfl
    | cons c cs ih =>
      rw [List.map_cons, List.mapM_cons, ih]
      rfl

theorem mapM_id_eq_none_iff {symbols : List (Option Char)} :
    symbols.mapM id = none ↔ none ∈ symbols := by
  induction symbols with
  | nil => simp
  | cons symbol symbols ih =>
    cases symbol with
    | none => simp
    | some c =>
      rw [List.mapM_cons]
      cases hmore : symbols.mapM id with
      | none => simp [← ih, hmore]
      | some cs => simp [← ih, hmore]

/-- Well-formed bytes are what is written. -/
theorem decode?_encode (cs : List Char) : decode? (encode cs) = some cs :=
  mapM_id_eq_some_iff.mpr (symbols_encode cs)

/-! ## Bytes that were read -/

theorem eq_ofNat_of_tail? {b : UInt8} {n : Nat} (h : tail? b = some n) :
    n < 64 ∧ b = UInt8.ofNat (n + 128) := by
  rw [tail?] at h
  split at h
  next hrange =>
    obtain rfl := Option.some.inj h
    have hlow : 128 ≤ b.toNat := UInt8.le_iff_toNat_le.mp hrange.1
    have hhigh : b.toNat ≤ 191 := UInt8.le_iff_toNat_le.mp hrange.2
    refine ⟨by omega, ?_⟩
    rw [Nat.sub_add_cancel hlow, UInt8.ofNat_toNat]
  next => cases h

theorem toNat_of_scalar? {least n : Nat} {c : Char}
    (h : scalar? least n = some c) :
    c.toNat = n ∧ least ≤ n := by
  by_cases hvalid : n.isValidChar ∧ least ≤ n
  · rw [scalar?, dif_pos hvalid] at h
    cases h
    exact ⟨rfl, hvalid.2⟩
  · rw [scalar?, dif_neg hvalid] at h
    cases h

/-- A first byte of a range is the least one of the range and some bits. -/
theorem exists_eq_ofNat_of_within {a : UInt8}
    (base low high : Nat) (hlow : low < 256)
    (hhigh : high < 256) (hbase : base ≤ low)
    (h : UInt8.ofNat low ≤ a ∧ a ≤ UInt8.ofNat high) :
    a = UInt8.ofNat (a.toNat - base + base) ∧ low ≤ a.toNat ∧
    a.toNat ≤ high := by
  have hleast := UInt8.le_iff_toNat_le.mp h.1
  have hgreatest := UInt8.le_iff_toNat_le.mp h.2
  rw [toNat_ofNat hlow] at hleast
  rw [toNat_ofNat hhigh] at hgreatest
  refine ⟨?_, hleast, hgreatest⟩
  rw [Nat.sub_add_cancel (Nat.le_trans hbase hleast), UInt8.ofNat_toNat]

/-- A character that was read is written as the bytes that were read, so there
is just one form of it. -/
theorem encode_of_charAt? {a : UInt8} {rest : List UInt8} {c : Char} {k : Nat}
    (h : charAt? a rest = some (c, k)) :
    ∃ more later, rest = more ++ later ∧ more.length = k ∧
      String.utf8EncodeChar c = a :: more := by
  unfold charAt? at h
  split at h
  next hone =>
    cases h
    have hlt : a.toNat < 128 := UInt8.lt_iff_toNat_lt.mp hone
    have hc := toNat_charOfNat hlt
    refine ⟨[], rest, rfl, rfl, ?_⟩
    rw [utf8EncodeChar_one (by omega), hc, UInt8.ofNat_toNat]
  split at h
  next htwo =>
    obtain ⟨ha, hlow, hhigh⟩ :=
      exists_eq_ofNat_of_within 192 194 223 (by decide) (by decide)
        (by decide) htwo
    split at h
    next b later =>
      simp only [Option.bind_eq_bind, Option.bind_eq_some_iff, Option.pure_def,
        Option.some.injEq, Prod.mk.injEq] at h
      obtain ⟨y, hb, c', hc, rfl, rfl⟩ := h
      obtain ⟨hy, rfl⟩ := eq_ofNat_of_tail? hb
      obtain ⟨hvalue, -⟩ := toNat_of_scalar? hc
      refine ⟨[_], later, rfl, rfl, ?_⟩
      rw [utf8EncodeChar_two hy hvalue (by omega), ← ha]
    next => cases h
  split at h
  next hthree =>
    obtain ⟨ha, hlow, hhigh⟩ :=
      exists_eq_ofNat_of_within 224 224 239 (by decide) (by decide)
        (by decide) hthree
    split at h
    next b d later =>
      simp only [Option.bind_eq_bind, Option.bind_eq_some_iff, Option.pure_def,
        Option.some.injEq, Prod.mk.injEq] at h
      obtain ⟨y, hb, z, hd, c', hc, rfl, rfl⟩ := h
      obtain ⟨hy, rfl⟩ := eq_ofNat_of_tail? hb
      obtain ⟨hz, rfl⟩ := eq_ofNat_of_tail? hd
      obtain ⟨hvalue, hleast⟩ := toNat_of_scalar? hc
      refine ⟨[_, _], later, rfl, rfl, ?_⟩
      rw [utf8EncodeChar_three hy hz hvalue (by omega) (by omega), ← ha]
    next => cases h
  split at h
  next hfour =>
    obtain ⟨ha, hlow, hhigh⟩ :=
      exists_eq_ofNat_of_within 240 240 244 (by decide) (by decide)
        (by decide) hfour
    split at h
    next b d e later =>
      simp only [Option.bind_eq_bind, Option.bind_eq_some_iff, Option.pure_def,
        Option.some.injEq, Prod.mk.injEq] at h
      obtain ⟨y, hb, z, hd, w, he, c', hc, rfl, rfl⟩ := h
      obtain ⟨hy, rfl⟩ := eq_ofNat_of_tail? hb
      obtain ⟨hz, rfl⟩ := eq_ofNat_of_tail? hd
      obtain ⟨hw, rfl⟩ := eq_ofNat_of_tail? he
      obtain ⟨hvalue, hleast⟩ := toNat_of_scalar? hc
      refine ⟨[_, _, _], later, rfl, rfl, ?_⟩
      rw [utf8EncodeChar_four hy hz hw hvalue (by omega) (by omega), ← ha]
    next => cases h
  next => cases h

theorem encode_of_symbols {bytes : List UInt8} {cs : List Char}
    (h : symbols bytes = cs.map some) : encode cs = bytes := by
  rw [symbols] at h
  induction cs generalizing bytes with
  | nil =>
    cases bytes with
    | nil => rfl
    | cons a rest =>
      rw [symbolsAfter] at h
      split at h
      next => cases h
      next => cases h
  | cons c cs ih =>
    cases bytes with
    | nil => simp [symbolsAfter] at h
    | cons a rest =>
      rw [symbolsAfter] at h
      split at h
      next c' skip hread =>
        obtain ⟨more, later, rfl, rfl, hbytes⟩ := encode_of_charAt? hread
        rw [symbolsAfter_append, List.map_cons, List.cons.injEq,
          Option.some.injEq] at h
        obtain ⟨rfl, hlater⟩ := h
        rw [encode, List.flatMap_cons, hbytes, List.cons_append]
        exact congrArg (a :: more ++ ·) (ih hlater)
      next => simp at h

theorem decode?_eq_some_iff {bytes : List UInt8} {cs : List Char} :
    decode? bytes = some cs ↔ encode cs = bytes := by
  constructor
  · intro h
    exact encode_of_symbols (mapM_id_eq_some_iff.mp h)
  · rintro rfl
    exact decode?_encode cs

/-! ## Bytes of one character among others -/

theorem tail?_of_lt {b : UInt8} (h : b < 0x80) : tail? b = none := by
  have hlow : ¬(0x80 ≤ b ∧ b ≤ 0xBF) := fun hrange => by
    have hlt := UInt8.lt_iff_toNat_lt.mp h
    have hle := UInt8.le_iff_toNat_le.mp hrange.1
    exact absurd hlt (Nat.not_lt.mpr hle)
  rw [tail?, if_neg hlow]

/-- No longer form goes on over a byte that is a character by itself. -/
theorem charAt?_append {b : UInt8}
    (h : b < 0x80) (a : UInt8) (bytes rest : List UInt8) :
    charAt? a (bytes ++ b :: rest) = charAt? a bytes := by
  have hb := tail?_of_lt h
  unfold charAt?
  split
  · rfl
  split
  · cases bytes with
    | nil => simp [hb]
    | cons c bytes => rfl
  split
  · match bytes with
    | [] => cases rest <;> simp [hb]
    | [c] => simp [hb]
    | c :: d :: bytes => rfl
  split
  · match bytes with
    | [] => rcases rest with _ | ⟨_, _ | _⟩ <;> simp [hb]
    | [c] => cases rest <;> simp [hb]
    | [c, d] => simp [hb]
    | c :: d :: e :: bytes => rfl
  · rfl

theorem symbolsAfter_append_cons {b : UInt8}
    (h : b < 0x80) (rest : List UInt8) (skip : Nat)
    (bytes : List UInt8) (hskip : skip ≤ bytes.length) :
    symbolsAfter skip (bytes ++ b :: rest) =
      symbolsAfter skip bytes ++ symbolsAfter 0 (b :: rest) := by
  induction bytes generalizing skip with
  | nil =>
    obtain rfl : skip = 0 := Nat.le_zero.mp hskip
    rfl
  | cons a bytes ih =>
    cases skip with
    | succ skip => exact ih skip (Nat.le_of_succ_le_succ hskip)
    | zero =>
      rw [List.cons_append, symbolsAfter, charAt?_append h, symbolsAfter]
      cases hread : charAt? a bytes with
      | none => exact congrArg (none :: ·) (ih 0 (Nat.zero_le _))
      | some read =>
        obtain ⟨more, later, hbytes, hmore, -⟩ := encode_of_charAt? hread
        have hlength : read.2 ≤ bytes.length := by
          rw [hbytes, List.length_append, hmore]
          exact Nat.le_add_right _ _
        exact congrArg (some read.1 :: ·) (ih read.2 hlength)

/-- The symbols of bytes start anew at a byte that is a character by itself. -/
theorem symbols_append_cons {b : UInt8}
    (h : b < 0x80) (bytes rest : List UInt8) :
    symbols (bytes ++ b :: rest) =
      symbols bytes ++ some (Char.ofNat b.toNat) :: symbols rest := by
  have hread : charAt? b rest = some (Char.ofNat b.toNat, 0) := by
    unfold charAt?
    rw [if_pos h]
  rw [symbols, symbolsAfter_append_cons h rest 0 bytes (Nat.zero_le _),
    symbolsAfter, hread]
  rfl

/-- A character of one byte stands there as this byte. -/
theorem mem_of_mem_symbolsAfter {c : Char}
    (hc : c.toNat < 0x80) {skip : Nat} {bytes : List UInt8}
    (h : some c ∈ symbolsAfter skip bytes) : UInt8.ofNat c.toNat ∈ bytes := by
  induction bytes generalizing skip with
  | nil => simp [symbolsAfter] at h
  | cons a bytes ih =>
    cases skip with
    | succ skip => exact List.mem_cons_of_mem a (ih h)
    | zero =>
      rw [symbolsAfter] at h
      cases hread : charAt? a bytes with
      | none =>
        simp only [hread, List.mem_cons, reduceCtorEq, false_or] at h
        exact List.mem_cons_of_mem a (ih h)
      | some read =>
        simp only [hread, List.mem_cons, Option.some.injEq] at h
        rcases h with rfl | h
        · obtain ⟨more, later, -, -, hbytes⟩ := encode_of_charAt? hread
          rw [utf8EncodeChar_one hc] at hbytes
          rw [(List.cons.inj hbytes).1]
          exact List.mem_cons_self
        · exact List.mem_cons_of_mem a (ih h)

end QueryJournal.Text.Utf8

import Mathlib.Tactic.IntervalCases
import QueryJournal.Number.Reading
import QueryJournal.Proofs.Number.Decimals
import QueryJournal.Proofs.Number.Digits

/-!
# Reading numerals back

A number that is laid out with a point, or with one digit before the point and
an exponent, is read as the numeral with its digits in their places.  The text
of a number holds no character that reading drops or replaces, and it is no
name.
-/

namespace QueryJournal

/-! ## The parts of a numeral -/

namespace Number

variable {c : Char} {ds : List Char}

/-- All characters are decimal digits. -/
def AreDigits (ds : List Char) : Prop :=
  ∀ c ∈ ds, c.isDigit = true

theorem AreDigits.append {es : List Char}
    (hds : AreDigits ds) (hes : AreDigits es) :
    AreDigits (ds ++ es) := by
  intro c hc
  rcases List.mem_append.mp hc with h | h
  · exact hds c h
  · exact hes c h

theorem AreDigits.take (hds : AreDigits ds) (n : ℕ) : AreDigits (ds.take n) :=
  fun c hc => hds c (List.mem_of_mem_take hc)

theorem AreDigits.drop (hds : AreDigits ds) (n : ℕ) : AreDigits (ds.drop n) :=
  fun c hc => hds c (List.mem_of_mem_drop hc)

theorem areDigits_replicate (n : ℕ) : AreDigits (List.replicate n '0') := by
  intro c hc
  rw [List.eq_of_mem_replicate hc]
  rfl

theorem areDigits_digits (n : ℕ) : AreDigits (digits n) :=
  isDigit_of_mem_digits

theorem digits_ne_nil (n : ℕ) : digits n ≠ [] :=
  Nat.toDigits_ne_nil

theorem takeDigits_append
    (hds : AreDigits ds) (rest : List Char)
    (hrest : ∀ c ∈ rest.head?, c.isDigit = false) :
    takeDigits (ds ++ rest) = (ds, rest) := by
  have htake : rest.takeWhile Char.isDigit = [] := by
    cases rest with
    | nil => rfl
    | cons c rest =>
      rw [List.takeWhile_cons, hrest c rfl, if_neg Bool.false_ne_true]
  have hdrop : rest.dropWhile Char.isDigit = rest := by
    cases rest with
    | nil => rfl
    | cons c rest =>
      rw [List.dropWhile_cons, hrest c rfl, if_neg Bool.false_ne_true]
  rw [takeDigits, List.takeWhile_append_of_pos hds,
    List.dropWhile_append_of_pos hds, htake, hdrop, List.append_nil]

theorem takeSign_of_areDigits (hne : ds ≠ []) (hds : AreDigits ds)
    (rest : List Char) :
    takeSign (ds ++ rest) = (false, ds ++ rest) := by
  obtain ⟨c, ds, rfl⟩ := List.exists_cons_of_ne_nil hne
  have hc := hds c List.mem_cons_self
  rw [List.cons_append, takeSign]
  · rintro more hmore
    cases hmore
    exact absurd hc (by decide)
  · rintro more hmore
    cases hmore
    exact absurd hc (by decide)

/-- A minus sign, or nothing. -/
def minus (negative : Bool) : List Char :=
  if negative then ['-'] else []

theorem takeSign_minus (negative : Bool) (hne : ds ≠ []) (hds : AreDigits ds)
    (rest : List Char) :
    takeSign (minus negative ++ (ds ++ rest)) = (negative, ds ++ rest) := by
  cases negative with
  | true => rfl
  | false => exact takeSign_of_areDigits hne hds rest

theorem ofDigitChars_zeros (n : ℕ) (ds : List Char) :
    Nat.ofDigitChars 10 (List.replicate n '0' ++ ds) 0 =
      Nat.ofDigitChars 10 ds 0 := by
  rw [Nat.ofDigitChars_append, Nat.ofDigitChars_replicate_zero, mul_zero]

theorem ofDigitChars_append_zeros (ds : List Char) (n : ℕ) :
    Nat.ofDigitChars 10 (ds ++ List.replicate n '0') 0 =
      Nat.ofDigitChars 10 ds 0 * 10 ^ n := by
  rw [Nat.ofDigitChars_append, Nat.ofDigitChars_replicate_zero, mul_comm]

theorem ofDigitChars_digits (n : ℕ) : Nat.ofDigitChars 10 (digits n) 0 = n :=
  Nat.ofDigitChars_toDigits (by decide) (by decide)

/-- The exponent is a letter, a sign and digits. -/
theorem exists_toList_exponentText (l : Binary.Layout) (e : ℤ) :
    ∃ ds, AreDigits ds ∧ ds ≠ [] ∧ Nat.ofDigitChars 10 ds 0 = e.natAbs ∧
      (l.exponentText e).toList =
        'e' ::
          ((if e < 0 then ['-'] else if l.plusSign then ['+'] else []) ++
            ds) := by
  refine ⟨List.replicate (l.exponentDigits - (digits e.natAbs).length) '0' ++
    digits e.natAbs, (areDigits_replicate _).append (areDigits_digits _),
    List.append_ne_nil_of_right_ne_nil _ (digits_ne_nil _), ?_, ?_⟩
  · rw [ofDigitChars_zeros, ofDigitChars_digits]
  · rw [Binary.Layout.exponentText, String.append_assoc, String.toList_append,
      String.toList_append, toList_padded]
    split
    · rfl
    split
    · rfl
    · rfl

/-- An exponent is read back. -/
theorem exponent?_exponentText (l : Binary.Layout) (e : ℤ) :
    exponent? (l.exponentText e).toList = some e := by
  obtain ⟨ds, hdigits, hne, hvalue, htext⟩ := exists_toList_exponentText l e
  rw [htext]
  have hsign : takeSign
      ((if e < 0 then ['-'] else if l.plusSign = true then ['+'] else []) ++
        ds) =
      (decide (e < 0), ds) := by
    by_cases he : e < 0
    · rw [if_pos he, decide_eq_true he]
      rfl
    · rw [if_neg he, decide_eq_false he]
      split
      · rfl
      · have hplain := takeSign_of_areDigits hne hdigits []
        rw [List.append_nil] at hplain
        exact hplain
  have htake := takeDigits_append hdigits [] (by simp)
  rw [List.append_nil] at htake
  rw [exponent?, if_pos (Or.inl rfl)]
  dsimp only
  rw [hsign]
  dsimp only
  rw [htake]
  dsimp only
  rw [if_neg (by simp [hne]), hvalue]
  congr 1
  split
  next he =>
    have he' := of_decide_eq_true he
    omega
  next he =>
    have he' := mt decide_eq_true he
    omega

/-- A numeral is read by its parts. -/
theorem read?_parts
    {whole fraction tail : List Char} {e : ℤ}
    (negative : Bool) (hne : whole ≠ [])
    (hwhole : AreDigits whole) (hfraction : AreDigits fraction)
    (htail : exponent? tail = some e)
    (hend : ∀ c ∈ tail.head?, c.isDigit = false) :
    Numeral.read? (minus negative ++ (whole ++ '.' :: (fraction ++ tail))) =
      some ⟨negative, Nat.ofDigitChars 10 (whole ++ fraction) 0,
        e - fraction.length⟩ := by
  have hdigits : takeDigits (whole ++ '.' :: (fraction ++ tail)) =
      (whole, '.' :: (fraction ++ tail)) := by
    apply takeDigits_append hwhole ('.' :: (fraction ++ tail))
    rintro c ⟨⟩
    rfl
  rw [Numeral.read?]
  dsimp only
  rw [takeSign_minus negative hne hwhole]
  dsimp only
  rw [hdigits]
  dsimp only
  rw [takeFraction, takeDigits_append hfraction tail hend]
  dsimp only
  rw [if_neg (by simp [hne]), htail]
  rfl

/-- So is one without a point. -/
theorem read?_whole
    {whole tail : List Char} {e : ℤ} (negative : Bool) (hne : whole ≠ [])
    (hwhole : AreDigits whole) (htail : exponent? tail = some e)
    (hend : ∀ c ∈ tail.head?, c.isDigit = false ∧ c ≠ '.') :
    Numeral.read? (minus negative ++ (whole ++ tail)) =
      some ⟨negative, Nat.ofDigitChars 10 whole 0, e⟩ := by
  have hfraction : takeFraction tail = ([], tail) := by
    rw [takeFraction]
    rintro more rfl
    exact (hend '.' rfl).2 rfl
  rw [Numeral.read?]
  dsimp only
  rw [takeSign_minus negative hne hwhole]
  dsimp only
  rw [takeDigits_append hwhole tail fun c hc => (hend c hc).1]
  dsimp only
  rw [hfraction]
  dsimp only
  rw [if_neg (by simp [hne]), htail, List.append_nil]
  simp

end Number

namespace Binary

open Number

variable {ds : List Char} {c : Char}

/-! ## Layouts -/

/-- What a text is read as: the digits in their places, perhaps with zeros after
them. -/
def ReadsDigits (negative : Bool) (ds : List Char) (point : ℤ)
    (cs : List Char) : Prop :=
  ∃ k : ℕ, Numeral.read? (minus negative ++ cs) =
    some ⟨negative, Nat.ofDigitChars 10 ds 0 * 10 ^ k, point - ds.length - k⟩

theorem readsDigits_withPoint
    (negative : Bool) (hne : ds ≠ []) (hds : AreDigits ds) (point : ℤ) :
    ReadsDigits negative ds point (withPoint ds point) := by
  rw [ReadsDigits, withPoint]
  split
  next hpoint =>
    have hread := read?_parts negative (List.cons_ne_nil '0' [])
      (areDigits_replicate 1)
      ((areDigits_replicate (-point).toNat).append hds)
        (rfl : exponent? [] = some 0) (by simp)
    have hzeros : ['0'] ++ (List.replicate (-point).toNat '0' ++ ds) =
        List.replicate ((-point).toNat + 1) '0' ++ ds := rfl
    rw [hzeros, ofDigitChars_zeros, List.append_nil, List.length_append,
      List.length_replicate]
      at hread
    refine ⟨0, hread.trans ?_⟩
    rw [pow_zero, mul_one]
    congr 2
    omega
  next hpoint =>
    dsimp only
    rw [List.length_take]
    rcases le_or_gt ds.length point.toNat with hshort | hlong
    · have hread := read?_parts negative
        (List.append_ne_nil_of_left_ne_nil hne
          (List.replicate (point.toNat - ds.length) '0'))
        (hds.append (areDigits_replicate _)) (areDigits_replicate 1)
        (rfl : exponent? [] = some 0) (by simp)
      have hzeros : ds ++ List.replicate (point.toNat - ds.length) '0' ++
          List.replicate 1 '0' =
          ds ++ List.replicate (point.toNat - ds.length + 1) '0' := by
        rw [List.append_assoc, List.replicate_append_replicate]
      rw [hzeros, ofDigitChars_append_zeros, List.append_nil] at hread
      rw [List.drop_eq_nil_of_le hshort, List.take_of_length_le hshort,
        Nat.min_eq_right hshort]
      refine ⟨point.toNat - ds.length + 1, hread.trans ?_⟩
      congr 2
      rw [List.length_replicate]
      omega
    · have hdrop : (ds.drop point.toNat).isEmpty = false := by
        rw [List.isEmpty_eq_false_iff, ← List.length_pos_iff, List.length_drop]
        omega
      have htake : ds.take point.toNat ≠ [] := by
        rw [← List.length_pos_iff, List.length_take]
        omega
      have hread := read?_parts negative htake (hds.take _)
        (hds.drop point.toNat)
        (rfl : exponent? [] = some 0) (by simp)
      rw [List.take_append_drop, List.append_nil, List.length_drop] at hread
      rw [hdrop, if_neg Bool.false_ne_true, Nat.min_eq_left hlong.le,
        Nat.sub_self, List.replicate_zero, List.append_nil]
      refine ⟨0, hread.trans ?_⟩
      rw [pow_zero, mul_one]
      congr 2
      omega

theorem readsDigits_exponent
    (negative : Bool) (l : Layout) (hds : AreDigits (c :: ds)) (point : ℤ) :
    ReadsDigits negative (c :: ds) point
      ([c] ++ ((if ds = [] then [] else '.' :: ds) ++
          (l.exponentText (point - 1)).toList)) := by
  have hexponent := exponent?_exponentText l (point - 1)
  obtain ⟨es, -, -, -, htext⟩ := exists_toList_exponentText l (point - 1)
  have hend : ∀ d ∈ (l.exponentText (point - 1)).toList.head?,
      d.isDigit = false ∧ d ≠ '.' := by
    rw [htext]
    rintro d ⟨⟩
    exact ⟨rfl, by decide⟩
  have hfirst : AreDigits [c] := hds.take 1
  have hrest : AreDigits ds := hds.drop 1
  rw [ReadsDigits]
  split
  next hnil =>
    subst hnil
    refine ⟨0, (read?_whole negative
        (List.cons_ne_nil c []) hfirst hexponent hend).trans ?_⟩
    rw [pow_zero, mul_one]
    congr 2
    simp
  next hmore =>
    refine ⟨0,
      (read?_parts negative (List.cons_ne_nil c []) hfirst hrest hexponent
      fun d hd => (hend d hd).1).trans ?_⟩
    rw [pow_zero, mul_one, List.singleton_append]
    congr 2
    rw [List.length_cons]
    push_cast
    ring

/-- Whatever the layout, the digits are read in their places. -/
theorem readsDigits_write
    (negative : Bool) (l : Layout) (hne : ds ≠ [])
    (hds : AreDigits ds) (point : ℤ) :
    ReadsDigits negative ds point (l.write ds point).toList := by
  rw [Layout.write]
  split
  · rw [String.toList_ofList]
    exact readsDigits_withPoint negative hne hds point
  · obtain ⟨c, rest, rfl⟩ := List.exists_cons_of_ne_nil hne
    have hlength : (c :: rest).length ≤ 1 ↔ rest = [] := by simp
    dsimp only
    simp only [hlength, List.take_one, List.drop_one, List.tail_cons,
      String.toList_append, String.toList_ofList, List.append_assoc]
    exact readsDigits_exponent negative l hds point

/-! ## Characters -/

/-- The characters of numerals. -/
def numeralCharacters : List Char :=
  "0123456789.e+-".toList

theorem mem_numeralCharacters_of_isDigit (h : c.isDigit = true) :
    c ∈ numeralCharacters := by
  have hbounds : 48 ≤ c.toNat ∧ c.toNat ≤ 57 := by
    rw [Char.isDigit, Bool.and_eq_true, decide_eq_true_eq,
      decide_eq_true_eq] at h
    exact h
  obtain ⟨hlow, hhigh⟩ := hbounds
  rw [← Char.ofNat_toNat c]
  generalize c.toNat = n at hlow hhigh
  interval_cases n
  all_goals decide

theorem areNumeral_of_areDigits (hds : AreDigits ds) :
    ∀ c ∈ ds, c ∈ numeralCharacters :=
  fun c hc => mem_numeralCharacters_of_isDigit (hds c hc)

theorem plainDigit_of_mem (h : c ∈ numeralCharacters) :
    Text.plainDigit c = c := by
  have hall : numeralCharacters.all
      (fun c => Text.plainDigit c == c) = true := by decide
  exact eq_of_beq (List.all_eq_true.mp hall c h)

theorem isNumberBlank_of_mem (h : c ∈ numeralCharacters) :
    Text.isNumberBlank c = false := by
  have hall : numeralCharacters.all
      (fun c => !Text.isNumberBlank c) = true := by decide
  exact (Bool.not_eq_true' _).mp (List.all_eq_true.mp hall c h)

theorem ne_underscore_of_mem (h : c ∈ numeralCharacters) : c ≠ '_' := by
  rintro rfl
  exact absurd h (by decide)

/-- The letter that all names of numbers have is none of a numeral. -/
theorem toLower_ne_of_mem (h : c ∈ numeralCharacters) : c.toLower ≠ 'n' := by
  have hall : numeralCharacters.all (fun c => c.toLower != 'n') = true := by
    decide
  exact bne_iff_ne.mp (List.all_eq_true.mp hall c h)

theorem mem_of_mem_minus {negative : Bool} (h : c ∈ minus negative) :
    c ∈ numeralCharacters := by
  cases negative with
  | true =>
    rw [List.mem_singleton.mp h]
    decide
  | false => exact absurd h List.not_mem_nil

theorem joinDigits_of_forall {cs : List Char}
    (h : ∀ c ∈ cs, c ≠ '_') (afterDigit : Bool) :
    joinDigits afterDigit cs = cs := by
  induction cs generalizing afterDigit with
  | nil => rfl
  | cons c cs ih =>
    have hrest := ih fun d hd => h d (List.mem_cons_of_mem c hd)
    rw [joinDigits, hrest]
    rintro d rest rfl
    exact absurd rfl (h '_' List.mem_cons_self)

theorem named?_of_forall {cs : List Char}
    (h : ∀ c ∈ cs, c ≠ 'n') (negative : Bool) :
    named? negative cs = none := by
  rw [named?, if_neg, if_neg]
  · rintro (rfl | rfl)
    · exact h 'n' (by decide) rfl
    · exact h 'n' (by decide) rfl
  · rintro rfl
    exact h 'n' (by decide) rfl

theorem mem_of_mem_takeSign {cs : List Char}
    (h : c ∈ (takeSign cs).2) : c ∈ cs := by
  unfold takeSign at h
  split at h
  · exact List.mem_cons_of_mem _ h
  · exact List.mem_cons_of_mem _ h
  · exact h

/-- A text of such characters is read as the numeral that it is. -/
theorem ofText?_eq
    (f : Format) {s : String} {n : Numeral}
    (hs : ∀ c ∈ s.toList, c ∈ numeralCharacters)
    (h : Numeral.read? s.toList = some n) :
    ofText? f s = some (ofDecimal f n.negative n.coefficient n.exponent) := by
  have htrim : Text.trimWhere Text.isNumberBlank s.toList = s.toList :=
    Text.trimWhere_of_forall fun c hc => isNumberBlank_of_mem (hs c hc)
  have hplain : s.toList.map Text.plainDigit = s.toList :=
    (List.map_congr_left fun c hc =>
      plainDigit_of_mem (hs c hc)).trans s.toList.map_id
  have hjoin : joinDigits false s.toList = s.toList :=
    joinDigits_of_forall (fun c hc => ne_underscore_of_mem (hs c hc)) false
  have hname : named? (takeSign s.toList).1
      ((takeSign s.toList).2.map Char.toLower) = none := by
    apply named?_of_forall
    intro c hc
    obtain ⟨d, hd, rfl⟩ := List.mem_map.mp hc
    exact toLower_ne_of_mem (hs d (mem_of_mem_takeSign hd))
  rw [ofText?]
  dsimp only
  rw [htrim, hplain, hjoin, hname, h]
  rfl

theorem mem_withPoint
    (hds : AreDigits ds) (point : ℤ) :
    ∀ c ∈ withPoint ds point, c ∈ numeralCharacters := by
  have hzero : '0' ∈ numeralCharacters := by decide
  have hdot : '.' ∈ numeralCharacters := by decide
  have hzeros := fun n => areNumeral_of_areDigits (areDigits_replicate n)
  have hall := areNumeral_of_areDigits hds
  have htake := areNumeral_of_areDigits (hds.take point.toNat)
  have hdrop := areNumeral_of_areDigits (hds.drop point.toNat)
  rw [withPoint]
  split
  · simp only [List.cons_append, List.forall_mem_cons, List.forall_mem_append]
    exact ⟨hzero, hdot, hzeros _, hall⟩
  · simp only [List.forall_mem_cons, List.forall_mem_append]
    refine ⟨⟨htake, hzeros _⟩, hdot, ?_⟩
    split
    · exact List.forall_mem_singleton.mpr hzero
    · exact hdrop

theorem mem_write (l : Layout) (hds : AreDigits ds) (point : ℤ) :
    ∀ c ∈ (l.write ds point).toList, c ∈ numeralCharacters := by
  rw [Layout.write]
  split
  · rw [String.toList_ofList]
    exact mem_withPoint hds point
  · obtain ⟨es, hes, -, -, htext⟩ := exists_toList_exponentText l (point - 1)
    dsimp only
    rw [String.toList_append, String.toList_ofList, htext]
    simp only [List.forall_mem_cons, List.forall_mem_append]
    refine ⟨⟨areNumeral_of_areDigits (hds.take 1), ?_⟩, by decide, ?_,
      areNumeral_of_areDigits hes⟩
    · split
      · exact fun c hc => absurd hc List.not_mem_nil
      · exact List.forall_mem_cons.mpr
          ⟨by decide, areNumeral_of_areDigits (hds.drop 1)⟩
    · split
      · exact List.forall_mem_singleton.mpr (by decide)
      split
      · exact List.forall_mem_singleton.mpr (by decide)
      · exact fun c hc => absurd hc List.not_mem_nil

/-- A text that is laid out from digits is read as a decimal with these
digits. -/
theorem exists_ofText?_write
    (f : Format) (negative : Bool) (l : Layout) (hne : ds ≠ [])
    (hds : AreDigits ds) (point : ℤ) :
    ∃ d : Scientific, d.value = Nat.ofDigitChars 10 ds 0 * 10 ^
      (point - ds.length) ∧
      ofText? f ((if negative then "-" else "") ++ l.write ds point) =
        some (ofDecimal f negative d.coefficient d.exponent) := by
  obtain ⟨k, hread⟩ := readsDigits_write negative l hne hds point
  have htext : ((if negative then "-" else "") ++ l.write ds point).toList =
      minus negative ++ (l.write ds point).toList := by
    rw [String.toList_append]
    cases negative with
    | true => rfl
    | false => rfl
  have hcharacters :
      ∀ c ∈ ((if negative then "-" else "") ++ l.write ds point).toList,
      c ∈ numeralCharacters := by
    rw [htext, List.forall_mem_append]
    exact ⟨fun c hc => mem_of_mem_minus hc, mem_write l hds point⟩
  rw [← htext] at hread
  refine ⟨⟨Nat.ofDigitChars 10 ds 0 * 10 ^ k, point - ds.length - k⟩, ?_,
    ofText?_eq f hcharacters hread⟩
  rw [Scientific.value, Nat.cast_mul, Nat.cast_pow, Nat.cast_ofNat, mul_assoc,
    ← zpow_natCast, ← zpow_add₀ (by norm_num), add_sub_cancel]

/-! ## Significant digits -/

theorem exists_digits_eq (n : ℕ) :
    ∃ k, digits n = significantDigits n ++ List.replicate k '0' := by
  refine ⟨((digits n).reverse.takeWhile (· == '0')).length, ?_⟩
  have hzeros : (digits n).reverse.takeWhile (· == '0') =
      List.replicate ((digits n).reverse.takeWhile (· == '0')).length '0' := by
    rw [List.eq_replicate_iff]
    refine ⟨rfl, fun c hc => ?_⟩
    exact eq_of_beq (List.all_eq_true.mp List.all_takeWhile c hc)
  have hsplit := congrArg List.reverse
    (List.takeWhile_append_dropWhile (p := (· == '0'))
      (l := (digits n).reverse))
  rw [List.reverse_append, List.reverse_reverse, hzeros,
    List.reverse_replicate] at hsplit
  exact hsplit.symm

theorem areDigits_significantDigits (n : ℕ) :
    AreDigits (significantDigits n) := by
  obtain ⟨k, hdigits⟩ := exists_digits_eq n
  intro c hc
  apply areDigits_digits n
  rw [hdigits]
  exact List.mem_append_left _ hc

/-- A text that is laid out from the digits of a decimal is read as a number
that is rounded like the decimal. -/
theorem ofText?_write_significantDigits
    (f : Format) (negative : Bool) (l : Layout) {d : Scientific}
    (hd : 0 < d.coefficient) :
    ofText? f ((if negative then "-" else "") ++
        l.write (significantDigits d.coefficient) d.point) =
      some (ofDecimal f negative d.coefficient d.exponent) := by
  obtain ⟨k, hdigits⟩ := exists_digits_eq d.coefficient
  have hvalue : d.coefficient =
      Nat.ofDigitChars 10 (significantDigits d.coefficient) 0 * 10 ^ k := by
    rw [← ofDigitChars_append_zeros, ← hdigits, ofDigitChars_digits]
  have hne : significantDigits d.coefficient ≠ [] := by
    intro hnil
    rw [hnil, Nat.ofDigitChars_nil, zero_mul] at hvalue
    omega
  have hds := areDigits_significantDigits d.coefficient
  have hpoint : d.point - (significantDigits d.coefficient).length =
      k + d.exponent := by
    have hlength := congrArg List.length hdigits
    rw [List.length_append, List.length_replicate] at hlength
    rw [Scientific.point, digitCount, hlength]
    push_cast
    ring
  obtain ⟨e, he, hread⟩ := exists_ofText?_write f negative l hne hds d.point
  rw [hread]
  congr 1
  apply ofDecimal_congr
  have hcast : (d.coefficient : ℚ) =
      Nat.ofDigitChars 10 (significantDigits d.coefficient) 0 * 10 ^ k := by
    exact_mod_cast hvalue
  rw [he, hpoint, Scientific.value, zpow_add₀ (by norm_num), zpow_natCast,
    ← mul_assoc, ← hcast]

end Binary

end QueryJournal

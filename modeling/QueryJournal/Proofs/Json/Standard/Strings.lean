import Mathlib.Algebra.Group.Nat.Defs
import QueryJournal.Proofs.Json.Document
import QueryJournal.Proofs.Text.Utf8

/-!
# Strings and integers in JSON

The standard engine reads strings and integers from their texts.  Each character
is read from its own spelling, whatever stands around it.  An integer ends where
something stands that cannot continue a number, and it is read unless its text
is too long, where its sign counts as a part of the text.
-/

namespace QueryJournal.Json

/-! ## Strings -/

/-- The letters of short escapes stand for their characters. -/
theorem shortEscape?_of_mem {letter c : Char} (h : (letter, c) ∈ shortEscapes) :
    letter ≠ 'u' ∧ shortEscape? letter = some c := by
  have hall : ∀ escape ∈ shortEscapes,
      escape.1 ≠ 'u' ∧ shortEscape? escape.1 = some escape.2 := by decide
  exact hall _ h

/-- A part that is read from the spelling of a character, and that stands for it
in every string. -/
structure IsPartOf (p : Piece) (part : Part) : Prop where
  taken : ∀ s, takeParts? (p.spelled.map some ++ s) =
    (takeParts? s).map fun (parts, rest) => (part :: parts, rest)
  joined : ∀ parts, joinParts? (part :: parts) =
    (joinParts? parts).map (some p.char :: ·)

theorem takeParts?_letter
    {letter c : Char} (hu : letter ≠ 'u') (h : shortEscape? letter = some c)
    (s : Symbols) :
    takeParts? (some '\\' :: some letter :: s) =
      (takeParts? s).map fun (parts, rest) =>
        (.symbol (some c) :: parts, rest) := by
  rw [takeParts?, h]
  · cases takeParts? s with
    | none => rfl
    | some read => rfl
  · simp [hu]

theorem takeParts?_number
    {n : ℕ} (h : n < 16 ^ 4) (s : Symbols) :
    takeParts? (('\\' :: 'u' :: Text.Hex.digits 4 n).map some ++ s) =
      (takeParts? s).map fun (parts, rest) => (.code n :: parts, rest) := by
  have hread : Text.Hex.read? 0 (Text.Hex.digits 4 n) = some n := by
    rw [Text.Hex.read?_digits, Nat.zero_mul, Nat.zero_add, Nat.mod_eq_of_lt h]
  simp only [Text.Hex.digits, List.nil_append, List.cons_append] at hread ⊢
  simp only [List.map_cons, List.map_nil, List.cons_append, List.nil_append]
  rw [takeParts?, hread]
  cases takeParts? s with
  | none => rfl
  | some read => rfl

theorem takeParts?_self
    {c : Char} (h : c ≠ '"' ∧ c ≠ '\\' ∧ 0x20 ≤ c.toNat) (s : Symbols) :
    takeParts? (some c :: s) =
      (takeParts? s).map fun (parts, rest) =>
        (.symbol (some c) :: parts, rest) := by
  obtain ⟨hquote, hslash, hprinted⟩ := h
  rw [takeParts?, if_neg (Nat.not_lt.mpr hprinted)]
  · cases takeParts? s with
    | none => rfl
    | some read => rfl
  all_goals simp [hquote, hslash]

/-- The number of a character is no half of a pair. -/
theorem joinParts?_code (c : Char) (parts : List Part) :
    joinParts? (.code c.toNat :: parts) =
      (joinParts? parts).map (some c :: ·) := by
  have hvalid : c.toNat < 0xD800 ∨ 0xDFFF < c.toNat ∧ c.toNat < 0x110000 :=
    c.valid
  have hhigh : isHigh c.toNat = false := by
    simp only [isHigh, Bool.and_eq_false_iff, decide_eq_false_iff_not]
    omega
  have hlow : isLow c.toNat = false := by
    simp only [isLow, Bool.and_eq_false_iff, decide_eq_false_iff_not]
    omega
  cases parts with
  | nil => simp [joinParts?, hhigh, hlow, Char.ofNat_toNat]
  | cons part parts =>
    cases part with
    | symbol s => simp [joinParts?, hhigh, hlow, Char.ofNat_toNat]
    | code m => simp [joinParts?, hhigh, hlow, Char.ofNat_toNat]

theorem exists_isPartOf (p : Piece) : ∃ part, IsPartOf p part := by
  cases p with
  | self c h => exact ⟨.symbol (some c), takeParts?_self h, fun _ => rfl⟩
  | short letter c h =>
    obtain ⟨hu, hletter⟩ := shortEscape?_of_mem h
    exact ⟨.symbol (some c), takeParts?_letter hu hletter, fun _ => rfl⟩
  | code c h => exact ⟨.code c.toNat, takeParts?_number h, joinParts?_code c⟩

theorem exists_parts (ps : List Piece) (rest : Symbols) :
    ∃ parts,
      takeParts? ((ps.flatMap Piece.spelled).map some ++ some '"' :: rest) =
        some (parts, rest) ∧
      joinParts? parts = some ((ps.map Piece.char).map some) := by
  induction ps with
  | nil => exact ⟨[], rfl, rfl⟩
  | cons p ps ih =>
    obtain ⟨parts, htaken, hjoined⟩ := ih
    obtain ⟨part, hpart⟩ := exists_isPartOf p
    refine ⟨part :: parts, ?_, ?_⟩
    · rw [List.flatMap_cons, List.map_append, List.append_assoc,
        hpart.taken, htaken]
      rfl
    · rw [hpart.joined, hjoined]
      rfl

/-- The symbols of a text. -/
def symbols (s : String) : Symbols :=
  s.toList.map some

theorem symbols_append (s t : String) :
    symbols (s ++ t) = symbols s ++ symbols t := by
  rw [symbols, String.toList_append, List.map_append]
  rfl

theorem symbols_quoted (ps : List Piece) :
    symbols (Piece.quoted ps) =
      some '"' :: ((ps.flatMap Piece.spelled).map some ++ [some '"']) := by
  simp [symbols, Piece.quoted]

/-- A string is read back, whatever it holds and whatever follows it. -/
theorem readString_spelled (ps : List Piece) (rest : Symbols) :
    readString ((ps.flatMap Piece.spelled).map some ++ some '"' :: rest) =
      .ok (Piece.meaning ps, rest) := by
  obtain ⟨parts, htaken, hjoined⟩ := exists_parts ps rest
  rw [readString, htaken]
  dsimp only [expect, bind, Except.bind]
  rw [hjoined]
  dsimp only [expect]
  rw [Text.Utf8.mapM_id_eq_some_iff.mpr rfl]
  rfl

/-! ## Integers -/

/-- Nothing that a number could go on with. -/
def EndsNumber (rest : Symbols) : Prop :=
  ∀ c more, rest = some c :: more →
  c.isDigit = false ∧ c ≠ '.' ∧ c ≠ 'e' ∧ c ≠ 'E'

theorem endsNumber_cons
    {c : Char} (h : c ∈ [',', ']', '\x7d']) (more : Symbols) :
    EndsNumber (some c :: more) := by
  rintro d rest hrest
  cases hrest
  simp only [List.mem_cons, List.not_mem_nil, or_false] at h
  rcases h with rfl | rfl | rfl
  · decide
  · decide
  · decide

theorem endsNumber_nil : EndsNumber [] := by
  rintro c more h
  cases h

theorem takeDigits_append
    {ds : List Char} (hds : ∀ c ∈ ds, c.isDigit = true) {rest : Symbols}
    (h : EndsNumber rest) :
    takeDigits (ds.map some ++ rest) = (ds, rest) := by
  induction ds with
  | nil =>
    rw [List.map_nil, List.nil_append]
    unfold takeDigits
    split
    next c more =>
      rw [if_neg (by simp [(h c more rfl).1])]
    next => rfl
  | cons c ds ih =>
    have hrest := ih fun d hd => hds d (List.mem_cons_of_mem _ hd)
    rw [List.map_cons, List.cons_append, takeDigits,
      if_pos (hds c List.mem_cons_self), hrest]

theorem takeFraction?_of_endsNumber {rest : Symbols} (h : EndsNumber rest) :
    takeFraction? rest = some (none, rest) := by
  unfold takeFraction?
  split
  next more => exact absurd rfl (h '.' more rfl).2.1
  next => rfl

theorem takeExponent?_of_endsNumber {rest : Symbols} (h : EndsNumber rest) :
    takeExponent? rest = some (none, rest) := by
  unfold takeExponent?
  split
  next more => exact absurd rfl (h 'e' more rfl).2.2.1
  next more => exact absurd rfl (h 'E' more rfl).2.2.2
  next => rfl

theorem takeWhole?_digits (n : ℕ) {rest : Symbols} (h : EndsNumber rest) :
    takeWhole? ((Number.digits n).map some ++ rest) =
      some (Number.digits n, rest) := by
  rw [takeWhole?, takeDigits_append Number.isDigit_of_mem_digits h]
  by_cases hn : n = 0
  · subst hn
    rfl
  · obtain ⟨c, cs, hds, -⟩ := Number.exists_digits_eq_cons n
    have hhead := Number.head?_digits_ne_zero hn
    rw [hds] at hhead ⊢
    split
    next hzero =>
      cases hzero
      exact absurd rfl hhead
    next hnil => cases hnil
    next hother =>
      cases hother
      rfl

theorem readNumber_digits (negative : Bool) (n : ℕ) {rest : Symbols}
    (h : EndsNumber rest) :
    readNumber negative ((Number.digits n).map some ++ rest) =
      if Number.digitCount n + (if negative then 1 else 0) ≤
        Number.longestText then
        .ok (.int (if negative then -(n : ℤ) else n), rest)
      else .error .refused := by
  have hvalue : Nat.ofDigitChars 10 (Number.digits n) 0 = n :=
    Nat.ofDigitChars_ten_toDigits
  rw [readNumber, takeWhole?_digits n h]
  dsimp only [expect, bind, Except.bind]
  rw [takeFraction?_of_endsNumber h]
  dsimp only
  rw [takeExponent?_of_endsNumber h]
  dsimp only
  rw [hvalue, if_pos ⟨rfl, rfl⟩]
  simp only [← Nat.not_lt, ite_not]
  rfl

theorem readScalar_of_digit {c : Char} (h : c.isDigit = true) (s : Symbols) :
    readScalar (some c :: s) = readNumber false (some c :: s) := by
  unfold readScalar
  split
  next heq => cases heq; cases h
  next heq => cases heq; cases h
  next heq => cases heq; cases h
  next heq => cases heq; cases h
  next => rfl

theorem isShort_ofNat (n : ℕ) :
    isShort (.ofNat n) = decide (Number.digitCount n ≤ Number.longestText) := by
  rw [isShort, Number.text, String.length_ofList]
  rfl

theorem isShort_negSucc (n : ℕ) :
    isShort (.negSucc n) =
      decide (Number.digitCount (n + 1) + 1 ≤ Number.longestText) := by
  rw [isShort, Number.text, String.length_ofList]
  rfl

/-- An integer is read back if its text is short enough. -/
theorem readScalar_text (n : ℤ) {rest : Symbols} (h : EndsNumber rest) :
    readScalar (symbols (Number.text n) ++ rest) =
      if isShort n then .ok (.int n, rest) else .error .refused := by
  cases n with
  | ofNat n =>
    obtain ⟨c, cs, hds, hc⟩ := Number.exists_digits_eq_cons n
    have hstart : readScalar ((Number.digits n).map some ++ rest) =
        readNumber false ((Number.digits n).map some ++ rest) := by
      rw [hds]
      exact readScalar_of_digit hc _
    rw [symbols, Number.text, String.toList_ofList, hstart,
      readNumber_digits false n h, isShort_ofNat]
    simp only [decide_eq_true_eq]
    rfl
  | negSucc n =>
    rw [symbols, Number.text, String.toList_ofList, List.map_cons,
      List.cons_append, readScalar, readNumber_digits true (n + 1) h,
      isShort_negSucc]
    simp only [decide_eq_true_eq]
    rfl

/-! ## Integers that are written, but not read -/

theorem digitCount_pow (k : ℕ) : Number.digitCount (10 ^ k) = k + 1 := by
  have hle : ∀ m, 0 < m → (Number.digitCount (10 ^ k) ≤ m ↔ k < m) := by
    intro m hm
    rw [Number.digitCount, Number.digits,
      Nat.length_toDigits_le_iff (by decide) hm]
    exact Nat.pow_lt_pow_iff_right (by decide)
  have hupper := (hle (k + 1) (Nat.succ_pos k)).mpr (Nat.lt_succ_self k)
  have hlower : k < Number.digitCount (10 ^ k) := by
    have hpos : 0 < Number.digitCount (10 ^ k) := Nat.length_toDigits_pos
    exact (hle _ hpos).mp (Nat.le_refl _)
  omega

/-- A negative power of ten is too long as soon as it has one digit less than
may be written. -/
theorem isShort_neg_pow (k : ℕ) :
    isShort (-(10 ^ k : ℕ)) = decide (k + 2 ≤ Number.longestText) := by
  have hpos : 0 < 10 ^ k := Nat.pow_pos (by decide)
  have hsucc : 10 ^ k - 1 + 1 = 10 ^ k := Nat.sub_add_cancel hpos
  have hneg : (-(10 ^ k : ℕ) : ℤ) = .negSucc (10 ^ k - 1) := by
    rw [← hsucc]
    rfl
  rw [hneg, isShort_negSucc, hsucc, digitCount_pow]

end QueryJournal.Json

import Mathlib.Data.List.TakeWhile
import QueryJournal.Proofs.Number.Numerals
import QueryJournal.Proofs.Text.Hex
import QueryJournal.Proofs.Wire.BigEndian
import QueryJournal.Wire.Address

/-!
# Addresses that are written and read

An address is read back from its bytes and from its text.  The text of version 4
has four parts between points, which no text of version 6 has.  In version 6 the
empty part between two colons in a row stands for as many zeros as are missing,
wherever the run of zeros is.
-/

namespace QueryJournal.Address

open Text.Hex (lowerDigits)

/-! ## Splitting -/

section Splitting

variable {separator c : Char} {parts : List (List Char)}

theorem splitAt_ne_nil (separator : Char) (cs : List Char) :
    splitAt separator cs ≠ [] := by
  cases cs with
  | nil => exact List.cons_ne_nil _ _
  | cons c cs =>
    rw [splitAt]
    split
    · exact List.cons_ne_nil _ _
    · split
      · exact List.cons_ne_nil _ _
      · exact List.cons_ne_nil _ _

/-- The parts of two texts that the separator joins are the parts of both. -/
theorem splitAt_append (separator : Char) (xs ys : List Char) :
    splitAt separator (xs ++ separator :: ys) =
      splitAt separator xs ++ splitAt separator ys := by
  induction xs with
  | nil => exact if_pos rfl
  | cons c xs ih =>
    rw [List.cons_append, splitAt, splitAt, ih]
    by_cases hc : c = separator
    · rw [if_pos hc, if_pos hc, List.cons_append]
    · obtain ⟨part, more, hparts⟩ :=
        List.exists_cons_of_ne_nil (splitAt_ne_nil separator xs)
      rw [if_neg hc, if_neg hc, hparts]
      rfl

theorem splitAt_of_not_mem {cs : List Char} (h : separator ∉ cs) :
    splitAt separator cs = [cs] := by
  induction cs with
  | nil => rfl
  | cons c cs ih =>
    rw [List.mem_cons, not_or] at h
    rw [splitAt, if_neg (Ne.symm h.1), ih h.2]

/-- Splitting undoes joining. -/
theorem splitAt_intercalate (hne : parts ≠ [])
    (h : ∀ part ∈ parts, separator ∉ part) :
    splitAt separator ([separator].intercalate parts) = parts := by
  induction parts with
  | nil => exact absurd rfl hne
  | cons part parts ih =>
    have hpart := splitAt_of_not_mem (h part List.mem_cons_self)
    by_cases hlast : parts = []
    · rw [hlast, List.intercalate_singleton, hpart]
    · have hrest := ih hlast fun p hp => h p (List.mem_cons_of_mem part hp)
      rw [List.intercalate_cons_of_ne_nil hlast, List.append_assoc,
        List.singleton_append, splitAt_append, hpart, hrest,
        List.singleton_append]

theorem mem_of_mem_intercalate (h : c ∈ [separator].intercalate parts) :
    c = separator ∨ ∃ part ∈ parts, c ∈ part := by
  induction parts with
  | nil => exact absurd h List.not_mem_nil
  | cons part parts ih =>
    by_cases hlast : parts = []
    · rw [hlast, List.intercalate_singleton] at h
      exact .inr ⟨part, List.mem_cons_self, h⟩
    · rw [List.intercalate_cons_of_ne_nil hlast, List.mem_append,
        List.mem_append, List.mem_singleton] at h
      rcases h with (hpart | hseparator) | hrest
      · exact .inr ⟨part, List.mem_cons_self, hpart⟩
      · exact .inl hseparator
      · rcases ih hrest with hseparator | ⟨p, hp, hc⟩
        · exact .inl hseparator
        · exact .inr ⟨p, List.mem_cons_of_mem part hp, hc⟩

/-- Items are read back one by one. -/
theorem mapM_map_of_forall {α β : Type} {write : α → β}
    {read : β → Option α} {xs : List α}
    (h : ∀ x ∈ xs, read (write x) = some x) :
    (xs.map write).mapM read = some xs := by
  induction xs with
  | nil => rfl
  | cons x xs ih =>
    rw [List.map_cons, List.mapM_cons, h x List.mem_cons_self,
      ih fun y hy => h y (List.mem_cons_of_mem x hy)]
    rfl

end Splitting

/-! ## Four bytes -/

theorem octet?_digits {n : ℕ} (h : n < 256) :
    octet? (Number.digits n) = some (UInt8.ofNat n) := by
  have hlength : (Number.digits n).length ≤ 3 :=
    (Nat.length_toDigits_le_iff (by decide) (by decide)).mpr (by omega)
  have hdigits : (Number.digits n).all Char.isDigit = true :=
    List.all_eq_true.mpr Number.isDigit_of_mem_digits
  have hform : ¬((Number.digits n).isEmpty = true ∨
      3 < (Number.digits n).length ∨
      (!(Number.digits n).all Char.isDigit) = true) := by
    simp [hdigits, hlength, Number.digits_ne_nil]
  have hzero : ¬((Number.digits n).head? = some '0' ∧
      Number.digits n ≠ ['0']) := by
    rintro ⟨hhead, hmore⟩
    by_cases hn : n = 0
    · exact hmore (hn ▸ rfl)
    · exact Number.head?_digits_ne_zero hn hhead
  rw [octet?, if_neg hform, if_neg hzero, Number.ofDigitChars_digits]
  exact if_pos h

theorem toList_octetsText (bytes : Bytes) :
    (octetsText bytes).toList =
      ['.'].intercalate (bytes.map fun b => Number.digits b.toNat) := by
  rw [octetsText, String.toList_intercalate, List.map_map]
  simp only [Function.comp_def, String.toList_ofList]
  rfl

theorem octets?_octetsText {bytes : Bytes} (h : bytes.length = 4) :
    octets? (octetsText bytes).toList = some bytes := by
  have hsplit : splitAt '.' (octetsText bytes).toList =
      bytes.map fun b => Number.digits b.toNat := by
    rw [toList_octetsText]
    apply splitAt_intercalate
    · rw [← List.length_pos_iff, List.length_map, h]
      decide
    · intro part hpart hpoint
      obtain ⟨b, -, rfl⟩ := List.mem_map.mp hpart
      exact Number.not_mem_digits (by decide) _ hpoint
  rw [octets?, hsplit, if_neg (by rw [List.length_map, h]; decide)]
  apply mapM_map_of_forall
  intro b hb
  rw [octet?_digits b.toNat_lt, UInt8.ofNat_toNat]

theorem octets?_of_not_mem {cs : List Char} (h : '.' ∉ cs) :
    octets? cs = none := by
  rw [octets?, splitAt_of_not_mem h]
  rfl

/-! ## Groups -/

section Groups

variable {gs hs : List ℕ}

theorem groups_spec (bytes : Bytes) (k : ℕ) (h : bytes.length = 2 * k) :
    (groups bytes).length = k ∧ (∀ g ∈ groups bytes, g < 65536) ∧
      bytesOfGroups (groups bytes) = bytes := by
  induction k generalizing bytes with
  | zero =>
    rw [List.eq_nil_of_length_eq_zero h]
    exact ⟨rfl, by simp [groups], rfl⟩
  | succ k ih =>
    match bytes, h with
    | a :: b :: rest, h =>
      obtain ⟨hlength, hlt, hbytes⟩ := ih rest (by simpa [Nat.mul_succ] using h)
      have ha := a.toNat_lt
      have hb := b.toNat_lt
      refine ⟨by rw [groups, List.length_cons, hlength], ?_, ?_⟩
      · intro g hg
        rcases List.mem_cons.mp hg with rfl | hrest
        · omega
        · exact hlt g hrest
      · have hpair := BigEndian.ofNat_toNat [a, b]
        have hnumber : BigEndian.toNat [a, b] = a.toNat * 256 + b.toNat := by
          rw [← List.singleton_append, BigEndian.toNat_append]
          simp [BigEndian.toNat]
        rw [hnumber] at hpair
        rw [groups, bytesOfGroups, List.flatMap_cons]
        exact congrArg₂ (· ++ ·) hpair hbytes

theorem group?_toDigits {g : ℕ} (h : g < 65536) :
    group? (Nat.toDigits 16 g) = some g := by
  have hlength : (Nat.toDigits 16 g).length ≤ 4 :=
    (Nat.length_toDigits_le_iff (by decide) (by decide)).mpr h
  have hform : ¬((Nat.toDigits 16 g).isEmpty = true ∨
      4 < (Nat.toDigits 16 g).length) := by
    simp [hlength, Nat.toDigits_ne_nil]
  rw [group?, if_neg hform, Text.Hex.read?_toDigits]

/-- The parts of groups in a text, where no groups leave an empty part. -/
def partsOf (gs : List ℕ) : List (List Char) :=
  if gs = [] then [[]] else gs.map (Nat.toDigits 16)

theorem toList_groupsText (gs : List ℕ) :
    (groupsText gs).toList = [':'].intercalate (gs.map (Nat.toDigits 16)) := by
  rw [groupsText, String.toList_intercalate, List.map_map]
  simp only [Function.comp_def, String.toList_ofList]
  rfl

theorem splitAt_groupsText (gs : List ℕ) :
    splitAt ':' (groupsText gs).toList = partsOf gs := by
  rw [toList_groupsText, partsOf]
  by_cases hnil : gs = []
  · rw [if_pos hnil, hnil]
    rfl
  · rw [if_neg hnil]
    apply splitAt_intercalate
    · exact fun h => hnil (List.map_eq_nil_iff.mp h)
    · intro part hpart hcolon
      obtain ⟨g, -, rfl⟩ := List.mem_map.mp hpart
      exact absurd (Text.Hex.mem_toDigits hcolon) (by decide)

/-- Groups are read back from their parts, whether or not an address of version
4 might end them. -/
theorem groups?_partsOf (tail : Bool) (h : ∀ g ∈ gs, g < 65536) :
    groups? tail (partsOf gs) = some gs := by
  rw [partsOf]
  by_cases hnil : gs = []
  · rw [if_pos hnil, hnil]
    rfl
  · have hread : (gs.map (Nat.toDigits 16)).mapM group? = some gs :=
      mapM_map_of_forall fun g hg => group?_toDigits (h g hg)
    have hmem : ∀ part ∈ (gs.map (Nat.toDigits 16)).reverse, part ≠ [] ∧
        '.' ∉ part := by
      intro part hpart
      obtain ⟨g, -, rfl⟩ := List.mem_map.mp (List.mem_reverse.mp hpart)
      refine ⟨Nat.toDigits_ne_nil, ?_⟩
      intro hpoint
      exact absurd (Text.Hex.mem_toDigits hpoint) (by decide)
    rw [if_neg hnil, groups?]
    split
    next hempty => simp [hnil] at hempty
    next hempty =>
      rw [hempty] at hmem
      exact absurd rfl (hmem [] List.mem_cons_self).1
    next last before hlast hparts =>
      rw [hparts] at hmem
      rw [if_neg fun hversion =>
        (hmem last List.mem_cons_self).2 hversion.2, hread]

theorem exists_partsOf_eq_cons (gs : List ℕ) :
    ∃ first rest, partsOf gs = first :: rest ∧
      ∀ part ∈ rest, part.isEmpty = false := by
  rw [partsOf]
  cases gs with
  | nil => exact ⟨[], [], rfl, by simp⟩
  | cons g gs =>
    refine ⟨Nat.toDigits 16 g, gs.map (Nat.toDigits 16), rfl, ?_⟩
    intro part hpart
    obtain ⟨k, -, rfl⟩ := List.mem_map.mp hpart
    simp [Nat.toDigits_ne_nil]

theorem splitGap?_partsOf (gs : List ℕ) : splitGap? (partsOf gs) = none := by
  obtain ⟨first, rest, hparts, hrest⟩ := exists_partsOf_eq_cons gs
  have hgap : rest.dropLast.findIdx? List.isEmpty = none :=
    List.findIdx?_eq_none_iff.mpr fun part hpart =>
      hrest part (List.mem_of_mem_dropLast hpart)
  rw [hparts, splitGap?, hgap]

/-- The empty part between two colons is found wherever it is. -/
theorem splitGap?_append (gs hs : List ℕ) :
    splitGap? (partsOf gs ++ [] :: partsOf hs) =
      some (partsOf gs, partsOf hs) := by
  obtain ⟨first, rest, hparts, hrest⟩ := exists_partsOf_eq_cons gs
  obtain ⟨last, more, hlast, -⟩ := exists_partsOf_eq_cons hs
  have hfront : rest.findIdx? List.isEmpty = none :=
    List.findIdx?_eq_none_iff.mpr hrest
  have hgap : (rest ++ [] :: partsOf hs).dropLast.findIdx? List.isEmpty =
      some rest.length := by
    rw [hlast, List.dropLast_append_cons, List.findIdx?_append, hfront]
    simp [List.findIdx?_cons]
  rw [hparts, List.cons_append, splitGap?, hgap]
  simp

end Groups

/-! ## The run of zeros -/

theorem zeroRun_spec (gs : List ℕ) :
    gs = List.replicate (zeroRun gs) 0 ++ gs.drop (zeroRun gs) := by
  induction gs with
  | nil => rfl
  | cons g gs ih =>
    by_cases hzero : g = 0
    · have hrun : zeroRun (g :: gs) = zeroRun gs + 1 := by simp [zeroRun, hzero]
      rw [hrun, List.replicate_succ, List.drop_succ_cons,
        List.cons_append, ← ih, hzero]
    · have hrun : zeroRun (g :: gs) = 0 := by simp [zeroRun, hzero]
      rw [hrun]
      rfl

/-- The groups that are left out of a text are zeros. -/
theorem longestZeroRun_spec (gs : List ℕ) :
    gs = gs.take (longestZeroRun gs).1 ++
      List.replicate (longestZeroRun gs).2 0 ++
      gs.drop ((longestZeroRun gs).1 + (longestZeroRun gs).2) := by
  induction gs with
  | nil => rfl
  | cons g gs ih =>
    have hhere := zeroRun_spec (g :: gs)
    rw [longestZeroRun]
    dsimp only
    split
    · simpa using hhere
    · rw [List.take_succ_cons, Nat.add_right_comm, List.drop_succ_cons,
        List.cons_append, List.cons_append, ← ih]

/-! ## Sixteen bytes -/

theorem splitAt_gap (gs hs : List ℕ) :
    splitAt ':' (groupsText gs ++ "::" ++ groupsText hs).toList =
      partsOf gs ++ [] :: partsOf hs := by
  rw [String.append_assoc, String.toList_append, String.toList_append]
  change splitAt ':' (_ ++ ':' :: ([] ++ ':' :: (groupsText hs).toList)) = _
  rw [splitAt_append, splitAt_append, splitAt_groupsText, splitAt_groupsText]
  rfl

/-- All eight groups are read back, those that are left out as zeros. -/
theorem allGroups?_compressedText {gs : List ℕ} (hlength : gs.length = 8)
    (h : ∀ g ∈ gs, g < 65536) :
    allGroups? (compressedText gs).toList = some gs := by
  have hspec := longestZeroRun_spec gs
  rw [compressedText, allGroups?]
  generalize longestZeroRun gs = run at hspec ⊢
  obtain ⟨start, length⟩ := run
  dsimp only at hspec ⊢
  by_cases hshort : length < 2
  · rw [if_pos hshort, splitAt_groupsText, splitGap?_partsOf]
    dsimp only
    rw [groups?_partsOf true h]
    simp [hlength]
  · have hleft : ∀ g ∈ gs.take start, g < 65536 := fun g hg =>
      h g (List.mem_of_mem_take hg)
    have hright : ∀ g ∈ gs.drop (start + length), g < 65536 :=
      fun g hg => h g (List.mem_of_mem_drop hg)
    have hsum := congrArg List.length hspec
    rw [List.length_append, List.length_append, List.length_replicate,
      hlength] at hsum
    have hmissing : 8 - ((gs.take start).length +
        (gs.drop (start + length)).length) = length := by
      omega
    rw [if_neg hshort, splitAt_gap, splitGap?_append]
    dsimp only
    rw [groups?_partsOf false hleft, groups?_partsOf true hright]
    simp only [Option.bind_eq_bind, Option.bind_some, hmissing]
    rw [if_neg (by omega), ← hspec]

theorem mem_groupsText {gs : List ℕ} {c : Char}
    (h : c ∈ (groupsText gs).toList) :
    c = ':' ∨ c ∈ lowerDigits := by
  rw [toList_groupsText] at h
  rcases mem_of_mem_intercalate h with hcolon | ⟨part, hpart, hc⟩
  · exact .inl hcolon
  · obtain ⟨g, -, rfl⟩ := List.mem_map.mp hpart
    exact .inr (Text.Hex.mem_toDigits hc)

theorem mem_compressedText {gs : List ℕ} {c : Char}
    (h : c ∈ (compressedText gs).toList) :
    c = ':' ∨ c ∈ lowerDigits := by
  rw [compressedText] at h
  dsimp only at h
  split at h
  next => exact mem_groupsText h
  next =>
    rw [String.toList_append, String.toList_append, List.mem_append,
      List.mem_append] at h
    rcases h with (hleft | hgap) | hright
    · exact mem_groupsText hleft
    · exact .inl (by simpa using hgap)
    · exact mem_groupsText hright

/-- The text of groups holds no other characters than colons and digits. -/
theorem not_mem_compressedText {gs : List ℕ} {c : Char} (hcolon : c ≠ ':')
    (hdigit : c ∉ lowerDigits) : c ∉ (compressedText gs).toList := by
  intro hmem
  rcases mem_compressedText hmem with h | h
  · exact hcolon h
  · exact hdigit h

theorem splitZone?_of_not_mem {cs : List Char} (h : '%' ∉ cs) :
    splitZone? cs = some (cs, none) := by
  have hall : ∀ c ∈ cs, decide (c ≠ '%') = true := by
    intro c hc
    rw [decide_eq_true_iff]
    rintro rfl
    exact h hc
  have hfront : cs.takeWhile (· ≠ '%') = cs :=
    List.takeWhile_eq_self_iff.mpr hall
  have hrest : cs.dropWhile (· ≠ '%') = [] := List.dropWhile_eq_nil_iff.mpr hall
  rw [splitZone?, hfront, hrest]

/-! ## Addresses -/

theorem ofText?_text_v4 (n : BitVec 32) :
    ofText? (text (.v4 n)) = some (.v4 n) := by
  have hslash : '/' ∉ (octetsText (BigEndian.ofNat 4 n.toNat)).toList := by
    intro hmem
    rw [toList_octetsText] at hmem
    rcases mem_of_mem_intercalate hmem with h | ⟨part, hpart, hc⟩
    · exact absurd h (by decide)
    · obtain ⟨b, -, rfl⟩ := List.mem_map.mp hpart
      exact Number.not_mem_digits (by decide) _ hc
  rw [text, ofText?, if_neg hslash,
    octets?_octetsText (BigEndian.length_ofNat 4 _)]
  exact congrArg (some <| Address.v4 ·) (BigEndian.bitVec_toNat_ofNat 4 n)

theorem ofText?_text_v6 (n : BitVec 128) :
    ofText? (text (.v6 n none)) = some (.v6 n none) := by
  obtain ⟨hlength, hgroups, hbytes⟩ :=
    groups_spec (BigEndian.ofNat 16 n.toNat) 8 (BigEndian.length_ofNat 16 _)
  have htext : text (.v6 n none) =
      compressedText (groups (BigEndian.ofNat 16 n.toNat)) :=
    String.append_empty
  rw [htext, ofText?, if_neg (not_mem_compressedText (by decide) (by decide)),
    octets?_of_not_mem (not_mem_compressedText (by decide) (by decide))]
  dsimp only
  rw [v6?, splitZone?_of_not_mem (not_mem_compressedText (by decide)
      (by decide)), Option.bind_eq_bind, Option.bind_some]
  dsimp only
  rw [allGroups?_compressedText hlength hgroups, Option.bind_eq_bind,
    Option.bind_some, hbytes]
  exact congrArg (some <| Address.v6 · none) (BigEndian.bitVec_toNat_ofNat 16 n)

theorem exists_ofBytes?_iff (raw : Bytes) :
    (∃ a, ofBytes? raw = some a) ↔ raw.length = 4 ∨ raw.length = 16 := by
  rw [ofBytes?]
  by_cases hfour : raw.length = 4
  · simp [hfour]
  · by_cases hsixteen : raw.length = 16
    · simp [hsixteen]
    · simp [hfour, hsixteen]

/-- The address that bytes stand for has those bytes and is read back from its
text. -/
theorem of_ofBytes? {raw : Bytes} {a : Address} (h : ofBytes? raw = some a) :
    a.toBytes = raw ∧ ofText? a.text = some a := by
  rw [ofBytes?] at h
  split at h
  next hlength =>
    cases h
    exact ⟨BigEndian.ofNat_bitVec hlength, ofText?_text_v4 _⟩
  split at h
  next hlength =>
    cases h
    exact ⟨BigEndian.ofNat_bitVec hlength, ofText?_text_v6 _⟩
  next => cases h

end QueryJournal.Address

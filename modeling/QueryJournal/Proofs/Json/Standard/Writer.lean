import Mathlib.Data.List.Basic
import QueryJournal.Json.Standard
import QueryJournal.Proofs.Json.Writing

/-!
# The standard engine writes as it should

The engine that is written out obeys the laws of writing.  Each character has
one spelling, and the room that is left makes no difference as long as there is
enough of it.
-/

namespace QueryJournal.Json

variable {hook : Hook}

theorem write_of_not_hasItems {v : Value} (h : v.hasItems = false) (depth : ℕ) :
    write hook depth v = scalar hook v := by
  rw [write]
  all_goals
    intros
    subst_vars
    cases h

theorem write_tuple (depth : ℕ) (xs : List Value) :
    write hook depth (.tuple xs) = write hook depth (.list xs) := by
  cases depth with
  | zero => rw [write, write]
  | succ below => rw [write, write]

/-! ## Strings -/

/-- A character is escaped by one letter or by its number, or it stands for
itself. -/
theorem escapeChar_cases (c : Char) :
    (∃ letter, (letter, c) ∈ shortEscapes ∧ escapeChar c = ['\\', letter]) ∨
    (c.toNat < 0x20 ∧ escapeChar c = '\\' :: 'u' :: Text.Hex.digits 4 c.toNat) ∨
    ((c ≠ '"' ∧ c ≠ '\\' ∧ 0x20 ≤ c.toNat) ∧ escapeChar c = [c]) := by
  have hnumber : ∀ n, c.toNat = n → c = Char.ofNat n := by
    intro n hn
    rw [← hn, Char.ofNat_toNat]
  have hshort : ∀ d letter, c = d →
      (letter, d) ∈ shortEscapes ∧ escapeChar d = ['\\', letter] →
      ∃ letter, (letter, c) ∈ shortEscapes ∧ escapeChar c = ['\\', letter] := by
    rintro d letter rfl h
    exact ⟨letter, h⟩
  by_cases hquote : c = '"'
  · exact .inl (hshort '"' '"' hquote (by decide))
  by_cases hslash : c = '\\'
  · exact .inl (hshort '\\' '\\' hslash (by decide))
  by_cases hline : c = '\n'
  · exact .inl (hshort '\n' 'n' hline (by decide))
  by_cases hreturn : c = '\r'
  · exact .inl (hshort '\r' 'r' hreturn (by decide))
  by_cases htab : c = '\t'
  · exact .inl (hshort '\t' 't' htab (by decide))
  by_cases hback : c.toNat = 8
  · exact .inl (hshort '\x08' 'b' (hnumber 8 hback) (by decide))
  by_cases hform : c.toNat = 12
  · exact .inl (hshort '\x0c' 'f' (hnumber 12 hform) (by decide))
  right
  by_cases hcontrol : c.toNat < 0x20
  · left
    refine ⟨hcontrol, ?_⟩
    simp only [escapeChar, hquote, hslash, hline, hreturn, htab, hback, hform,
      hcontrol, or_self, if_false, if_true]
  · right
    refine ⟨⟨hquote, hslash, Nat.le_of_not_lt hcontrol⟩, ?_⟩
    simp only [escapeChar, hquote, hslash, hline, hreturn, htab, hback, hform,
      hcontrol, or_self, if_false]

/-- Every character has a piece with the spelling that is written. -/
theorem exists_piece (c : Char) :
    ∃ p : Piece, p.char = c ∧ p.spelled = escapeChar c := by
  rcases escapeChar_cases c with
    ⟨letter, hletter, hescape⟩ | ⟨hcontrol, hescape⟩ |
    ⟨hself, hescape⟩
  · exact ⟨.short letter c hletter, rfl, hescape.symm⟩
  · exact ⟨.code c (Nat.lt_trans hcontrol (by decide)), rfl, hescape.symm⟩
  · exact ⟨.self c hself, rfl, hescape.symm⟩

/-- The piece that a character is written as. -/
noncomputable def pieceOf (c : Char) : Piece :=
  (exists_piece c).choose

theorem char_pieceOf (c : Char) : (pieceOf c).char = c :=
  (exists_piece c).choose_spec.1

theorem spelled_pieceOf (c : Char) : (pieceOf c).spelled = escapeChar c :=
  (exists_piece c).choose_spec.2

theorem quoted_pieces (t : String) :
    Piece.quoted (t.toList.map pieceOf) = quote t := by
  have hspelled : (t.toList.map pieceOf).flatMap Piece.spelled =
      t.toList.flatMap escapeChar := by
    rw [List.flatMap_map]
    exact List.flatMap_congr fun c _ => spelled_pieceOf c
  rw [Piece.quoted, hspelled, quote]

theorem meaning_pieces (t : String) :
    Piece.meaning (t.toList.map pieceOf) = t := by
  have hchars : (t.toList.map pieceOf).map Piece.char = t.toList := by
    rw [List.map_map]
    exact (List.map_congr_left fun c _ => char_pieceOf c).trans (List.map_id _)
  rw [Piece.meaning, hchars, String.ofList_toList]

/-- How the standard engine writes, with room for some nesting. -/
noncomputable def standardScript (room : ℕ) : Script where
  text hook := write hook room
  quote t := t.toList.map pieceOf
  number x := (number? x).getD "null"
  floatKey := floatKey

/-! ## Scalars and keys -/

theorem converted_int (n : ℤ) : converted hook (.int n) = integer n := by
  rw [converted, integer]
  simp only [← Nat.not_lt, ite_not]

theorem keyText_standardScript (room : ℕ) (v : Value) :
    (standardScript room).keyText hook v = keyText hook v := by
  cases v with
  | int n => exact congrArg (Except.mapError Fault.thrown) (converted_int n)
  | _ => rfl

theorem scalar_of_isString {v : Value} (h : isString v = true) :
    scalar hook v = (keyText hook v).map quote := by
  cases v with
  | null => cases h
  | truth b => cases h
  | int n => cases h
  | float x => cases h
  | _ => rfl

theorem hasItems_of_isString {v : Value} (h : isString v = true) :
    v.hasItems = false := by
  cases v with
  | list xs => cases h
  | tuple xs => cases h
  | mapping entries => cases h
  | _ => rfl

theorem scalar_float (x : Binary) :
    scalar hook (.float x) =
      .ok (if x.isFinite then (number? x).getD "null" else "null") := by
  cases x with
  | _ => rfl

/-! ## Items -/

theorem writeAll_eq_mapM (depth : ℕ) (xs : List Value) :
    writeAll hook depth xs = xs.mapM (write hook depth) := by
  induction xs with
  | nil => rfl
  | cons x xs ih =>
    rw [writeAll, ih, List.mapM_cons]

theorem writeEntries_eq_mapM (depth : ℕ) (entries : List (Value × Value)) :
    writeEntries hook depth entries =
      entries.mapM fun e => do
        let key ← keyText hook e.1
        let item ← write hook depth e.2
        return (quote key, item) := by
  induction entries with
  | nil => rfl
  | cons e entries ih =>
    obtain ⟨k, v⟩ := e
    rw [writeEntries, ih, List.mapM_cons]
    simp only [bind_assoc, pure_bind]

theorem exists_pred {n room : ℕ} (h : n + 1 ≤ room) : ∃ m, room = m + 1 :=
  Nat.exists_eq_add_one.mpr (Nat.lt_of_lt_of_le (Nat.succ_pos n) h)

/-- More room than enough makes no difference. -/
theorem write_eq_of_le {v : Value} {n m : ℕ}
    (hn : v.depth ≤ n) (hm : v.depth ≤ m) :
    write hook n v = write hook m v := by
  induction v using Value.induction_on_items generalizing n m with
  | leaf v h => rw [write_of_not_hasItems h, write_of_not_hasItems h]
  | list xs ih =>
    obtain ⟨n, rfl⟩ := exists_pred hn
    obtain ⟨m, rfl⟩ := exists_pred hm
    have hitems : ∀ x ∈ xs, write hook n x = write hook m x := fun x hx =>
      ih x hx (Value.depth_list_le_iff.mp hn x hx)
        (Value.depth_list_le_iff.mp hm x hx)
    rw [write, write, writeAll_eq_mapM, writeAll_eq_mapM, mapM_congr hitems]
  | tuple xs hlist =>
    rw [write_tuple, write_tuple]
    exact hlist hn hm
  | mapping entries ih =>
    obtain ⟨n, rfl⟩ := exists_pred hn
    obtain ⟨m, rfl⟩ := exists_pred hm
    have hitems : ∀ e ∈ entries,
        write hook n e.2 = write hook m e.2 := fun e he =>
      ih e he (Value.depth_mapping_le_iff.mp hn e he)
        (Value.depth_mapping_le_iff.mp hm e he)
    rw [write, write, writeEntries_eq_mapM, writeEntries_eq_mapM]
    congr 1
    refine mapM_congr fun e he => ?_
    rw [hitems e he]

theorem write_list {room : ℕ} {xs : List Value}
    (h : (Value.list xs).depth ≤ room) :
    write hook room (.list xs) = (xs.mapM (write hook room)).map array := by
  obtain ⟨room, rfl⟩ := exists_pred h
  have hitems : ∀ x ∈ xs,
      write hook room x = write hook (room + 1) x := fun x hx =>
    have hx := Value.depth_list_le_iff.mp h x hx
    write_eq_of_le hx (Nat.le_succ_of_le hx)
  rw [write, writeAll_eq_mapM, mapM_congr hitems]

theorem write_mapping {room : ℕ} {entries : List (Value × Value)}
    (h : (Value.mapping entries).depth ≤ room) :
    write hook room (.mapping entries) =
      (entries.mapM ((standardScript room).member hook)).map object := by
  obtain ⟨room, rfl⟩ := exists_pred h
  rw [write, writeEntries_eq_mapM]
  congr 1
  refine mapM_congr fun e he => ?_
  have hdepth := Value.depth_mapping_le_iff.mp h e he
  have hitem : write hook room e.2 = write hook (room + 1) e.2 :=
    write_eq_of_le hdepth (Nat.le_succ_of_le hdepth)
  rw [Script.member, keyText_standardScript, hitem]
  simp only [Script.quoted, standardScript, quoted_pieces]

/-! ## The laws -/

theorem standard_writes (room : ℕ) :
    (Engine.standard (some room)).Writes (standardScript room) room where
  bytes hook v := rfl
  meaning := meaning_pieces
  null hook := write_of_not_hasItems rfl room
  truth hook b := write_of_not_hasItems rfl room
  int hook n := by
    rw [converted_int]
    exact write_of_not_hasItems rfl room
  float hook x := (write_of_not_hasItems rfl room).trans (scalar_float x)
  string hook v h := by
    have hquoted : (standardScript room).quoted = quote := funext quoted_pieces
    rw [keyText_standardScript, hquoted, ← scalar_of_isString h]
    exact write_of_not_hasItems (hasItems_of_isString h) room
  list hook xs h := write_list h
  tuple hook xs := write_tuple room xs
  mapping hook entries h := write_mapping h

/-- With room for any nesting, values are encoded by the same texts. -/
theorem encode_standard (v : Value) :
    (Platform.standard none).encode v =
      (write (Platform.standard none).hook v.depth v).mapError
        (Platform.refusal v) :=
  encode_of_write rfl

end QueryJournal.Json

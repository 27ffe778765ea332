import QueryJournal.Proofs.Json.Standard.Reader
import QueryJournal.Proofs.Results

/-!
# What the standard engine throws

The engine that is written out throws for two reasons: a bracket inside of as
many open ones as there is room for, and a string with a gap, which is a byte
that belongs to no character.  Each piece of the reader keeps to this.  What it
leaves is an end of the symbols that it was given, so that a gap that is found
later stood there from the start.
-/

namespace QueryJournal.Json

variable {α β : Type} {s t : Symbols}

/-! ## What is left -/

theorem skipBlanks_suffix : ∀ s : Symbols, skipBlanks s <:+ s
  | [] => List.suffix_refl []
  | none :: rest => List.suffix_refl (none :: rest)
  | some c :: rest => by
    rw [skipBlanks]
    split
    · exact (skipBlanks_suffix rest).trans (List.suffix_cons (some c) rest)
    · exact List.suffix_refl (some c :: rest)

theorem suffix_of_skipBlanks_eq {c : Option Char} {rest : Symbols}
    (h : skipBlanks s = c :: rest) : rest <:+ s :=
  (List.suffix_cons c rest).trans (h ▸ skipBlanks_suffix s)

theorem suffix_of_dropWord? {rest : Symbols} :
    ∀ {word : List Char} {s : Symbols},
      dropWord? word s = some rest → rest <:+ s
  | [], _, h => by
    cases h
    exact List.suffix_refl _
  | c :: cs, [], h => nomatch h
  | c :: cs, none :: more, h => nomatch h
  | c :: cs, some d :: more, h => by
    rw [dropWord?] at h
    split at h
    · exact (suffix_of_dropWord? h).trans (List.suffix_cons (some d) more)
    · cases h

theorem map_takeDigits_append :
    ∀ s : Symbols, (takeDigits s).1.map some ++ (takeDigits s).2 = s
  | [] => rfl
  | none :: _ => rfl
  | some c :: rest => by
    rw [takeDigits]
    split
    · exact congrArg (some c :: ·) (map_takeDigits_append rest)
    · rfl

theorem takeDigits_suffix (s : Symbols) : (takeDigits s).2 <:+ s :=
  ⟨_, map_takeDigits_append s⟩

theorem suffix_of_takeWhole? {ds : List Char} {rest : Symbols}
    (h : takeWhole? s = some (ds, rest)) : rest <:+ s := by
  have hsplit := map_takeDigits_append s
  rw [takeWhole?] at h
  split at h
  next more left hdigits =>
    cases h
    rw [hdigits] at hsplit
    exact ⟨[some '0'], hsplit⟩
  next => cases h
  next digits left _ hdigits =>
    cases h
    rw [hdigits] at hsplit
    exact ⟨_, hsplit⟩

theorem suffix_of_takeFraction? {ds : Option (List Char)} {rest : Symbols}
    (h : takeFraction? s = some (ds, rest)) : rest <:+ s := by
  unfold takeFraction? at h
  split at h
  next more =>
    have hmore := takeDigits_suffix more
    split at h
    next => cases h
    next hdigits =>
      cases h
      rw [hdigits] at hmore
      exact hmore.trans (List.suffix_cons _ _)
  next =>
    cases h
    exact List.suffix_refl _

theorem takeSign_suffix (s : Symbols) : (takeSign s).2 <:+ s := by
  unfold takeSign
  split
  · exact List.suffix_cons _ _
  · exact List.suffix_cons _ _
  · exact List.suffix_refl _

theorem suffix_of_takeSign {ds : List Char} {more rest : Symbols}
    (h : takeDigits (takeSign more).2 = (ds, rest)) (c : Char) :
    rest <:+ some c :: more := by
  have hdigits := takeDigits_suffix (takeSign more).2
  rw [h] at hdigits
  exact (hdigits.trans (takeSign_suffix more)).trans
    (List.suffix_cons (some c) more)

theorem suffix_of_takeExponent? {n : Option Int} {rest : Symbols}
    (h : takeExponent? s = some (n, rest)) : rest <:+ s := by
  unfold takeExponent? at h
  split at h
  case h_3 =>
    cases h
    exact List.suffix_refl _
  all_goals
    dsimp only at h
    split at h
    next => cases h
    next hdigits =>
      cases h
      exact suffix_of_takeSign hdigits _

/-! ## Strings with gaps -/

theorem exists_of_goesOn {p : Part} {more rest : Symbols} {parts : List Part}
    (h : (do let (parts, rest) ← takeParts? more; return (p :: parts, rest)) =
      some (parts, rest)) :
    ∃ parts', parts = p :: parts' ∧ takeParts? more = some (parts', rest) := by
  cases htaken : takeParts? more with
  | none =>
    rw [htaken] at h
    cases h
  | some read =>
    rw [htaken] at h
    cases h
    exact ⟨read.1, rfl, rfl⟩

/-- A string ends, or it has a part and goes on.  Only a gap is a part without a
character. -/
theorem takeParts?_cases {parts : List Part} {rest : Symbols}
    (h : takeParts? s = some (parts, rest)) :
    (s = some '"' :: rest ∧ parts = []) ∨
      ∃ p parts' more, parts = p :: parts' ∧ more <:+ s ∧
        takeParts? more = some (parts', rest) ∧
        (p = .symbol none → none ∈ s) := by
  unfold takeParts? at h
  split at h
  next =>
    cases h
    exact .inl ⟨rfl, rfl⟩
  next a b c d more =>
    cases hcode : Text.Hex.read? 0 [a, b, c, d] with
    | none =>
      rw [hcode] at h
      cases h
    | some n =>
      rw [hcode] at h
      obtain ⟨parts', rfl, hmore⟩ := exists_of_goesOn h
      exact .inr ⟨_, parts', more, rfl, ⟨[_, _, _, _, _, _], rfl⟩, hmore, nofun⟩
  next c more _ =>
    cases hescape : shortEscape? c with
    | none =>
      rw [hescape] at h
      cases h
    | some d =>
      rw [hescape] at h
      obtain ⟨parts', rfl, hmore⟩ := exists_of_goesOn h
      exact .inr ⟨_, parts', more, rfl, ⟨[_, _], rfl⟩, hmore, nofun⟩
  next => cases h
  next c more _ _ _ _ =>
    split at h
    · cases h
    · obtain ⟨parts', rfl, hmore⟩ := exists_of_goesOn h
      exact .inr ⟨_, parts', more, rfl, List.suffix_cons _ _, hmore, nofun⟩
  next more =>
    obtain ⟨parts', rfl, hmore⟩ := exists_of_goesOn h
    exact .inr ⟨_, parts', more, rfl, List.suffix_cons _ _, hmore,
      fun _ => List.mem_cons_self⟩
  next => cases h

theorem suffix_of_takeParts? {parts : List Part} {rest : Symbols}
    (h : takeParts? s = some (parts, rest)) : rest <:+ s := by
  induction parts generalizing s with
  | nil =>
    rcases takeParts?_cases h with ⟨rfl, -⟩ | ⟨p, parts', more, hparts, -⟩
    · exact List.suffix_cons _ _
    · cases hparts
  | cons p parts ih =>
    rcases takeParts?_cases h with
      ⟨-, hparts⟩ | ⟨p, parts', more, hparts, hsuffix, hmore, -⟩
    · cases hparts
    · cases hparts
      exact (ih hmore).trans hsuffix

theorem gap_mem_of_takeParts? {parts : List Part} {rest : Symbols}
    (h : takeParts? s = some (parts, rest)) (hgap : Part.symbol none ∈ parts) :
    none ∈ s := by
  induction parts generalizing s with
  | nil => cases hgap
  | cons part parts ih =>
    rcases takeParts?_cases h with
      ⟨-, hparts⟩ | ⟨q, parts', more, hparts, hsuffix, hmore, hnone⟩
    · cases hparts
    · cases hparts
      rcases List.mem_cons.mp hgap with hhead | htail
      · exact hnone hhead.symm
      · exact hsuffix.subset (ih hmore htail)

/-- A character that an escape stands for is no gap. -/
theorem gap_mem_of_map {parts : Option Symbols} {c : Char} {symbols : Symbols}
    (h : parts.map (some c :: ·) = some symbols) (hgap : none ∈ symbols) :
    ∃ more, parts = some more ∧ none ∈ more := by
  obtain ⟨more, hmore, rfl⟩ := Option.map_eq_some_iff.mp h
  exact ⟨more, hmore, by simpa using hgap⟩

theorem gap_mem_of_joinParts? {parts : List Part} {symbols : Symbols}
    (h : joinParts? parts = some symbols) (hgap : none ∈ symbols) :
    Part.symbol none ∈ parts := by
  induction parts using joinParts?.induct generalizing symbols with
  | case1 =>
    cases h
    cases hgap
  | case2 symbol parts ih =>
    obtain ⟨more, hmore, rfl⟩ := Option.map_eq_some_iff.mp h
    rcases List.mem_cons.mp hgap with rfl | hgap
    · exact List.mem_cons_self
    · exact List.mem_cons_of_mem _ (ih hmore hgap)
  | case3 n m parts hhigh hlow ih =>
    rw [joinParts?, if_pos hhigh, if_pos hlow] at h
    obtain ⟨more, hmore, hgap⟩ := gap_mem_of_map h hgap
    exact List.mem_cons_of_mem _ (List.mem_cons_of_mem _ (ih hmore hgap))
  | case4 n m parts hhigh hlow =>
    rw [joinParts?, if_pos hhigh, if_neg hlow] at h
    cases h
  | case5 n m parts hhigh hlow =>
    rw [joinParts?, if_neg hhigh, if_pos hlow] at h
    cases h
  | case6 n m parts hhigh hlow ih =>
    rw [joinParts?, if_neg hhigh, if_neg hlow] at h
    obtain ⟨more, hmore, hgap⟩ := gap_mem_of_map h hgap
    exact List.mem_cons_of_mem _ (ih hmore hgap)
  | case7 n parts hcode hhalf =>
    rw [joinParts?, if_pos hhalf] at h
    · cases h
    · exact hcode
  | case8 n parts hcode hhalf ih =>
    rw [joinParts?, if_neg hhalf] at h
    · obtain ⟨more, hmore, hgap⟩ := gap_mem_of_map h hgap
      exact List.mem_cons_of_mem _ (ih hmore hgap)
    · exact hcode

/-! ## Reasons to throw -/

/-- What is left is an end of the symbols, and whatever is thrown has a reason
there. -/
structure Accountable (s : Symbols)
    (read : Except Fault (α × Symbols)) : Prop where
  suffix : ∀ a rest, read = .ok (a, rest) → rest <:+ s
  thrown : ∀ f, read = .error (.thrown f) →
    f = .tooDeep ∨ f = .malformedText ∧ none ∈ s

theorem accountable_ok (a : α) {rest : Symbols} (h : rest <:+ s) :
    Accountable s (.ok (a, rest)) := by
  constructor
  · intro b more hread
    cases hread
    exact h
  · intro f hread
    cases hread

theorem accountable_refused :
    Accountable s (.error .refused : Except Fault (α × Symbols)) :=
  ⟨nofun, nofun⟩

theorem accountable_tooDeep :
    Accountable s (.error (.thrown .tooDeep) : Except Fault (α × Symbols)) := by
  constructor
  · intro a rest hread
    cases hread
  · intro f hread
    cases hread
    exact .inl rfl

theorem accountable_malformedText (h : none ∈ s) :
    Accountable s
      (.error (.thrown .malformedText) : Except Fault (α × Symbols)) := by
  constructor
  · intro a rest hread
    cases hread
  · intro f hread
    cases hread
    exact .inr ⟨rfl, h⟩

theorem accountable_expect {x : Option (α × Symbols)}
    (h : ∀ a rest, x = some (a, rest) → rest <:+ s) :
    Accountable s (expect x) := by
  cases x with
  | none => exact accountable_refused
  | some read => exact accountable_ok read.1 (h read.1 read.2 rfl)

/-- What has a reason in an end of the symbols has it in the symbols. -/
theorem Accountable.mono {read : Except Fault (α × Symbols)}
    (h : Accountable t read) (hsuffix : t <:+ s) : Accountable s read where
  suffix a rest hread := (h.suffix a rest hread).trans hsuffix
  thrown f hread := (h.thrown f hread).imp_right (And.imp_right (hsuffix.mem ·))

theorem Accountable.bind {read : Except Fault (α × Symbols)}
    (h : Accountable s read) {next : α × Symbols → Except Fault (β × Symbols)}
    (hnext : ∀ a rest, Accountable rest (next (a, rest))) :
    Accountable s (read >>= next) := by
  cases read with
  | ok r => exact (hnext r.1 r.2).mono (h.suffix r.1 r.2 rfl)
  | error fault =>
    refine ⟨nofun, ?_⟩
    intro f hf
    cases hf
    exact h.thrown f rfl

/-! ## Pieces -/

theorem accountable_readNumber (negative : Bool) (s : Symbols) :
    Accountable s (readNumber negative s) := by
  refine (accountable_expect fun ds rest => suffix_of_takeWhole?).bind ?_
  intro whole rest
  refine (accountable_expect fun ds rest => suffix_of_takeFraction?).bind ?_
  intro fraction rest
  refine (accountable_expect fun n rest => suffix_of_takeExponent?).bind ?_
  intro exponent rest
  have hrefl := List.suffix_refl rest
  dsimp only
  by_cases hinteger : fraction.isNone ∧ exponent.isNone
  · rw [if_pos hinteger]
    by_cases hlong : Number.longestText <
      whole.length + (if negative then 1 else 0)
    · rw [if_pos hlong]
      exact accountable_refused
    · rw [if_neg hlong]
      exact accountable_ok _ hrefl
  · rw [if_neg hinteger]
    split
    · exact accountable_ok _ hrefl
    · exact accountable_refused

theorem accountable_word (word : List Char) (v : Value) (c : Char)
    (rest : Symbols) :
    Accountable (some c :: rest)
      (do return (v, ← expect (dropWord? word rest))) := by
  cases h : dropWord? word rest with
  | none => exact accountable_refused
  | some more =>
    exact accountable_ok v
      ((suffix_of_dropWord? h).trans (List.suffix_cons (some c) rest))

theorem accountable_readScalar (s : Symbols) :
    Accountable s (readScalar s) := by
  unfold readScalar
  split
  · exact accountable_word _ _ _ _
  · exact accountable_word _ _ _ _
  · exact accountable_word _ _ _ _
  · exact (accountable_readNumber true _).mono (List.suffix_cons _ _)
  · exact accountable_readNumber false s

theorem accountable_readSeparator (closing : Char) (s : Symbols) :
    Accountable s (readSeparator closing s) := by
  unfold readSeparator
  split
  next c rest h =>
    split
    · exact accountable_ok true (suffix_of_skipBlanks_eq h)
    · split
      · exact accountable_ok false (suffix_of_skipBlanks_eq h)
      · exact accountable_refused
  · exact accountable_refused

theorem accountable_readString (s : Symbols) :
    Accountable s (readString s) := by
  rw [readString]
  cases htaken : takeParts? s with
  | none => exact accountable_refused
  | some read =>
    change Accountable s (expect (joinParts? read.1) >>= _)
    cases hjoined : joinParts? read.1 with
    | none => exact accountable_refused
    | some symbols =>
      dsimp only [expect, bind, Except.bind]
      cases hcs : symbols.mapM id with
      | none =>
        have hgap :=
          gap_mem_of_joinParts? hjoined (Text.Utf8.mapM_id_eq_none_iff.mp hcs)
        exact accountable_malformedText (gap_mem_of_takeParts? htaken hgap)
      | some cs => exact accountable_ok _ (suffix_of_takeParts? htaken)

theorem accountable_readKey (s : Symbols) : Accountable s (readKey s) := by
  unfold readKey
  split
  next rest hquote =>
    refine ((accountable_readString rest).bind ?_).mono
      (suffix_of_skipBlanks_eq hquote)
    intro key rest
    dsimp only
    split
    next more hcolon =>
      exact accountable_ok key (suffix_of_skipBlanks_eq hcolon)
    next => exact accountable_refused
  next => exact accountable_refused

/-! ## Values -/

section Steps

variable {fuel depth : ℕ}

theorem accountable_readValue_succ
    (helements : ∀ depth s, Accountable s (readElements fuel depth s))
    (hmembers : ∀ depth s, Accountable s (readMembers fuel depth s))
    (s : Symbols) :
    Accountable s (readValue (fuel + 1) depth s) := by
  rw [readValue.eq_def]
  dsimp only
  split
  next _ rest hquote =>
    refine ((accountable_readString rest).bind ?_).mono
      (suffix_of_skipBlanks_eq hquote)
    intro text rest
    exact accountable_ok _ (List.suffix_refl rest)
  next => exact accountable_tooDeep
  next => exact accountable_tooDeep
  next rest depth hbracket =>
    refine Accountable.mono ?_ (suffix_of_skipBlanks_eq hbracket)
    split
    next more hclose => exact accountable_ok _ (suffix_of_skipBlanks_eq hclose)
    next =>
      refine ((helements depth _).bind ?_).mono (skipBlanks_suffix rest)
      intro items rest
      exact accountable_ok _ (List.suffix_refl rest)
  next rest depth hbrace =>
    refine Accountable.mono ?_ (suffix_of_skipBlanks_eq hbrace)
    split
    next more hclose => exact accountable_ok _ (suffix_of_skipBlanks_eq hclose)
    next =>
      refine ((hmembers depth _).bind ?_).mono (skipBlanks_suffix rest)
      intro members rest
      exact accountable_ok _ (List.suffix_refl rest)
  next => exact (accountable_readScalar _).mono (skipBlanks_suffix s)

/-- What follows an item: there are more of them, or it was the last one. -/
theorem accountable_items {closing : Char} {a : α}
    {again : Symbols → Except Fault (List α × Symbols)}
    (hagain : ∀ s, Accountable s (again s)) (s : Symbols) :
    Accountable s (do
      let (more, rest) ← readSeparator closing s
      if more then
        let (items, rest) ← again rest
        return (a :: items, rest)
      else return ([a], rest)) := by
  refine (accountable_readSeparator closing s).bind ?_
  intro more rest
  cases more with
  | false => exact accountable_ok _ (List.suffix_refl rest)
  | true =>
    refine (hagain rest).bind ?_
    intro items rest
    exact accountable_ok _ (List.suffix_refl rest)

end Steps

theorem accountable_reader (fuel depth : ℕ) (s : Symbols) :
    Accountable s (readValue fuel depth s) ∧
    Accountable s (readElements fuel depth s) ∧
    Accountable s (readMembers fuel depth s) := by
  induction fuel generalizing depth s with
  | zero =>
    rw [readValue, readElements, readMembers]
    exact ⟨accountable_refused, accountable_refused, accountable_refused⟩
  | succ fuel ih =>
    refine ⟨?_, ?_, ?_⟩
    · exact accountable_readValue_succ (fun depth s => (ih depth s).2.1)
        (fun depth s => (ih depth s).2.2) s
    · rw [readElements]
      refine (ih depth s).1.bind ?_
      intro item rest
      exact accountable_items (fun s => (ih depth s).2.1) rest
    · rw [readMembers]
      refine (accountable_readKey s).bind ?_
      intro key rest
      refine (ih depth rest).1.bind ?_
      intro v rest
      exact accountable_items (fun s => (ih depth s).2.2) rest

theorem reason_of_readDocument {depth : ℕ} {f : Failure}
    (h : readDocument depth s = .error (.thrown f)) :
    f = .tooDeep ∨ f = .malformedText ∧ none ∈ s := by
  rcases eq_error_or_of_bind h with hvalue | ⟨read, -, hrest⟩
  · exact (accountable_reader _ depth s).1.thrown f hvalue
  · dsimp only at hrest
    split at hrest
    · cases hrest
    · cases hrest

/-! ## Brackets and bodies of strings -/

/-- One bracket more than there is room for. -/
theorem readValue_of_brackets {fuel depth : ℕ}
    (hfuel : 2 * depth < fuel) (rest : Symbols) :
    readValue fuel depth (List.replicate (depth + 1) (some '[') ++ rest) =
      .error (.thrown .tooDeep) := by
  induction depth generalizing fuel with
  | zero =>
    obtain ⟨fuel, rfl, -⟩ := exists_fuel hfuel
    rfl
  | succ depth ih =>
    obtain ⟨fuel, rfl⟩ : ∃ n, fuel = n + 2 := ⟨fuel - 2, by omega⟩
    have hread : readValue fuel depth
        (List.replicate (depth + 1) (some '[') ++ rest) =
        .error (.thrown .tooDeep) := ih (by omega)
    have helements : readElements (fuel + 1) depth
        (List.replicate (depth + 1) (some '[') ++ rest) =
            .error (.thrown .tooDeep) := by
      rw [readElements, hread]
      rfl
    change (readElements (fuel + 1) depth
      (List.replicate (depth + 1) (some '[') ++ rest) >>= _) =
      _
    rw [helements]
    rfl

/-- Symbols that may stand inside of a string as they are. -/
def IsPlainBody (body : Symbols) : Prop :=
  ∀ c, some c ∈ body → c ≠ '"' ∧ c ≠ '\\' ∧ 0x20 ≤ c.toNat

theorem takeParts?_plain {body : Symbols}
    (h : IsPlainBody body) (rest : Symbols) :
    takeParts? (body ++ some '"' :: rest) = some (body.map .symbol, rest) := by
  induction body with
  | nil => rfl
  | cons symbol body ih =>
    have hbody := ih fun c hc => h c (List.mem_cons_of_mem _ hc)
    cases symbol with
    | none =>
      rw [List.cons_append, takeParts?, hbody]
      rfl
    | some c =>
      rw [List.cons_append, takeParts?_self (h c List.mem_cons_self), hbody]
      rfl

theorem joinParts?_symbols (body : Symbols) :
    joinParts? (body.map .symbol) = some body := by
  induction body with
  | nil => rfl
  | cons symbol body ih =>
    rw [List.map_cons, joinParts?, ih]
    rfl

theorem readString_plain {body : Symbols}
    (h : IsPlainBody body) (hgap : none ∈ body) (rest : Symbols) :
    readString (body ++ some '"' :: rest) =
      .error (.thrown .malformedText) := by
  rw [readString, takeParts?_plain h]
  dsimp only [expect, bind, Except.bind]
  rw [joinParts?_symbols]
  dsimp only [expect]
  rw [Text.Utf8.mapM_id_eq_none_iff.mpr hgap]
  rfl

theorem isPlainBody_symbols {bs : Bytes} (h : IsBody bs) :
    IsPlainBody (Text.Utf8.symbols bs) := by
  intro c hc
  by_cases hone : c.toNat < 0x80
  · obtain ⟨hlow, hquote, hslash⟩ :=
      h _ (Text.Utf8.mem_of_mem_symbolsAfter hone hc)
    refine ⟨?_, ?_, ?_⟩
    · rintro rfl
      exact hquote rfl
    · rintro rfl
      exact hslash rfl
    · have hprinted := UInt8.le_iff_toNat_le.mp hlow
      rw [Text.Utf8.toNat_ofNat (Nat.lt_trans hone (by decide))] at hprinted
      exact hprinted
  · refine ⟨?_, ?_, Nat.le_trans (by decide) (Nat.not_lt.mp hone)⟩
    · rintro rfl
      exact hone (by decide)
    · rintro rfl
      exact hone (by decide)

/-! ## The law -/

theorem readDocument_of_brackets {s : String} {room : ℕ}
    (h : List.replicate (room + 1) '[' <+: s.toList) :
    readDocument room (symbols s) = .error (.thrown .tooDeep) := by
  obtain ⟨rest, hrest⟩ := h
  have hsymbols : symbols s =
      List.replicate (room + 1) (some '[') ++ rest.map some := by
    rw [symbols, ← hrest, List.map_append, List.map_replicate]
  have hfuel : 2 * room < 2 * (symbols s).length + 2 := by
    rw [hsymbols, List.length_append, List.length_replicate]
    omega
  have hread : readValue (2 * (symbols s).length + 2) room (symbols s) =
      .error (.thrown .tooDeep) := by
    rw [hsymbols] at hfuel ⊢
    exact readValue_of_brackets hfuel _
  rw [readDocument]
  change (readValue (2 * (symbols s).length + 2) room (symbols s) >>= _) = _
  rw [hread]
  rfl

theorem readDocument_of_plain {body : Symbols}
    (h : IsPlainBody body) (hgap : none ∈ body)
    (depth : ℕ) (rest : Symbols) :
    readDocument depth (some '"' :: (body ++ some '"' :: rest)) =
      .error (.thrown .malformedText) := by
  change ((readString (body ++ some '"' :: rest) >>= _) >>= _) = _
  rw [readString_plain h hgap]
  rfl

theorem symbols_of_half {codes : List ℕ} (h : ∃ n ∈ codes, ¬n.isValidChar) :
    (Payload.text codes).symbols = .error (.thrown .loneHalf) := by
  obtain ⟨n, hn, hhalf⟩ := h
  have hnone : none ∈ codes.map character? :=
    List.mem_map.mpr ⟨n, hn, by rw [character?, dif_neg hhalf]⟩
  have hcharacters : codes.mapM character? = none := by
    rw [← Text.Utf8.mapM_id_eq_none_iff, List.mapM_map] at hnone
    exact hnone
  rw [Payload.symbols, hcharacters]

theorem standard_throws (room : ℕ) :
    (Engine.standard (some room)).Throws room where
  text := standard_readsText (some room)
  half codes hhalf := by
    change read (some room) (.text codes) = _
    rw [read, symbols_of_half hhalf]
    rfl
  string bs more hbody hbytes := by
    have hgap := Text.Utf8.mapM_id_eq_none_iff.mp hbytes
    have hquote : (0x22 : UInt8) < 0x80 := by decide
    have hsymbols : Text.Utf8.symbols (0x22 :: bs ++ 0x22 :: more) =
        some '"' ::
          (Text.Utf8.symbols bs ++ some '"' :: Text.Utf8.symbols more) := by
      have hopen := Text.Utf8.symbols_append_cons hquote [] (bs ++ 0x22 :: more)
      rw [Text.Utf8.symbols_append_cons hquote bs more] at hopen
      exact hopen
    change readDocument room
      (Text.Utf8.symbols (0x22 :: bs ++ 0x22 :: more)) = _
    rw [hsymbols]
    exact readDocument_of_plain (isPlainBody_symbols hbody) hgap room _
  brackets s hopen := by
    change read (some room) (.ofString s) = _
    rw [read, symbols_ofString]
    exact readDocument_of_brackets hopen
  only bs f hread := by
    have hreason : f = .tooDeep ∨ f = .malformedText ∧
        none ∈ Text.Utf8.symbols bs :=
      reason_of_readDocument hread
    exact hreason.imp_right (And.imp_right Text.Utf8.mapM_id_eq_none_iff.mpr)

end QueryJournal.Json

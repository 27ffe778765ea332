import QueryJournal.Proofs.Render.Truncation

/-!
# What a budget counts

A budget counts down from its limit to zero and stays there.  One number tells
both how much remains and whether there is a limit at all, where -1 stands for
none; so it must never be counted down to -1.  This module follows that number
through every sequence of chunks.  What is kept and what remains make up the
limit at any time, apart from the ellipsis after the one chunk that was cut.
-/

namespace QueryJournal.Budget

variable {b c : Budget} {chunk : String} {chunks : List String} {n i j : Nat}

/-! ## One chunk -/

/-- What adding a chunk to a budget can make of it. -/
inductive Appends (b : Budget) (chunk : String) : Budget → Prop where
  /-- An empty chunk adds nothing, and neither does one for which nothing
  remains. -/
  | ignored (h : chunk = "" ∨ b.remaining = some 0) : Appends b chunk b
  /-- Without a limit the chunk is kept and not counted. -/
  | kept (hchunk : chunk ≠ "") (h : b.remaining = none) :
      Appends b chunk { b with chunks := b.chunks ++ [chunk] }
  /-- A chunk that fits is kept and counted. -/
  | counted {n : Nat} (hchunk : chunk ≠ "") (h : b.remaining = some n)
      (hfits : chunk.length ≤ n) :
      Appends b chunk
        { b with
          remaining := some (n - chunk.length)
          chunks := b.chunks ++ [chunk] }
  /-- A chunk that does not fit is cut, and nothing remains. -/
  | cut {n : Nat} (hn : n ≠ 0) (h : b.remaining = some n)
      (hlong : n < chunk.length) :
      Appends b chunk ⟨some 0, b.chunks ++ [Text.take n chunk, ellipsis], true⟩

theorem appends_append (b : Budget) (chunk : String) :
    Appends b chunk (b.append chunk) := by
  by_cases hchunk : chunk = ""
  · rw [hchunk, append_empty]
    exact .ignored (.inl rfl)
  · cases h : b.remaining with
    | none =>
      have hkept :
          b.append chunk = { b with chunks := b.chunks ++ [chunk] } := by
        simp [append, hchunk, h]
      rw [hkept]
      exact .kept hchunk h
    | some n =>
      by_cases hn : n = 0
      · subst hn
        rw [append_of_exhausted h]
        exact .ignored (.inr h)
      · by_cases hfits : chunk.length ≤ n
        · rw [append_of_length_le h hchunk hfits]
          exact .counted hchunk h hfits
        · rw [append_of_lt_length h hn (Nat.lt_of_not_le hfits)]
          exact .cut hn h (Nat.lt_of_not_le hfits)

/-- Whether a chunk is cut by a budget: something remains, but not enough. -/
def Cuts (b : Budget) (chunk : String) : Prop :=
  0 < b.remainingLimit ∧ b.remainingLimit < chunk.length

theorem remainingLimit_of_some (h : b.remaining = some n) :
    b.remainingLimit = n := by
  rw [remainingLimit, h]

theorem remainingLimit_of_none
    (h : b.remaining = none) : b.remainingLimit = -1 := by
  rw [remainingLimit, h]

/-- A number above zero is counted down by the length of the chunk, at most to
zero.  Zero and -1 stay. -/
theorem Appends.remainingLimit_eq (h : Appends b chunk c) :
    c.remainingLimit =
      if 0 < b.remainingLimit then max 0 (b.remainingLimit - chunk.length)
      else b.remainingLimit := by
  cases h with
  | ignored h =>
    rcases h with rfl | h
    · split
      · rw [String.length_empty]
        omega
      · rfl
    · rw [remainingLimit_of_some h]
      rfl
  | kept _ h =>
    have hnone : ¬0 < b.remainingLimit := by
      rw [remainingLimit_of_none h]
      decide
    rw [if_neg hnone]
    rfl
  | counted hchunk h hfits =>
    have hpos := Text.length_pos_of_ne_empty hchunk
    rw [remainingLimit_of_some h, remainingLimit_of_some rfl, if_pos (by omega)]
    omega
  | cut hn h hlong =>
    rw [remainingLimit_of_some h, remainingLimit_of_some rfl, if_pos (by omega)]
    omega

theorem Appends.truncated_iff (h : Appends b chunk c) :
    c.truncated = true ↔ b.truncated = true ∨ b.Cuts chunk := by
  have hkept (h : ¬b.Cuts chunk) : b.truncated = true ↔ b.truncated = true ∨
      b.Cuts chunk :=
    (or_iff_left h).symm
  cases h with
  | ignored h =>
    apply hkept
    rintro ⟨hpos, hlt⟩
    rcases h with rfl | h
    · rw [String.length_empty] at hlt
      omega
    · rw [remainingLimit_of_some h] at hpos
      omega
  | kept _ h =>
    apply hkept
    rintro ⟨hpos, -⟩
    rw [remainingLimit_of_none h] at hpos
    omega
  | counted _ h hfits =>
    apply hkept
    rintro ⟨-, hlt⟩
    rw [remainingLimit_of_some h] at hlt
    omega
  | cut hn h hlong =>
    refine iff_of_true rfl (.inr ?_)
    rw [Cuts, remainingLimit_of_some h]
    omega

/-- A budget that keeps no empty chunk, and for which nothing remains behind the
ellipsis. -/
structure IsTidy (b : Budget) : Prop where
  ne_empty : ∀ chunk ∈ b.chunks, chunk ≠ ""
  cut : b.truncated = true →
    b.remaining = some 0 ∧ b.chunks.getLast? = some ellipsis

theorem isTidy_of_empty (hempty : b.chunks = [])
    (hwhole : b.truncated = false) : b.IsTidy := by
  constructor
  · rw [hempty]
    exact List.forall_mem_nil _
  · rw [hwhole]
    nofun

/-- Where something remains, nothing was cut. -/
theorem IsTidy.truncated_eq_false (h : b.IsTidy)
    (hopen : b.remaining ≠ some 0) :
    b.truncated = false := by
  rw [Bool.eq_false_iff]
  intro hcut
  exact hopen (h.cut hcut).1

theorem Appends.isTidy (h : Appends b chunk c) (hb : b.IsTidy) : c.IsTidy := by
  have hmore {added : List String} (hadded : ∀ s ∈ added, s ≠ "") :
      ∀ s ∈ b.chunks ++ added, s ≠ "" := by
    intro s hs
    rcases List.mem_append.mp hs with hs | hs
    · exact hb.ne_empty s hs
    · exact hadded s hs
  have hopen {m : Nat} (h : b.remaining = some m)
      (hm : m ≠ 0) : b.remaining ≠ some 0 := by
    rw [h]
    exact fun hzero => hm (Option.some.inj hzero)
  cases h with
  | ignored _ => exact hb
  | kept hchunk h =>
    refine ⟨hmore (List.forall_mem_singleton.mpr hchunk), ?_⟩
    rw [hb.truncated_eq_false (by rw [h]; nofun)]
    nofun
  | @counted m hchunk h hfits =>
    have hpos := Text.length_pos_of_ne_empty hchunk
    refine ⟨hmore (List.forall_mem_singleton.mpr hchunk), ?_⟩
    rw [hb.truncated_eq_false (hopen h (by omega))]
    nofun
  | @cut m hm h hlong =>
    refine ⟨hmore ?_, fun _ => ⟨rfl, by simp⟩⟩
    intro s hs
    rcases List.mem_cons.mp hs with rfl | hs
    · intro hempty
      have hlength := Text.length_take_of_le (Nat.le_of_lt hlong)
      rw [hempty, String.length_empty] at hlength
      exact hm hlength.symm
    · rw [List.mem_singleton.mp hs]
      decide

/-- What is kept and what remains make up a limit, apart from the ellipsis after
a chunk that was cut. -/
structure Balances (b : Budget) (n : Nat) : Prop where
  tidy : b.IsTidy
  limited : 0 ≤ b.remainingLimit
  sum : b.text.length + b.remainingLimit = n + if b.truncated then 3 else 0

theorem balances_ofNat (n : Nat) : (ofNat n).Balances n :=
  ⟨isTidy_of_empty rfl rfl, Int.natCast_nonneg n, Int.add_comm 0 (n : Int)⟩

theorem Appends.balances (h : Appends b chunk c) (hb : b.Balances n) :
    c.Balances n := by
  have htidy := h.isTidy hb.tidy
  obtain ⟨hbefore, hlimited, hsum⟩ := hb
  have htext (added : List String) :
      (String.join (b.chunks ++ added)).length = b.text.length +
      (String.join added).length := by
    rw [text, String.join_append, String.length_append]
  cases h with
  | ignored _ => exact ⟨htidy, hlimited, hsum⟩
  | kept _ h =>
    rw [remainingLimit_of_none h] at hlimited
    omega
  | @counted m hchunk h hfits =>
    rw [remainingLimit_of_some h] at hsum
    have hsingle : (String.join [chunk]).length = chunk.length := by
      rw [String.join_cons, String.join_nil, String.append_empty]
    refine ⟨htidy, Int.natCast_nonneg _, ?_⟩
    rw [remainingLimit_of_some rfl, text, htext, hsingle]
    dsimp only
    omega
  | @cut m hm h hlong =>
    have hwhole : b.truncated = false :=
      hbefore.truncated_eq_false (by rw [h]; simpa using hm)
    rw [remainingLimit_of_some h, hwhole, if_neg Bool.false_ne_true] at hsum
    refine ⟨htidy, Int.le_refl 0, ?_⟩
    -- The kept part is as long as what remained, and the ellipsis comes on top
    -- of it.
    have hpieces :
        (String.join [Text.take m chunk, ellipsis]).length = m + 3 := by
      rw [String.join_cons, String.length_append,
        Text.length_take_of_le (Nat.le_of_lt hlong)]
      rfl
    rw [remainingLimit_of_some rfl, text, htext, hpieces, if_pos rfl]
    omega

/-! ## Many chunks -/

/-- What no single chunk can change is not changed by many chunks. -/
theorem appendAll_induction
    {P : Budget → Prop} (hstep : ∀ {b chunk c}, Appends b chunk c → P b → P c)
    (hb : P b) (chunks : List String) : P (b.appendAll chunks) := by
  induction chunks generalizing b with
  | nil => exact hb
  | cons chunk chunks ih => exact ih (hstep (b.appends_append chunk) hb)

theorem Balances.appendAll (hb : b.Balances n) (chunks : List String) :
    (b.appendAll chunks).Balances n :=
  appendAll_induction Appends.balances hb chunks

/-- Each chunk is counted, down to zero at most. -/
theorem remainingLimit_appendAll (h : 0 ≤ b.remainingLimit)
    (chunks : List String) :
    (b.appendAll chunks).remainingLimit =
      max 0 (b.remainingLimit - (String.join chunks).length) := by
  induction chunks generalizing b with
  | nil =>
    rw [appendAll_nil, String.join_nil, String.length_empty]
    omega
  | cons chunk chunks ih =>
    have hstep := (b.appends_append chunk).remainingLimit_eq
    have hnext : 0 ≤ (b.append chunk).remainingLimit := by
      rw [hstep]
      split
      · exact Int.le_max_left _ _
      · exact h
    rw [appendAll_cons, ih hnext, hstep, String.join_cons, String.length_append]
    split
    · omega
    · omega

theorem isExhausted_iff (b : Budget) :
    b.isExhausted = true ↔ b.remaining = some 0 := by
  rw [isExhausted, beq_iff_eq]

theorem isUnlimited_iff (b : Budget) :
    b.isUnlimited = true ↔ b.remaining = none := by
  rw [isUnlimited, beq_iff_eq]

/-- Whether the chunk at a place among some chunks is cut by a budget that those
before it were added to. -/
def CutsAt (b : Budget) (chunks : List String) (i : Nat) : Prop :=
  ∃ chunk, chunks[i]? = some chunk ∧ (b.appendAll (chunks.take i)).Cuts chunk

theorem cutsAt_zero_iff : b.CutsAt (chunk :: chunks) 0 ↔ b.Cuts chunk := by
  simp [CutsAt]

theorem cutsAt_succ_iff :
    b.CutsAt (chunk :: chunks) (i + 1) ↔ (b.append chunk).CutsAt chunks i := by
  simp [CutsAt]

/-- Something was cut after some chunks if it was before, or if one of them is
cut. -/
theorem truncated_appendAll_iff :
    (b.appendAll chunks).truncated = true ↔
      b.truncated = true ∨ ∃ i, b.CutsAt chunks i := by
  induction chunks generalizing b with
  | nil => simp [CutsAt]
  | cons chunk chunks ih =>
    have hplaces : (∃ i, b.CutsAt (chunk :: chunks) i) ↔
        b.Cuts chunk ∨ ∃ i, (b.append chunk).CutsAt chunks i := by
      constructor
      · rintro ⟨i, hi⟩
        cases i with
        | zero => exact .inl (cutsAt_zero_iff.mp hi)
        | succ i => exact .inr ⟨i, cutsAt_succ_iff.mp hi⟩
      · rintro (hfirst | ⟨i, hi⟩)
        · exact ⟨0, cutsAt_zero_iff.mpr hfirst⟩
        · exact ⟨i + 1, cutsAt_succ_iff.mpr hi⟩
    rw [appendAll_cons, ih, (b.appends_append chunk).truncated_iff,
      or_assoc, hplaces]

/-- Nothing remains for the chunks after one that is cut. -/
theorem Cuts.not_cutsAt_append (h : b.Cuts chunk) :
    ¬(b.append chunk).CutsAt chunks i := by
  obtain ⟨hpos, hlt⟩ := h
  have hzero : (b.append chunk).remainingLimit = 0 := by
    rw [(b.appends_append chunk).remainingLimit_eq, if_pos hpos]
    omega
  rintro ⟨later, -, hlater, -⟩
  rw [remainingLimit_appendAll (Int.le_of_eq hzero.symm), hzero] at hlater
  omega

theorem not_cutsAt_of_unlimited (h : b.remaining = none) :
    ¬b.CutsAt chunks i := by
  rintro ⟨chunk, -, hpos, -⟩
  rw [remainingLimit_of_none (remaining_appendAll_of_unlimited h _)] at hpos
  omega

/-- At most one chunk is cut. -/
theorem CutsAt.unique (hi : b.CutsAt chunks i)
    (hj : b.CutsAt chunks j) : i = j := by
  induction chunks generalizing b i j with
  | nil =>
    obtain ⟨chunk, hchunk, -⟩ := hi
    cases hchunk
  | cons chunk chunks ih =>
    cases i with
    | zero =>
      cases j with
      | zero => rfl
      | succ j =>
        exact absurd (cutsAt_succ_iff.mp hj)
          (cutsAt_zero_iff.mp hi).not_cutsAt_append
    | succ i =>
      cases j with
      | zero =>
        exact absurd (cutsAt_succ_iff.mp hi)
          (cutsAt_zero_iff.mp hj).not_cutsAt_append
      | succ j =>
        exact congrArg (· + 1)
          (ih (cutsAt_succ_iff.mp hi) (cutsAt_succ_iff.mp hj))

theorem Balances.length_text (hb : b.Balances n) :
    b.text.length =
      if b.truncated then n + 3 else n - b.remainingLimit.toNat := by
  obtain ⟨htidy, hlimited, hsum⟩ := hb
  split at hsum
  next hcut =>
    rw [remainingLimit_of_some (htidy.cut hcut).1] at hsum
    rw [if_pos hcut]
    omega
  next hwhole =>
    rw [if_neg hwhole]
    omega

theorem remaining_eq_some_zero_iff :
    b.remaining = some 0 ↔ b.remainingLimit = 0 := by
  cases h : b.remaining with
  | none => simp [remainingLimit_of_none h]
  | some n => simp [remainingLimit_of_some h]

/-! ## From the limit on -/

theorem ofLimit_of_lt {limit : Int} (h : limit < -1) :
    ofLimit limit = .error (.invalidBudget limit) := by
  rw [ofLimit, if_neg (by omega), if_neg (by omega)]

theorem exists_ofLimit {limit : Int} (h : -1 ≤ limit) :
    ∃ start, ofLimit limit = .ok start ∧ start.chunks = [] ∧
      start.truncated = false := by
  unfold ofLimit
  split
  next => exact ⟨_, rfl, rfl, rfl⟩
  next hneg =>
    rw [if_pos (by omega)]
    exact ⟨_, rfl, rfl, rfl⟩

/-- A budget counts exactly.  With a limit of `n` characters, what remains is
`n` less the length of the chunks, or nothing if they are longer; at most one
chunk is cut, and then the text is longer than the limit by the ellipsis.  Once
the chunks are as long as the limit nothing changes the budget any more. -/
theorem counting_is_exact (chunks : List String) :
    let total := (String.join chunks).length
    (∀ limit, ((∃ b, ofLimit limit = .ok b) ↔ -1 ≤ limit) ∧
      (ofLimit limit = .error (.invalidBudget limit) ↔ limit < -1)) ∧
    (∃ start, ofLimit (-1) = .ok start ∧
      let b := start.appendAll chunks
      b.remainingLimit = -1 ∧ b.isUnlimited = true ∧ b.truncated = false ∧
        b.isExhausted = false) ∧
    ∀ n : Nat, ∃ start, ofLimit n = .ok start ∧
      let b := start.appendAll chunks
      b.remainingLimit = max 0 (n - total : Int) ∧
      0 ≤ b.remainingLimit ∧ b.remainingLimit ≤ n ∧ b.isUnlimited = false ∧
      (∀ more, (b.appendAll more).remainingLimit ≤ b.remainingLimit) ∧
      (b.truncated = true ↔ ∃ i, start.CutsAt chunks i) ∧
      (∀ i j, start.CutsAt chunks i → start.CutsAt chunks j → i = j) ∧
      b.text.length = (if b.truncated then n + 3 else min n total) ∧
      (b.isExhausted = true ↔ n ≤ total) ∧
      (b.isExhausted = true → ∀ more, b.appendAll more = b) := by
  intro total
  refine ⟨?_, ⟨unlimited, rfl, ?_⟩, ?_⟩
  · intro limit
    by_cases h : limit < -1
    · rw [ofLimit_of_lt h]
      exact ⟨iff_of_false nofun (by omega), iff_of_true rfl h⟩
    · obtain ⟨start, hstart, -⟩ := exists_ofLimit (Int.not_lt.mp h)
      rw [hstart]
      exact ⟨iff_of_true ⟨start, rfl⟩ (Int.not_lt.mp h), iff_of_false nofun h⟩
  · intro b
    have hnone : b.remaining = none :=
      remaining_appendAll_of_unlimited rfl chunks
    refine ⟨remainingLimit_of_none hnone, (isUnlimited_iff b).mpr hnone, ?_, ?_⟩
    · rw [Bool.eq_false_iff]
      intro hcut
      rcases truncated_appendAll_iff.mp hcut with hbefore | ⟨i, hi⟩
      · cases hbefore
      · exact not_cutsAt_of_unlimited rfl hi
    · rw [Bool.eq_false_iff, ne_eq, isExhausted_iff, hnone]
      nofun
  · intro n
    refine ⟨ofNat n, ofLimit_natCast n, ?_⟩
    intro b
    have hbalances : b.Balances n := (balances_ofNat n).appendAll chunks
    have hremaining : b.remainingLimit = max 0 (n - total : Int) :=
      remainingLimit_appendAll (b := ofNat n) (Int.natCast_nonneg n) chunks
    have hexhausted : b.isExhausted = true ↔ n ≤ total := by
      rw [isExhausted_iff, remaining_eq_some_zero_iff, hremaining]
      omega
    refine ⟨hremaining,
      hbalances.limited, by omega, ?_, ?_, ?_, fun i j => CutsAt.unique, ?_,
      hexhausted, ?_⟩
    · rw [Bool.eq_false_iff, ne_eq, isUnlimited_iff]
      intro hnone
      have hlimited := hbalances.limited
      rw [remainingLimit_of_none hnone] at hlimited
      omega
    · intro more
      rw [remainingLimit_appendAll hbalances.limited]
      omega
    · exact truncated_appendAll_iff.trans (or_iff_right Bool.false_ne_true)
    · rw [hbalances.length_text, hremaining]
      split
      · rfl
      · omega
    · intro h more
      exact appendAll_of_exhausted ((isExhausted_iff b).mp h) more

/-- Chunks that take all that remains are not cut, and the ones after them are
dropped. -/
example : (ofNat 4).appendAll ["ab", "", "cd", "e"] =
      ⟨some 0, ["ab", "cd"], false⟩ := by
  decide

end QueryJournal.Budget

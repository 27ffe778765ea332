import QueryJournal.Json.Standard
import QueryJournal.Proofs.Json.Laws
import QueryJournal.Proofs.Json.Standard.Strings

/-!
# The standard engine reads documents

The engine that is written out reads every document from its text.  There is one
exception: an integer that is too long with its sign makes it refuse the whole
text.

The induction is on the document, with what follows its text left open.  The
fuel of the reader is measured by the length of the text.
-/

namespace QueryJournal.Json

/-! ## Where a value starts -/

/-- There is a symbol, and it is neither a blank nor a closing bracket. -/
def Starts (s : Symbols) : Prop :=
  ∃ c more, s = some c :: more ∧ isBlank c = false ∧ c ≠ ']' ∧ c ≠ '\x7d'

theorem Starts.append {s : Symbols} (h : Starts s) (rest : Symbols) :
    Starts (s ++ rest) := by
  obtain ⟨c, more, rfl, hc⟩ := h
  exact ⟨c, more ++ rest, rfl, hc⟩

theorem Starts.skipBlanks_eq {s : Symbols} (h : Starts s) :
    skipBlanks s = s := by
  obtain ⟨c, more, rfl, hc, -⟩ := h
  rw [skipBlanks, if_neg (by simp [hc])]

theorem starts_quoted (ps : List Piece) :
    Starts (symbols (Piece.quoted ps)) := by
  rw [symbols_quoted]
  exact ⟨'"', _, rfl, by decide, by decide, by decide⟩

/-- The text of an integer starts with its sign or a digit. -/
theorem exists_symbols_text (n : ℤ) :
    ∃ c more, symbols (Number.text n) = some c :: more ∧
      ∀ d, d ≠ '-' → d.isDigit = false → c ≠ d := by
  cases n with
  | ofNat n =>
    obtain ⟨c, cs, hds, hc⟩ := Number.exists_digits_eq_cons n
    refine ⟨c, cs.map some, ?_, ?_⟩
    · rw [symbols, Number.text, String.toList_ofList, hds]
      rfl
    · rintro d - hd rfl
      rw [hc] at hd
      cases hd
  | negSucc n =>
    refine ⟨'-', (Number.digits (n + 1)).map some, ?_, ?_⟩
    · rw [symbols, Number.text, String.toList_ofList]
      rfl
    · rintro d hd - rfl
      exact hd rfl

theorem starts_text (n : ℤ) : Starts (symbols (Number.text n)) := by
  obtain ⟨c, more, htext, hne⟩ := exists_symbols_text n
  refine ⟨c, more, htext, ?_, hne ']' (by decide) (by decide),
    hne '\x7d' (by decide) (by decide)⟩
  rw [isBlank]
  simp only [Bool.or_eq_false_iff, beq_eq_false_iff_ne]
  exact ⟨⟨⟨hne ' ' (by decide) (by decide), hne '\t' (by decide) (by decide)⟩,
    hne '\n' (by decide) (by decide)⟩, hne '\r' (by decide) (by decide)⟩

/-- The text of a member of an object. -/
def member (m : String × String) : String :=
  m.1 ++ ":" ++ m.2

theorem symbols_array (items : List String) :
    symbols (array items) =
      some '[' :: (symbols (",".intercalate items) ++ [some ']']) := by
  simp [symbols, array]

theorem symbols_object (members : List (String × String)) :
    symbols (object members) =
      some '\x7b' ::
        (symbols (",".intercalate (members.map member)) ++ [some '\x7d']) := by
  have hmembers : (members.map fun m => m.1 ++ ":" ++ m.2) =
      members.map member := rfl
  simp [symbols, object, hmembers]

theorem starts_written {d : Document}
    (h : d.allLeaves Document.isExact = true) :
    Starts (symbols d.written) := by
  cases d with
  | null =>
    rw [Document.written]
    exact ⟨'n', _, rfl, by decide, by decide, by decide⟩
  | truth b =>
    rw [Document.written]
    cases b with
    | true => exact ⟨'t', _, rfl, by decide, by decide, by decide⟩
    | false => exact ⟨'f', _, rfl, by decide, by decide, by decide⟩
  | int n =>
    rw [Document.written]
    exact starts_text n
  | real x spelled => cases h
  | text ps =>
    rw [Document.written]
    exact starts_quoted ps
  | list ds =>
    rw [Document.written, symbols_array]
    exact ⟨'[', _, rfl, by decide, by decide, by decide⟩
  | object members =>
    rw [Document.written, symbols_object]
    exact ⟨'\x7b', _, rfl, by decide, by decide, by decide⟩

theorem symbols_intercalate_cons_cons (item next : String)
    (items : List String) :
    symbols (",".intercalate (item :: next :: items)) =
      symbols item ++ some ',' ::
        symbols (",".intercalate (next :: items)) := by
  rw [String.intercalate_cons_cons, symbols_append, symbols_append,
    List.append_assoc]
  rfl

theorem starts_intercalate_cons {item : String}
    (h : Starts (symbols item)) (items : List String) :
    Starts (symbols (",".intercalate (item :: items))) := by
  cases items with
  | nil =>
    rw [String.intercalate_singleton]
    exact h
  | cons next items =>
    rw [symbols_intercalate_cons_cons]
    exact h.append _

theorem length_array (items : List String) :
    (array items).length = (",".intercalate items).length + 2 := by
  rw [array, String.length_append, String.length_append,
    show "[".length = 1 from rfl, show "]".length = 1 from rfl]
  omega

theorem length_object (members : List (String × String)) :
    (object members).length =
      (",".intercalate (members.map member)).length + 2 := by
  rw [object, String.length_append, String.length_append,
    show "\x7b".length = 1 from rfl, show "\x7d".length = 1 from rfl]
  change _ + (",".intercalate (members.map member)).length + _ = _
  omega

/-! ## Reading a value -/

/-- What reading the text of a document gives. -/
def reading (d : Document) (rest : Symbols) : Except Fault (Value × Symbols) :=
  if d.isReadable then .ok (d.value, rest) else .error .refused

/-- What reading the texts of some documents gives. -/
def readingAll (ds : List Document) (rest : Symbols) :
    Except Fault (List Value × Symbols) :=
  if Document.allLeavesOf Document.isShort ds then
    .ok (Document.valuesOf ds, rest)
  else .error .refused

/-- What reading the texts of some members gives. -/
def readingMembers
    (members : List (List Piece × Document)) (rest : Symbols) :
    Except Fault (List (String × Value) × Symbols) :=
  if Document.allLeavesIn Document.isShort members then
    .ok (Document.valuesIn members, rest)
  else .error .refused

theorem readValue_of_quoted (fuel depth : ℕ) (ps : List Piece)
    (rest : Symbols) :
    readValue (fuel + 1) depth (symbols (Piece.quoted ps) ++ rest) =
      .ok (.text (Piece.meaning ps), rest) := by
  have hskip : skipBlanks (symbols (Piece.quoted ps) ++ rest) =
      some '"' ::
        ((ps.flatMap Piece.spelled).map some ++ some '"' :: rest) := by
    rw [((starts_quoted ps).append rest).skipBlanks_eq, symbols_quoted,
      List.cons_append, List.append_assoc]
    rfl
  have hread : readValue (fuel + 1) depth (symbols (Piece.quoted ps) ++ rest) =
      readString ((ps.flatMap Piece.spelled).map some ++ some '"' :: rest) >>=
        fun read => pure (.text read.1, read.2) := by
    rw [readValue]
    exact hskip
  rw [hread, readString_spelled]
  rfl

theorem readValue_of_scalar
    {c : Char} {more : Symbols}
    (hstarts : Starts (some c :: more)) (hquote : c ≠ '"')
    (hlist : c ≠ '[') (hobject : c ≠ '\x7b') (fuel depth : ℕ) :
    readValue (fuel + 1) depth (some c :: more) =
      readScalar (some c :: more) := by
  unfold readValue
  rw [hstarts.skipBlanks_eq]
  split
  next heq =>
    cases heq
    exact absurd rfl hquote
  next heq =>
    cases heq
    exact absurd rfl hlist
  next heq =>
    cases heq
    exact absurd rfl hobject
  next heq =>
    cases heq
    exact absurd rfl hlist
  next heq =>
    cases heq
    exact absurd rfl hobject
  next => rfl

theorem readValue_of_int (fuel depth : ℕ) (n : ℤ) {rest : Symbols}
    (h : EndsNumber rest) :
    readValue (fuel + 1) depth (symbols (Number.text n) ++ rest) =
      reading (.int n) rest := by
  have hstarts := (starts_text n).append rest
  have hread : readValue (fuel + 1) depth (symbols (Number.text n) ++ rest) =
      readScalar (symbols (Number.text n) ++ rest) := by
    obtain ⟨c, more, htext, hne⟩ := exists_symbols_text n
    rw [htext, List.cons_append] at hstarts ⊢
    exact readValue_of_scalar hstarts (hne '"' (by decide) (by decide))
      (hne '[' (by decide) (by decide))
        (hne '\x7b' (by decide) (by decide)) fuel depth
  rw [hread, readScalar_text n h]
  rfl

/-- A word is read where it starts with a letter of its own. -/
theorem readValue_of_word (fuel depth : ℕ) (rest : Symbols) :
    readValue (fuel + 1) depth (symbols "null" ++ rest) = .ok (.null, rest) ∧
    readValue (fuel + 1) depth (symbols "true" ++ rest) =
      .ok (.truth true, rest) ∧
    readValue (fuel + 1) depth (symbols "false" ++ rest) =
      .ok (.truth false, rest) := by
  have hnull : Starts (symbols "null" ++ rest) :=
    Starts.append ⟨'n', _, rfl, by decide, by decide, by decide⟩ rest
  have htrue : Starts (symbols "true" ++ rest) :=
    Starts.append ⟨'t', _, rfl, by decide, by decide, by decide⟩ rest
  have hfalse : Starts (symbols "false" ++ rest) :=
    Starts.append ⟨'f', _, rfl, by decide, by decide, by decide⟩ rest
  exact ⟨readValue_of_scalar hnull (by decide) (by decide)
    (by decide) fuel depth,
    readValue_of_scalar htrue (by decide) (by decide) (by decide) fuel depth,
    readValue_of_scalar hfalse (by decide) (by decide) (by decide) fuel depth⟩

/-! ## Reading items -/

section Elements

variable {d : Document} {ds : List Document} {fuel depth : ℕ}
  {s more rest : Symbols}

theorem readElements_single
    (h : readValue fuel depth s = reading d (some ']' :: rest)) :
    readElements (fuel + 1) depth s = readingAll [d] rest := by
  rw [readElements, h, reading, Document.isReadable, readingAll,
    Document.allLeavesOf, Document.allLeavesOf, Bool.and_true]
  split
  · rfl
  · rfl

theorem readElements_more
    (hfirst : readValue fuel depth s = reading d (some ',' :: more))
    (hmore : readElements fuel depth more = readingAll ds rest) :
    readElements (fuel + 1) depth s = readingAll (d :: ds) rest := by
  rw [readElements, hfirst, reading, Document.isReadable, readingAll,
    Document.allLeavesOf]
  cases hd : d.allLeaves Document.isShort with
  | false => rfl
  | true =>
    rw [if_pos rfl, Bool.true_and]
    change (readElements fuel depth more >>= _) = _
    rw [hmore, readingAll]
    split
    · rfl
    · rfl

end Elements

theorem readKey_quoted (ps : List Piece) (rest : Symbols) :
    readKey (symbols (Piece.quoted ps) ++ some ':' :: rest) =
      .ok (Piece.meaning ps, rest) := by
  have hskip : skipBlanks (symbols (Piece.quoted ps) ++ some ':' :: rest) =
      some '"' :: ((ps.flatMap Piece.spelled).map some ++ some '"' ::
        some ':' :: rest) := by
    rw [((starts_quoted ps).append _).skipBlanks_eq, symbols_quoted,
      List.cons_append, List.append_assoc]
    rfl
  rw [readKey, hskip]
  change (readString ((ps.flatMap Piece.spelled).map some ++ some '"' ::
      some ':' :: rest) >>=
    _) = _
  rw [readString_spelled]
  rfl

section Members

variable {ps : List Piece} {d : Document}
  {members : List (List Piece × Document)}
variable {fuel depth : ℕ} {s more rest : Symbols}

theorem readMembers_single
    (h : readValue fuel depth s = reading d (some '\x7d' :: rest)) :
    readMembers (fuel + 1) depth (symbols (Piece.quoted ps) ++ some ':' :: s) =
      readingMembers [(ps, d)] rest := by
  rw [readMembers, readKey_quoted]
  change (readValue fuel depth s >>= _) = _
  rw [h, reading, Document.isReadable, readingMembers, Document.allLeavesIn,
    Document.allLeavesIn, Bool.and_true]
  split
  · rfl
  · rfl

theorem readMembers_more
    (hfirst : readValue fuel depth s = reading d (some ',' :: more))
    (hmore : readMembers fuel depth more = readingMembers members rest) :
    readMembers (fuel + 1) depth (symbols (Piece.quoted ps) ++ some ':' :: s) =
      readingMembers ((ps, d) :: members) rest := by
  rw [readMembers, readKey_quoted]
  change (readValue fuel depth s >>= _) = _
  rw [hfirst, reading, Document.isReadable, readingMembers,
    Document.allLeavesIn]
  cases hd : d.allLeaves Document.isShort with
  | false => rfl
  | true =>
    rw [if_pos rfl, Bool.true_and]
    change (readMembers fuel depth more >>= _) = _
    rw [hmore, readingMembers]
    split
    · rfl
    · rfl

end Members

/-! ## Reading containers -/

section Opened

variable {fuel depth : ℕ} {s rest : Symbols}

theorem readValue_of_array
    {ds : List Document} (hstarts : Starts s)
    (h : readElements fuel depth s = readingAll ds rest) :
    readValue (fuel + 1) (depth + 1) (some '[' :: s) =
      reading (.list ds) rest := by
  have hopen : skipBlanks (some '[' :: s) = some '[' :: s := rfl
  have hread : readValue (fuel + 1) (depth + 1) (some '[' :: s) =
      readElements fuel depth s >>= fun read =>
        pure (.list read.1, read.2) := by
    simp only [readValue, hopen, hstarts.skipBlanks_eq]
    split
    next heq =>
      obtain ⟨c, more, heq, -, hc, -⟩ := hstarts
      cases heq
      exact absurd rfl hc
    next => rfl
  rw [hread, h, readingAll, reading, Document.isReadable, Document.allLeaves,
    Document.value]
  split
  · rfl
  · rfl

theorem readValue_of_object
    {members : List (List Piece × Document)} (hstarts : Starts s)
    (h : readMembers fuel depth s = readingMembers members rest) :
    readValue (fuel + 1) (depth + 1) (some '\x7b' :: s) =
      reading (.object members) rest := by
  have hopen : skipBlanks (some '\x7b' :: s) = some '\x7b' :: s := rfl
  have hread : readValue (fuel + 1) (depth + 1) (some '\x7b' :: s) =
      readMembers fuel depth s >>= fun read =>
        pure (ofMembers read.1, read.2) := by
    simp only [readValue, hopen, hstarts.skipBlanks_eq]
    split
    next heq =>
      obtain ⟨c, more, heq, -, -, hc⟩ := hstarts
      cases heq
      exact absurd rfl hc
    next => rfl
  rw [hread, h, readingMembers, reading, Document.isReadable,
    Document.allLeaves, Document.value]
  split
  · rfl
  · rfl

end Opened

theorem symbols_member (ps : List Piece) (item : String) (rest : Symbols) :
    symbols (member (Piece.quoted ps, item)) ++ rest =
      symbols (Piece.quoted ps) ++ some ':' :: (symbols item ++ rest) := by
  rw [member, symbols_append, symbols_append, List.append_assoc,
    List.append_assoc]
  rfl

theorem length_member (ps : List Piece) (item : String) :
    (member (Piece.quoted ps, item)).length =
      (Piece.quoted ps).length + 1 + item.length := by
  rw [member, String.length_append, String.length_append]
  rfl

theorem exists_fuel {n fuel : ℕ} (h : n + 1 ≤ fuel) :
    ∃ m, fuel = m + 1 ∧ n ≤ m :=
  ⟨fuel - 1, by omega, by omega⟩

/-- A list is read back if its elements are. -/
theorem readValue_of_elements
    {ds : List Document} {depth fuel : ℕ} {rest : Symbols}
    (hexact : Document.allLeavesOf Document.isExact ds = true)
    (hfuel : 2 * (array (Document.writtenOf ds)).length + 1 ≤ fuel)
    (h : ds ≠ [] → ∀ fuel,
      2 * (",".intercalate (Document.writtenOf ds)).length + 2 ≤ fuel →
      readElements fuel depth
          (symbols (",".intercalate (Document.writtenOf ds)) ++
            some ']' :: rest) =
        readingAll ds rest) :
    readValue fuel (depth + 1)
      (symbols (array (Document.writtenOf ds)) ++ rest) =
      reading (.list ds) rest := by
  rw [length_array] at hfuel
  obtain ⟨fuel, rfl, hfuel⟩ := exists_fuel hfuel
  cases ds with
  | nil => rfl
  | cons d ds =>
    have hread := h (List.cons_ne_nil _ _) fuel (by omega)
    rw [Document.allLeavesOf, Bool.and_eq_true] at hexact
    have hstarts := (starts_intercalate_cons (starts_written hexact.1)
      (Document.writtenOf ds)).append (some ']' :: rest)
    rw [symbols_array, List.cons_append, List.append_assoc]
    exact readValue_of_array hstarts hread

theorem readValue_of_members
    {members : List (List Piece × Document)} {depth fuel : ℕ} {rest : Symbols}
    (hfuel : 2 * (object (Document.writtenIn members)).length + 1 ≤ fuel)
    (h : members ≠ [] → ∀ fuel,
      2 * (",".intercalate ((Document.writtenIn members).map member)).length +
      2 ≤ fuel →
      readMembers fuel depth
      (symbols (",".intercalate ((Document.writtenIn members).map member)) ++
        some '\x7d' :: rest) = readingMembers members rest) :
    readValue fuel (depth + 1)
      (symbols (object (Document.writtenIn members)) ++ rest) =
      reading (.object members) rest := by
  rw [length_object] at hfuel
  obtain ⟨fuel, rfl, hfuel⟩ := exists_fuel hfuel
  cases members with
  | nil => rfl
  | cons entry members =>
    obtain ⟨ps, d⟩ := entry
    have hread := h (List.cons_ne_nil _ _) fuel (by omega)
    have hfirst : Starts (symbols (member (Piece.quoted ps, d.written))) := by
      rw [← List.append_nil (symbols _), symbols_member]
      exact (starts_quoted ps).append _
    have hstarts := (starts_intercalate_cons hfirst
      ((Document.writtenIn members).map member)).append (some '\x7d' :: rest)
    rw [symbols_object, List.cons_append, List.append_assoc]
    exact readValue_of_object hstarts hread

mutual

/-- Every document is read back from its text, whatever follows that cannot
belong to it. -/
theorem readValue_written
    (d : Document) {depth fuel : ℕ} {rest : Symbols}
    (hexact : d.allLeaves Document.isExact = true) (hdepth : d.depth ≤ depth)
    (hfuel : 2 * d.written.length + 1 ≤ fuel) (hrest : EndsNumber rest) :
    readValue fuel depth (symbols d.written ++ rest) = reading d rest := by
  cases d with
  | list ds =>
    rw [Document.depth] at hdepth
    obtain ⟨depth, rfl, hbelow⟩ := exists_fuel hdepth
    rw [Document.written] at hfuel ⊢
    apply readValue_of_elements hexact hfuel
    intro hne fuel hfuel
    exact readElements_written ds hne hexact hbelow hfuel
  | object members =>
    rw [Document.depth] at hdepth
    obtain ⟨depth, rfl, hbelow⟩ := exists_fuel hdepth
    rw [Document.written] at hfuel ⊢
    apply readValue_of_members hfuel
    intro hne fuel hfuel
    exact readMembers_written members hne hexact hbelow hfuel
  | null =>
    obtain ⟨fuel, rfl, -⟩ := exists_fuel hfuel
    rw [Document.written]
    exact (readValue_of_word fuel depth rest).1
  | truth b =>
    obtain ⟨fuel, rfl, -⟩ := exists_fuel hfuel
    rw [Document.written]
    cases b with
    | true => exact (readValue_of_word fuel depth rest).2.1
    | false => exact (readValue_of_word fuel depth rest).2.2
  | int n =>
    obtain ⟨fuel, rfl, -⟩ := exists_fuel hfuel
    rw [Document.written]
    exact readValue_of_int fuel depth n hrest
  | real x spelled => cases hexact
  | text ps =>
    obtain ⟨fuel, rfl, -⟩ := exists_fuel hfuel
    rw [Document.written]
    exact readValue_of_quoted fuel depth ps rest

theorem readElements_written
    (ds : List Document) {depth fuel : ℕ} {rest : Symbols} (hne : ds ≠ [])
    (hexact : Document.allLeavesOf Document.isExact ds = true)
    (hdepth : Document.depthOf ds ≤ depth)
    (hfuel : 2 * (",".intercalate (Document.writtenOf ds)).length + 2 ≤ fuel) :
    readElements fuel depth
        (symbols (",".intercalate (Document.writtenOf ds)) ++
          some ']' :: rest) =
      readingAll ds rest := by
  cases ds with
  | nil => exact absurd rfl hne
  | cons d ds =>
    obtain ⟨fuel, rfl, hfuel⟩ := exists_fuel hfuel
    rw [Document.allLeavesOf, Bool.and_eq_true] at hexact
    rw [Document.depthOf, Nat.max_le] at hdepth
    cases ds with
    | nil =>
      rw [Document.writtenOf, Document.writtenOf,
        String.intercalate_singleton] at hfuel ⊢
      exact readElements_single
        (readValue_written d hexact.1 hdepth.1 (by omega)
        (endsNumber_cons (by decide) rest))
    | cons next ds =>
      have hcomma : ",".length = 1 := rfl
      rw [Document.writtenOf, Document.writtenOf, String.intercalate_cons_cons,
        String.length_append, String.length_append, hcomma,
        ← Document.writtenOf] at hfuel
      rw [Document.writtenOf, Document.writtenOf, symbols_intercalate_cons_cons,
        List.append_assoc, List.cons_append, ← Document.writtenOf]
      refine readElements_more (readValue_written d hexact.1 hdepth.1 (by omega)
        (endsNumber_cons (by decide) _)) ?_
      exact readElements_written (next :: ds)
        (List.cons_ne_nil _ _) hexact.2 hdepth.2
        (by omega)

theorem readMembers_written
    (members : List (List Piece × Document)) {depth fuel : ℕ} {rest : Symbols}
    (hne : members ≠ [])
    (hexact : Document.allLeavesIn Document.isExact members = true)
    (hdepth : Document.depthIn members ≤ depth)
    (hfuel : 2 * (",".intercalate
      ((Document.writtenIn members).map member)).length + 2 ≤ fuel) :
    readMembers fuel depth
      (symbols (",".intercalate ((Document.writtenIn members).map member)) ++
        some '\x7d' :: rest) = readingMembers members rest := by
  cases members with
  | nil => exact absurd rfl hne
  | cons entry members =>
    obtain ⟨ps, d⟩ := entry
    obtain ⟨fuel, rfl, hfuel⟩ := exists_fuel hfuel
    have hlength := length_member ps d.written
    rw [Document.allLeavesIn, Bool.and_eq_true] at hexact
    rw [Document.depthIn, Nat.max_le] at hdepth
    cases members with
    | nil =>
      rw [Document.writtenIn, Document.writtenIn, List.map_singleton,
        String.intercalate_singleton] at hfuel ⊢
      rw [symbols_member]
      exact readMembers_single (readValue_written d hexact.1 hdepth.1 (by omega)
        (endsNumber_cons (by decide) rest))
    | cons next members =>
      obtain ⟨nextKey, nextDocument⟩ := next
      have hcomma : ",".length = 1 := rfl
      rw [Document.writtenIn, Document.writtenIn, List.map_cons, List.map_cons,
        String.intercalate_cons_cons, String.length_append,
        String.length_append, hcomma, ← List.map_cons,
        ← Document.writtenIn] at hfuel
      rw [Document.writtenIn, Document.writtenIn, List.map_cons, List.map_cons,
        symbols_intercalate_cons_cons, List.append_assoc, symbols_member,
        ← List.map_cons, ← Document.writtenIn]
      refine readMembers_more (readValue_written d hexact.1 hdepth.1 (by omega)
        (endsNumber_cons (by decide) _)) ?_
      exact readMembers_written ((nextKey, nextDocument) :: members)
        (List.cons_ne_nil _ _)
        hexact.2 hdepth.2 (by omega)

end

/-! ## The laws -/

theorem character?_toNat (c : Char) : character? c.toNat = some c := by
  have hvalid : c.toNat.isValidChar := c.valid
  rw [character?, dif_pos hvalid]
  rfl

/-- The symbols of a text that can be read. -/
theorem symbols_ofString (s : String) :
    (Payload.ofString s).symbols = .ok (symbols s) := by
  have hcharacters :
      (s.toList.map Char.toNat).mapM character? = some s.toList := by
    have hall : (character? ∘ Char.toNat) = id ∘ some := funext character?_toNat
    rw [List.mapM_map, hall, ← List.mapM_map]
    exact Text.Utf8.mapM_id_eq_some_iff.mpr rfl
  rw [Payload.ofString, Payload.symbols, hcharacters]
  rfl

theorem standard_readsText (room : Option ℕ) :
    (Engine.standard room).ReadsText := by
  intro s
  change read room (.ofString s) =
    read room (.bytes (Text.Utf8.encode s.toList))
  rw [read, read, symbols_ofString, Payload.symbols, Text.Utf8.symbols_encode]
  rfl

theorem readDocument_written
    {d : Document} (hexact : d.allLeaves Document.isExact = true) {depth : ℕ}
    (hdepth : d.depth ≤ depth) :
    readDocument depth (symbols d.written) =
      if d.isReadable then .ok d.value else .error .refused := by
  have hread : readValue (2 * (symbols d.written).length + 2) depth
      (symbols d.written) =
      reading d [] := by
    have hall :=
      readValue_written d hexact hdepth (Nat.le_succ _) endsNumber_nil
    rw [List.append_nil] at hall
    rw [symbols, List.length_map, String.length_toList]
    exact hall
  rw [readDocument]
  change (readValue (2 * (symbols d.written).length + 2) depth
    (symbols d.written) >>= _) = _
  rw [hread, reading]
  split
  · rfl
  · rfl

theorem standard_reads (room : ℕ) :
    (Engine.standard (some room)).Reads room where
  text := standard_readsText (some room)
  document d hexact hdepth := by
    change read (some room) (.ofString d.written) = _
    rw [read, symbols_ofString]
    exact readDocument_written hexact hdepth

end QueryJournal.Json

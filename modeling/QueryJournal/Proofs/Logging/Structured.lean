import QueryJournal.Logging.Format
import QueryJournal.Proofs.Json.RoundTrip
import QueryJournal.Proofs.Logging.Entries

/-!
# Structured records

A record whose entries have a JSON text is laid out as one line.  No string in
it can forge another line or another entry: the line is read as the dictionary
that the entries make, in the order in which they are stored.  Only an integer
that is too long to be read is in the way of that.
-/

namespace QueryJournal

namespace Json

/-- An entry that has a JSON text and holds no floating-point number.  There is
room for it inside of a dictionary. -/
structure IsEncodable (p : Platform) (room : ℕ) (e : Value × Value) : Prop where
  encoded : ∃ t, p.encode (.mapping [e]) = .ok t
  noFloat : e.2.allLeaves (fun leaf => !leaf.isFloat) = true
  fits : e.2.depth < room

section Encodable

variable {p : Platform} {s : Script} {room : ℕ}
  (hwrite : p.engine.Writes s room)

include hwrite

theorem isEncodable_iff {e : Value × Value} :
    IsEncodable p room e ↔
      ((isConvertedKey e.1 = true → ∃ t, converted p.hook e.1 = .ok t) ∧
        Converts p.hook e.2) ∧
      e.2.allLeaves (fun leaf => !leaf.isFloat) = true ∧ e.2.depth < room := by
  have hencoded : e.2.depth < room →
      ((∃ t, p.encode (.mapping [e]) = .ok t) ↔
        (isConvertedKey e.1 = true → ∃ t, converted p.hook e.1 = .ok t) ∧
          Converts p.hook e.2) := by
    intro hfits
    obtain ⟨n, rfl⟩ : ∃ n, room = n + 1 := ⟨room - 1, by omega⟩
    have hdepth : (Value.mapping [e]).depth ≤ n + 1 := by
      rw [Value.depth_mapping_le_iff, List.forall_mem_singleton]
      exact Nat.le_of_lt_succ hfits
    rw [exists_encode_iff hwrite hdepth, converts_mapping_iff,
      List.forall_mem_singleton]
  constructor
  · intro h
    exact ⟨(hencoded h.fits).mp h.encoded, h.noFloat, h.fits⟩
  · rintro ⟨hconverts, hfloat, hfits⟩
    exact ⟨(hencoded hfits).mpr hconverts, hfloat, hfits⟩

theorem isEncodable_text (hroom : 0 < room) (name t : String) :
    IsEncodable p room (.text name, .text t) :=
  (isEncodable_iff hwrite).mpr ⟨⟨nofun, List.forall_mem_nil _⟩, rfl, hroom⟩

theorem isEncodable_integer (hroom : 0 < room) (name : String) {n : ℤ}
    (h : Number.digitCount n.natAbs ≤ Number.longestText) :
    IsEncodable p room (.text name, .int n) := by
  refine (isEncodable_iff hwrite).mpr ⟨⟨nofun, ?_⟩, rfl, hroom⟩
  intro x hx
  rw [List.mem_singleton.mp hx]
  exact ⟨_, if_pos h⟩

/-- The value of an entry may stand under every name. -/
theorem IsEncodable.rename {e : Value × Value}
    (h : IsEncodable p room e) (name : String) :
    IsEncodable p room (.text name, e.2) := by
  obtain ⟨hconverts, hrest⟩ := (isEncodable_iff hwrite).mp h
  exact (isEncodable_iff hwrite).mpr ⟨⟨nofun, hconverts.2⟩, hrest⟩

end Encodable

end Json

namespace LogRecord

section Listing

variable {r : LogRecord} {timestamp message : String}
  {more : List (Value × Value)}
variable {reported : Option String}

/-- The entries that a record is left with. -/
def dictionary
    (r : LogRecord) (timestamp message : String) (more : List (Value × Value))
    (reported : Option String) : List (Value × Value) :=
  merge [] (r.listing timestamp message more reported)

/-- The line of a failure is stored last. -/
theorem lookup?_exception
    {line : String} :
    Value.lookup? (.text "exception")
      (r.dictionary timestamp message more (some line)) =
      some (.text line) := by
  rw [dictionary, listing, merge_append]
  exact Value.lookup?_insertEntry rfl _ _

/-- A property is the record's own, or the application adds it. -/
theorem property_cases (r : LogRecord) (name : String) (own : Value) :
    r.property name own = own ∨
    ∃ added ∈ r.extra, r.property name own = added.2 := by
  rw [property, added?]
  cases hfound : r.extra.reverse.find? (·.1 == name) with
  | none => exact Or.inl rfl
  | some added => exact Or.inr ⟨added,
    List.mem_reverse.mp (List.mem_of_find?_eq_some hfound), rfl⟩

section Engine

variable {p : Json.Platform} {s : Json.Script} {room : ℕ}
  (hwrite : p.engine.Writes s room)

include hwrite

/-- All that is stored for a record has a JSON text if what the application adds
has one.  Of the fixed entries only the line could be too long. -/
theorem forall_isEncodable_listing
    (hroom : 0 < room)
    (hline : Json.IsEncodable p room (.text "line", .int r.source.line))
    (hextra : ∀ added ∈ r.extra,
      Json.IsEncodable p room (.text added.1, added.2))
    (hmore : ∀ e ∈ more, Json.IsEncodable p room e) :
    ∀ e ∈ r.listing timestamp message more reported,
      Json.IsEncodable p room e := by
  have htext := Json.isEncodable_text hwrite hroom
  have hproperty : ∀ label name own,
      Json.IsEncodable p room (.text label, own) →
      Json.IsEncodable p room (.text label, r.property name own) := by
    intro label name own hown
    rcases r.property_cases name own with heq | ⟨added, hadded, heq⟩
    · rw [heq]
      exact hown
    · rw [heq]
      exact (hextra added hadded).rename hwrite label
  have hfixed : ∀ own ∈ r.fixedEntries timestamp message,
      Json.IsEncodable p room (.text own.1, own.2) := by
    simp only [fixedEntries, List.forall_mem_cons]
    exact ⟨htext _ _, hproperty _ _ _ (htext _ _),
      hproperty _ _ _ (htext _ _), htext _ _,
      hproperty _ _ _ (htext _ _), hproperty _ _ _ (htext _ _),
      hproperty _ _ _ hline, List.forall_mem_nil _⟩
  intro e he
  rw [listing, List.mem_append, List.mem_append, List.mem_map,
    List.mem_map] at he
  rcases he with (⟨own, hown, rfl⟩ | hadded) | ⟨line, -, rfl⟩
  · rcases List.mem_append.mp hown with hown | hown
    · exact hfixed own hown
    · exact hextra own (List.mem_filter.mp hown).1
  · exact hmore e hadded
  · exact htext _ _

/-- The dictionary has a JSON text if each of the entries that are stored has
one.  The first of them is always there, so there is room for the dictionary
itself. -/
theorem dictionary_is_encodable
    (h : ∀ e ∈ r.listing timestamp message more reported,
      Json.IsEncodable p room e) :
    Json.Converts p.hook
      (.mapping (r.dictionary timestamp message more reported)) ∧
      (Value.mapping (r.dictionary timestamp message more reported)).allLeaves
        (fun leaf => !leaf.isFloat) = true ∧
      (Value.mapping (r.dictionary timestamp message more reported)).depth ≤
        room := by
  have hroom : 0 < room :=
    (h (.text "timestamp", .text timestamp) List.mem_cons_self).fits
  obtain ⟨n, rfl⟩ : ∃ n, room = n + 1 := ⟨room - 1, by omega⟩
  have hstored : ∀ e ∈ r.dictionary timestamp message more reported,
      ((Json.isConvertedKey e.1 = true → ∃ t,
          Json.converted p.hook e.1 = .ok t) ∧
        Json.Converts p.hook e.2) ∧
      e.2.allLeaves (fun leaf => !leaf.isFloat) = true ∧ e.2.depth < n + 1 := by
    intro e he
    obtain ⟨⟨first, hfirst, hkey⟩, last, hlast, hvalue⟩ :=
      exists_of_mem_merge he
    have hone := (Json.isEncodable_iff hwrite).mp (h first hfirst)
    have htwo := (Json.isEncodable_iff hwrite).mp (h last hlast)
    rw [← hkey, ← hvalue]
    exact ⟨⟨hone.1.1, htwo.1.2⟩, htwo.2⟩
  refine ⟨?_, ?_, ?_⟩
  · exact Json.converts_mapping_iff.mpr fun e he => (hstored e he).1
  · exact Value.allLeavesIn_iff.mpr fun e he => (hstored e he).2.1
  · exact Value.depth_mapping_le_iff.mpr fun e he =>
      Nat.le_of_lt_succ (hstored e he).2.2

theorem exists_structured
    (hread : p.engine.Reads room)
    (htime : r.timestamp = .ok timestamp) (htext : r.text = .ok message)
    (hmore : r.addedEntries = .ok more) (hreported : r.reported = .ok reported)
    (h : ∀ e ∈ r.listing timestamp message more reported,
      Json.IsEncodable p room e) :
    ∃ line, r.structured p = .ok line ∧ Json.NoControls line ∧
      p.decode (.ofString line) =
        if (Value.mapping
          (r.dictionary timestamp message more reported)).allLeaves
            Json.isReadable then
          .ok (Json.normal p s.floatKey
            (.mapping (r.dictionary timestamp message more reported)))
        else .error .undecodable := by
  obtain ⟨hconverts, hfloat, hdepth⟩ := dictionary_is_encodable hwrite h
  obtain ⟨line, hline⟩ := (Json.exists_encode_iff hwrite hdepth).mpr hconverts
  refine ⟨line, ?_, ?_, Json.decode_encode hwrite hread hfloat hdepth hline⟩
  · rw [structured, entries_eq htime htext hmore hreported]
    exact hline
  · obtain ⟨-, rfl⟩ := (Json.encode_eq_ok_iff hwrite hdepth).mp hline
    exact Json.noControls_written _ (Json.isExact_document hfloat)

/-- A record whose entries have a JSON text is laid out as one line without
control characters, which is read as the normal form of its dictionary, or
refused for an integer that is too long with its sign.  Names that are reserved
or private come only from the entries that are added as one value. -/
theorem structured_is_one_readable_line
    (hread : p.engine.Reads room)
    (htime : r.timestamp = .ok timestamp) (htext : r.text = .ok message)
    (hmore : r.addedEntries = .ok more) (hreported : r.reported = .ok reported)
    (h : ∀ e ∈ r.listing timestamp message more reported,
      Json.IsEncodable p room e) :
    let dictionary := r.dictionary timestamp message more reported
    (∃ line, r.structured p = .ok line ∧
      (∀ c ∈ line.toList, 0x20 ≤ c.toNat) ∧
      p.decode (.ofString line) =
        if (Value.mapping dictionary).allLeaves Json.isReadable then
          .ok (Json.normal p s.floatKey (.mapping dictionary))
        else .error .undecodable) ∧
    (∀ e ∈ dictionary,
      (∃ name ∈ fixedNames, e.1 = .text name) ∨
      (∃ added ∈ r.extra, added.1 ∉ reservedNames ∧
        added.1.toList.head? ≠ some '_' ∧
        e.1 = .text added.1) ∨
      (∃ added ∈ more, e.1 = added.1) ∨
      ∃ line ∈ reported, e.1 = .text "exception") ∧
    (∀ line ∈ reported,
      Value.lookup? (.text "exception") dictionary = some (.text line)) ∧
    dictionary = (r.listing timestamp message more reported).foldl
      (fun entries e => Value.insertEntry e.1 e.2 entries) [] ∧
    ∀ (key v : Value) (entries : List (Value × Value)),
      ((∀ e ∈ entries, Value.sameKey e.1 key = false) →
        Value.insertEntry key v entries = entries ++ [(key, v)]) ∧
      ∀ before k old rest, entries = before ++ (k, old) :: rest →
        (∀ e ∈ before, Value.sameKey e.1 key = false) →
        Value.sameKey k key = true →
        Value.insertEntry key v entries = before ++ (k, v) :: rest := by
  intro dictionary
  refine ⟨exists_structured hwrite hread htime htext hmore hreported h,
    ?_, ?_, rfl, ?_⟩
  · intro e he
    obtain ⟨⟨first, hfirst, hkey⟩, -⟩ := exists_of_mem_merge he
    rw [← hkey]
    exact key_cases hfirst
  · intro line hline
    have hsome : reported = some line := hline
    rw [show dictionary = r.dictionary timestamp message more
      (some line) from hsome ▸ rfl]
    exact lookup?_exception
  · intro key v entries
    constructor
    · exact Value.insertEntry_of_absent
    · rintro before k old rest rfl hbefore hsame
      exact Value.insertEntry_of_present hbefore hsame

end Engine

end Listing

/-- A record with a quote, a line break and a control character, whose level is
replaced and which holds a private name. -/
theorem structured_is_one_readable_line_of_quotes :
    let r : LogRecord :=
      ⟨"app", 20, "say \"hi\"\n", [], ⟨"client", "run", 7⟩, ⟨0, 0⟩,
        [("user", .text "\x01"), ("_token", .int 1)],
        some (.mapping [(.text "level", .tuple [.int 1]),
          (.int 2, .bytes [0])]), none, .empty⟩
    ∃ line, r.structured (.standard (some 1000)) = .ok line ∧
      (∀ c ∈ line.toList, 0x20 ≤ c.toNat) ∧
      (Json.Platform.standard (some 1000)).decode (.ofString line) =
        .ok (.mapping [(.text "timestamp", .text "1970-01-01 00:00:00,000"),
          (.text "level", .list [.int 1]), (.text "logger", .text "app"),
          (.text "message", .text "say \"hi\"\n"),
          (.text "module", .text "client"), (.text "function", .text "run"),
          (.text "line", .int 7), (.text "user", .text "\x01"),
          (.text "2", .text "AA==")]) := by
  intro r
  have hwrite := Json.standard_writes 1000
  have htime : r.timestamp = .ok "1970-01-01 00:00:00,000" :=
    eq_ok_of_toOption (by decide +kernel)
  have hlisting : r.listing "1970-01-01 00:00:00,000" "say \"hi\"\n"
      [(.text "level", .tuple [.int 1]), (.int 2, .bytes [0])] none =
        [(.text "timestamp", .text "1970-01-01 00:00:00,000"),
          (.text "level", .text "INFO"), (.text "logger", .text "app"),
          (.text "message", .text "say \"hi\"\n"),
          (.text "module", .text "client"), (.text "function", .text "run"),
          (.text "line", .int 7), (.text "user", .text "\x01"),
          (.text "level", .tuple [.int 1]), (.int 2, .bytes [0])] := by
    rfl
  have hencodable : ∀ e ∈ r.listing "1970-01-01 00:00:00,000" "say \"hi\"\n"
      [(.text "level", .tuple [.int 1]), (.int 2, .bytes [0])] none,
      Json.IsEncodable (.standard (some 1000)) 1000 e := by
    have htext :=
      Json.isEncodable_text (p := .standard (some 1000)) hwrite (by decide)
    have hint :=
      Json.isEncodable_integer (p := .standard (some 1000)) hwrite (by decide)
    apply forall_isEncodable_listing
      (p := .standard (some 1000)) hwrite (by decide)
      (hint "line" (by decide))
    · simp only [r, List.forall_mem_cons]
      exact ⟨htext _ _, hint "_token" (by decide), List.forall_mem_nil _⟩
    · simp only [List.forall_mem_cons]
      exact ⟨⟨⟨_, rfl⟩, rfl, by decide⟩, ⟨⟨_, rfl⟩, rfl, by decide⟩,
        List.forall_mem_nil _⟩
  have htext : r.text = .ok "say \"hi\"\n" := rfl
  have hmore : r.addedEntries =
      .ok [(.text "level", .tuple [.int 1]), (.int 2, .bytes [0])] := rfl
  have hreported : r.reported = .ok none := rfl
  obtain ⟨line, hline, hcontrols, hdecode⟩ :=
    (structured_is_one_readable_line (p := .standard (some 1000)) hwrite
      (Json.standard_reads 1000) htime htext hmore hreported hencodable).1
  refine ⟨line, hline, hcontrols, hdecode.trans ?_⟩
  rw [dictionary, hlisting]
  rfl

/-- A record with a negative power of ten is refused if the digits alone are few
enough, but not together with the sign. -/
theorem exists_refused
    {k : ℕ} (hwritten : k < Number.longestText)
    (hlong : Number.longestText < k + 2) :
    let r : LogRecord := ⟨"app", 20, "done", [], ⟨"driver", "call", 1⟩, ⟨0, 0⟩,
      [("n", .int (-(10 ^ k : ℕ)))], none, none, .empty⟩
    r.timestamp = .ok "1970-01-01 00:00:00,000" ∧ r.text = .ok "done" ∧
      r.addedEntries = .ok [] ∧ r.reported = .ok none ∧
      (∀ e ∈ r.listing "1970-01-01 00:00:00,000" "done" [] none,
        Json.IsEncodable (.standard (some 1000)) 1000 e) ∧
      ∃ line, r.structured (.standard (some 1000)) = .ok line ∧
        (Json.Platform.standard (some 1000)).decode (.ofString line) =
          .error .undecodable := by
  intro r
  have hwrite := Json.standard_writes 1000
  have hclock : Timestamp.text (.int 0) (.int 0) =
      .ok "1970-01-01 00:00:00,000" :=
    eq_ok_of_toOption (by decide +kernel)
  have htime : r.timestamp = .ok "1970-01-01 00:00:00,000" := hclock
  have htext : r.text = .ok "done" := rfl
  have hmore : r.addedEntries = .ok [] := rfl
  have hreported : r.reported = .ok none := rfl
  have hname : isCopied "n" = true := by decide
  have hcopied : r.extra.filter (fun e => isCopied e.1) = r.extra :=
    List.filter_cons_of_pos hname
  have hlisting : r.listing "1970-01-01 00:00:00,000" "done" [] none =
      [(.text "timestamp", .text "1970-01-01 00:00:00,000"),
        (.text "level", .text "INFO"),
        (.text "logger", .text "app"), (.text "message", .text "done"),
        (.text "module", .text "driver"), (.text "function", .text "call"),
        (.text "line", .int 1), (.text "n", .int (-(10 ^ k : ℕ)))] := by
    rw [listing, hcopied]
    rfl
  have hencodable : ∀ e ∈ r.listing "1970-01-01 00:00:00,000" "done" [] none,
      Json.IsEncodable (.standard (some 1000)) 1000 e := by
    have hint :=
      Json.isEncodable_integer (p := .standard (some 1000)) hwrite (by decide)
    have hline := hint (n := 1) "line" (by decide)
    apply forall_isEncodable_listing (p := .standard (some 1000)) hwrite
      (by decide) hline
    · rw [List.forall_mem_singleton]
      apply hint
      rw [Int.natAbs_neg, Int.natAbs_natCast, Json.digitCount_pow]
      exact hwritten
    · exact List.forall_mem_nil _
  have hunreadable : (Value.mapping
      (r.dictionary "1970-01-01 00:00:00,000" "done" [] none)).allLeaves
      Json.isReadable = false := by
    have hshort : Json.isShort (-(10 ^ k : ℕ)) = false := by
      rw [Json.isShort_neg_pow, decide_eq_false_iff_not]
      omega
    rw [dictionary, hlisting]
    change (true &&
      (true && (true && (true && (true && (true && (Json.isShort 1 &&
      (Json.isShort (-(10 ^ k : ℕ)) && true)))))))) = false
    rw [hshort, Bool.false_and, Bool.and_false]
    rfl
  obtain ⟨line, hline, -, hdecode⟩ :=
    exists_structured (p := .standard (some 1000)) hwrite
    (Json.standard_reads 1000) htime htext hmore hreported hencodable
  rw [hunreadable] at hdecode
  exact ⟨htime, htext, hmore, hreported, hencodable, line, hline, hdecode⟩

/-- The least integer that can be written is not read: its sign makes its text
one character too long. -/
theorem least_integer_is_refused :
    let r : LogRecord := ⟨"app", 20, "done", [], ⟨"driver", "call", 1⟩, ⟨0, 0⟩,
      [("n", .int (-(10 ^ 4299 : ℕ)))], none, none, .empty⟩
    r.timestamp = .ok "1970-01-01 00:00:00,000" ∧ r.text = .ok "done" ∧
      r.addedEntries = .ok [] ∧ r.reported = .ok none ∧
      (∀ e ∈ r.listing "1970-01-01 00:00:00,000" "done" [] none,
        Json.IsEncodable (.standard (some 1000)) 1000 e) ∧
      ∃ line, r.structured (.standard (some 1000)) = .ok line ∧
        (Json.Platform.standard (some 1000)).decode (.ofString line) =
          .error .undecodable :=
  exists_refused (k := 4299) (by decide) (by decide)

end LogRecord

end QueryJournal

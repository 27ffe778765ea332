import QueryJournal.Proofs.Json.FirstRefusal
import QueryJournal.Proofs.Json.Standard.Reader

/-!
# The round trip

Whatever engine is used, what is written for a value that there is room for is
read again, and gives the normal form of the value, which is its own normal
form.  It makes no difference whether characters or bytes are read.  Only
integers can get lost: with the sign that is not counted when they are written
they may be too long to be read.
-/

namespace QueryJournal.Json

section Normal

variable {p : Platform} {floatKey : Binary → String} {hook : Hook}

theorem conversions_normal_leaf {v : Value} (h : v.hasItems = false) {x : Value}
    (hx : x ∈ conversions (normal p floatKey v)) : x ∈ conversions v := by
  cases v with
  | int n => exact hx
  | float y =>
    rw [normal] at hx
    split at hx
    · cases hx
    · cases hx
  | list xs => cases h
  | tuple xs => cases h
  | mapping entries => cases h
  | _ => cases hx

/-- The texts that a normal form takes are there if those of the value are. -/
theorem Converts.normal {v : Value} (h : Converts hook v) :
    Converts hook (normal p floatKey v) := by
  induction v using Value.induction_on_items with
  | leaf v hv =>
    intro x hx
    exact h x (conversions_normal_leaf hv hx)
  | list xs ih =>
    rw [Json.normal, normalAll_eq]
    refine converts_list_iff.mpr fun y hy => ?_
    obtain ⟨x, hx, rfl⟩ := List.mem_map.mp hy
    exact ih x hx (converts_list_iff.mp h x hx)
  | tuple xs hlist => exact hlist h
  | mapping entries ih =>
    obtain ⟨keys, f, -, hnormal, hvalues⟩ :=
      exists_normal_mapping p floatKey entries
    rw [hnormal]
    refine converts_mapping_iff.mpr fun e he => ⟨?_, ?_⟩
    · obtain ⟨k, hk, rfl⟩ := List.mem_map.mp he
      intro hkey
      cases hkey
    · obtain ⟨k, hk, rfl⟩ := List.mem_map.mp he
      obtain ⟨entry, hentry, hvalue⟩ := hvalues k hk
      rw [hvalue]
      exact ih entry hentry (converts_mapping_iff.mp h entry hentry).2

end Normal

section RoundTrip

variable {p : Platform} {s : Script} {room : ℕ}
  (hwrite : p.engine.Writes s room)
variable (hread : p.engine.Reads room)

include hwrite hread

/-- The text of a value without floating-point numbers is read as the normal
form of the value, unless it holds an integer that is too long. -/
theorem decode_encode
    {v : Value} (hfloat : v.allLeaves (fun leaf => !leaf.isFloat) = true)
    (hdepth : v.depth ≤ room) {t : String} (h : p.encode v = .ok t) :
    p.decode (.ofString t) =
      if v.allLeaves isReadable then .ok (normal p s.floatKey v)
      else .error .undecodable := by
  obtain ⟨-, rfl⟩ := (encode_eq_ok_iff hwrite hdepth).mp h
  have hroom : (document s p.hook v).depth ≤ room := by
    rw [depth_document]
    exact hdepth
  rw [Platform.decode, hread.document _ (isExact_document hfloat) hroom,
    isReadable_document, value_document hwrite.meaning]
  split
  · rfl
  · rfl

/-- The text of a normal form is read back as the normal form. -/
theorem exists_encode_normal
    {v : Value} (hfloat : v.allLeaves (fun leaf => !leaf.isFloat) = true)
    (hdepth : v.depth ≤ room) (hconverts : Converts p.hook v)
    (hreadable : v.allLeaves isReadable = true) :
    ∃ t, p.encode (normal p s.floatKey v) = .ok t ∧
      p.decode (.ofString t) = .ok (normal p s.floatKey v) := by
  have hroom : (normal p s.floatKey v).depth ≤ room :=
    Nat.le_trans (depth_normal_le v) hdepth
  have hplain := allLeaves_normal p s.floatKey (fun _ => rfl) hfloat hfloat
  have hshort :=
    allLeaves_normal p s.floatKey (fun _ => rfl) hfloat hreadable
  obtain ⟨t, ht⟩ := (exists_encode_iff hwrite hroom).mpr hconverts.normal
  refine ⟨t, ht, ?_⟩
  rw [decode_encode hwrite hread hplain hroom ht, if_pos hshort, normal_normal]

end RoundTrip

/-- The text or the bytes of a value without floating-point numbers are read
back as its normal form if its integers are short enough, and they are refused
otherwise. Writing and reading once more changes nothing. -/
theorem decode_undoes_encode
    {p : Platform} {s : Script} {room : ℕ} (hwrite : p.engine.Writes s room)
    (hread : p.engine.Reads room) (v : Value)
    (hfloat : v.allLeaves (fun leaf => !leaf.isFloat) = true)
    (hdepth : v.depth ≤ room) :
    ((∃ t, p.encode v = .ok t) ↔ Converts p.hook v) ∧
    (∀ t, p.encode v = .ok t →
      p.encodeBytes v = .ok (Text.Utf8.encode t.toList) ∧
      p.decode (.bytes (Text.Utf8.encode t.toList)) = p.decode (.ofString t) ∧
      (v.allLeaves isReadable = false →
        p.decode (.ofString t) = .error .undecodable) ∧
      (v.allLeaves isReadable = true →
        p.decode (.ofString t) = .ok (normal p s.floatKey v) ∧
          ∃ u, p.encode (normal p s.floatKey v) = .ok u ∧
            p.decode (.ofString u) = .ok (normal p s.floatKey v))) ∧
    normal p s.floatKey (normal p s.floatKey v) = normal p s.floatKey v ∧
    ∀ entries, v = .mapping entries →
      normal p s.floatKey v =
        .mapping (((normalEntries p s.floatKey entries).map
            Prod.fst).eraseDups.map fun key =>
          (.text key, lastUnder (normalEntries p s.floatKey entries) key)) := by
  refine ⟨exists_encode_iff hwrite hdepth, ?_, normal_normal v, ?_⟩
  · intro t ht
    have hdecode := decode_encode hwrite hread hfloat hdepth ht
    have hconverts := (exists_encode_iff hwrite hdepth).mp ⟨t, ht⟩
    refine ⟨?_, ?_, ?_, ?_⟩
    · rw [encodeBytes_eq_map hwrite, ht]
      rfl
    · rw [Platform.decode, Platform.decode, hread.text]
    · intro hlong
      rw [hdecode, hlong, if_neg Bool.false_ne_true]
    · intro hreadable
      refine ⟨?_,
        exists_encode_normal hwrite hread hfloat hdepth hconverts hreadable⟩
      rw [hdecode, if_pos hreadable]
  · rintro entries rfl
    rw [normal, ofMembers_eq]

/-- Two keys with one and the same text. -/
theorem decode_undoes_encode_of_entries :
    let v : Value := .mapping [(.int 1, .text "\"a\" & b"), (.null, .int (-5)),
      (.text "1", .tuple [.bytes [0], .fault .key [.text "k"] []])]
    ∃ t, (Platform.standard (some 1000)).encode v = .ok t ∧
      (Platform.standard (some 1000)).decode (.ofString t) =
        .ok (.mapping [(.text "1", .list [.text "AA==", .text "KeyError('k')"]),
          (.text "None", .int (-5))]) := by
  intro v
  have hconverts : Converts (Platform.standard (some 1000)).hook v := by
    have hconversions : conversions v =
        [.int 1, .null, .int (-5), .fault .key [.text "k"] []] := rfl
    rw [Converts, hconversions]
    simp only [List.forall_mem_cons]
    exact ⟨⟨_, rfl⟩, ⟨_, rfl⟩, ⟨_, rfl⟩, ⟨_, rfl⟩, List.forall_mem_nil _⟩
  obtain ⟨hwritten, hread, -, hmapping⟩ :=
    decode_undoes_encode (p := .standard (some 1000)) (standard_writes 1000)
      (standard_reads 1000) v (by decide) (by decide)
  obtain ⟨t, ht⟩ := hwritten.mpr hconverts
  refine ⟨t, ht, ?_⟩
  rw [((hread t ht).2.2.2 (by decide)).1, hmapping _ rfl]
  rfl

/-- A negative integer whose digits just fit is written, but not read. -/
theorem exists_refused_of_neg_pow
    {k : ℕ} (hwritten : k < Number.longestText)
    (hlong : ¬k + 2 ≤ Number.longestText) :
    ∃ t, (Platform.standard (some 1000)).encode (.int (-(10 ^ k : ℕ))) = .ok t ∧
      (Platform.standard (some 1000)).decode (.ofString t) =
        .error .undecodable := by
  have hconverts : Converts (Platform.standard (some 1000)).hook
      (.int (-(10 ^ k : ℕ))) := by
    intro x hx
    rw [List.mem_singleton.mp hx]
    refine ⟨_, if_pos ?_⟩
    rw [Int.natAbs_neg, Int.natAbs_natCast, digitCount_pow]
    exact hwritten
  have hroom : (Value.int (-(10 ^ k : ℕ))).depth ≤ 1000 := Nat.zero_le _
  obtain ⟨t, ht⟩ :=
    (exists_encode_iff (p := .standard (some 1000)) (standard_writes 1000)
      hroom).mpr hconverts
  have hshort : isReadable (.int (-(10 ^ k : ℕ))) = false := by
    rw [isReadable, isShort_neg_pow, decide_eq_false hlong]
  refine ⟨t, ht, ?_⟩
  rw [decode_encode (p := .standard (some 1000)) (standard_writes 1000)
    (standard_reads 1000) rfl hroom ht, Value.allLeaves_of_not_hasItems rfl,
    hshort, if_neg Bool.false_ne_true]

/-- The least integer that is written is not read. -/
theorem least_integer_is_not_read :
    ∃ t, (Platform.standard (some 1000)).encode
      (.int (-(10 ^ 4299 : ℕ))) = .ok t ∧
      (Platform.standard (some 1000)).decode (.ofString t) =
        .error .undecodable :=
  exists_refused_of_neg_pow (k := 4299) (by decide) (by decide)

end QueryJournal.Json

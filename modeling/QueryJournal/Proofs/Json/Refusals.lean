import QueryJournal.Proofs.Json.Standard.Faults

/-!
# What is reported of bad payloads

A payload that is no JSON is refused by the engine, and reported as such.  What
is thrown inside of the engine is passed on as it is, so a payload can escape
the report in three ways: text with half of a pair, bytes that are no text, and
brackets that are too many.
-/

namespace QueryJournal.Json

/-- A payload escapes the report of a bad one by another failure. -/
inductive Escapes : Payload → Failure → Prop
  | half {codes : List ℕ} (h : ∃ n ∈ codes, ¬n.isValidChar) :
      Escapes (.text codes) .loneHalf
  | gap {bs : Bytes} (h : Text.Utf8.decode? bs = none) :
      Escapes (.bytes bs) .malformedText
  | depth (payload : Payload) : Escapes payload .tooDeep

/-- No failure that escapes is one to serialize. -/
theorem Escapes.cls_ne {payload : Payload} {f : Failure}
    (h : Escapes payload f) :
    f.cls ≠ .journal .serialization := by
  cases h with
  | half _ => exact nofun
  | gap _ => exact nofun
  | depth _ => exact nofun

/-- Text without halves of pairs is made of characters. -/
theorem exists_ofString {codes : List ℕ} (h : ∀ n ∈ codes, n.isValidChar) :
    ∃ s, Payload.text codes = .ofString s := by
  refine ⟨String.ofList (codes.map Char.ofNat), ?_⟩
  have hcodes : codes.map (Char.toNat ∘ Char.ofNat) = codes.map id :=
    List.map_congr_left fun n hn =>
      Text.Utf8.toNat_ofNat_of_isValidChar (h n hn)
  rw [Payload.ofString, String.toList_ofList, List.map_map, hcodes, List.map_id]

theorem decode_of_thrown {p : Platform} {payload : Payload} {f : Failure}
    (hread : p.engine.read payload = .error (.thrown f)) :
    p.decode payload = .error f := by
  rw [Platform.decode, hread]
  rfl

section Engine

variable {p : Platform} {limit : ℕ} (h : p.engine.Throws limit)

include h

theorem escapes_of_thrown {payload : Payload} {f : Failure}
    (hread : p.engine.read payload = .error (.thrown f)) :
    Escapes payload f := by
  cases payload with
  | bytes bs =>
    rcases h.only bs f hread with rfl | ⟨rfl, hbytes⟩
    · exact .depth _
    · exact .gap hbytes
  | text codes =>
    by_cases hhalf : ∃ n ∈ codes, ¬n.isValidChar
    · rw [h.half codes hhalf] at hread
      cases hread
      exact .half hhalf
    · have hvalid : ∀ n ∈ codes, n.isValidChar := by
        intro n hn
        by_contra hn'
        exact hhalf ⟨n, hn, hn'⟩
      obtain ⟨s, hs⟩ := exists_ofString hvalid
      rw [hs, h.text] at hread
      rcases h.only _ f hread with rfl | ⟨-, hbytes⟩
      · exact .depth _
      · rw [Text.Utf8.decode?_encode] at hbytes
        cases hbytes

theorem decode_cases (payload : Payload) :
    (∃ v, p.engine.read payload = .ok v ∧ p.decode payload = .ok v) ∨
      (p.engine.read payload = .error .refused ∧
        p.decode payload = .error .undecodable) ∨
      ∃ f, p.engine.read payload = .error (.thrown f) ∧
        p.decode payload = .error f ∧
        Escapes payload f := by
  rw [Platform.decode]
  cases hread : p.engine.read payload with
  | ok v => exact .inl ⟨v, rfl, rfl⟩
  | error fault =>
    cases fault with
    | refused => exact .inr (.inl ⟨rfl, rfl⟩)
    | thrown f => exact .inr (.inr ⟨f, rfl, rfl, escapes_of_thrown h hread⟩)

/-- What is no report of a bad payload escapes. -/
theorem eq_undecodable_or_escapes {payload : Payload} {f : Failure}
    (hf : p.decode payload = .error f) :
    f = .undecodable ∨ Escapes payload f := by
  rcases decode_cases h payload with
    ⟨v, -, hv⟩ | ⟨-, hrefused⟩ | ⟨g, -, hg, hescapes⟩
  · rw [hf] at hv
    cases hv
  · rw [hf] at hrefused
    exact .inl (Except.error.inj hrefused)
  · rw [hf] at hg
    cases hg
    exact .inr hescapes

theorem decode_eq_loneHalf_iff (codes : List ℕ) :
    p.decode (.text codes) = .error .loneHalf ↔
      ∃ n ∈ codes, ¬n.isValidChar := by
  constructor
  · intro hlone
    rcases eq_undecodable_or_escapes h hlone with hundecodable | hescapes
    · cases hundecodable
    · cases hescapes with
      | half hhalf => exact hhalf
  · intro hhalf
    exact decode_of_thrown (h.half codes hhalf)

theorem decode_ofString (s : String) :
    p.decode (.ofString s) = p.decode (.bytes (Text.Utf8.encode s.toList)) := by
  rw [Platform.decode, Platform.decode, h.text]

/-- A text has no gaps, so only too many brackets escape from it. -/
theorem eq_undecodable_or_tooDeep {s : String} {f : Failure}
    (hf : p.decode (.ofString s) = .error f) :
    f = .undecodable ∨ f = .tooDeep := by
  rw [decode_ofString h] at hf
  rcases eq_undecodable_or_escapes h hf with hundecodable | hescapes
  · exact .inl hundecodable
  · cases hescapes with
    | gap hbytes =>
      rw [Text.Utf8.decode?_encode] at hbytes
      cases hbytes
    | depth _ => exact .inr rfl

end Engine

/-- A payload gives a value, or it is reported as a bad one, unless something is
thrown inside of the engine.  Then this escapes instead: for each half of a
pair, for a string of bytes that are no text, and for too many brackets.  No
other failure does. -/
theorem bad_payloads_are_reported {p : Platform} {limit : ℕ}
    (h : p.engine.Throws limit) :
    (∀ payload,
      (∃ v, p.engine.read payload = .ok v ∧ p.decode payload = .ok v) ∨
      (p.engine.read payload = .error .refused ∧
        p.decode payload = .error .undecodable) ∨
      ∃ f, p.engine.read payload = .error (.thrown f) ∧
        p.decode payload = .error f ∧
        Escapes payload f) ∧
    (∀ codes : List ℕ, p.decode (.text codes) = .error .loneHalf ↔
      ∃ n ∈ codes, ¬n.isValidChar) ∧
    (∀ bs more : Bytes, IsBody bs → Text.Utf8.decode? bs = none →
      p.decode (.bytes (0x22 :: bs ++ 0x22 :: more)) = .error .malformedText) ∧
    (∀ s : String, List.replicate (limit + 1) '[' <+: s.toList →
      p.decode (.ofString s) = .error .tooDeep) ∧
    (∀ s : String,
      p.decode (.ofString s) = p.decode (.bytes (Text.Utf8.encode s.toList)) ∧
      ∀ f, p.decode (.ofString s) = .error f →
      f = .undecodable ∨ f = .tooDeep) ∧
    Failure.undecodable.cls = .journal .serialization ∧
    Failure.undecodable.message? = some "Unable to decode JSON payload" ∧
    ∀ payload f, Escapes payload f → f.cls ≠ .journal .serialization := by
  refine ⟨decode_cases h, decode_eq_loneHalf_iff h, ?_, ?_, ?_, rfl, rfl,
    fun _ _ => Escapes.cls_ne⟩
  · intro bs more hbody hbytes
    exact decode_of_thrown (h.string bs more hbody hbytes)
  · intro s hopen
    exact decode_of_thrown (h.brackets s hopen)
  · intro s
    exact ⟨decode_ofString h s, fun f => eq_undecodable_or_tooDeep h⟩

/-- Half of a pair, and a bracket too many. -/
theorem bad_payloads_are_reported_of_half :
    (Platform.standard (some 1000)).decode (.text [0x22, 0xD800, 0x22]) =
      .error .loneHalf ∧
    (Platform.standard (some 1000)).decode
      (.ofString (String.ofList (List.replicate 1001 '['))) =
      .error .tooDeep := by
  obtain ⟨-, hhalf, -, hbrackets, -⟩ :=
    bad_payloads_are_reported (p := .standard (some 1000))
      (standard_throws 1000)
  constructor
  · exact (hhalf _).mpr ⟨0xD800, by decide, by decide⟩
  · have hopen : (String.ofList (List.replicate 1001 '[')).toList =
        List.replicate 1001 '[' :=
      String.toList_ofList
    exact hbrackets _ ⟨[], (List.append_nil _).trans hopen.symm⟩

/-- A string of one byte that belongs to no character is reported as another
error. -/
theorem stray_byte_is_reported_otherwise :
    (Platform.standard (some 1000)).decode (.bytes [0x22, 0xff, 0x22]) =
      .error .malformedText ∧
      Failure.malformedText.cls ≠ .journal .serialization :=
  ⟨rfl, nofun⟩

end QueryJournal.Json

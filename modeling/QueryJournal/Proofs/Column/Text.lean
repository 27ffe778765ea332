import QueryJournal.Column.Decode
import QueryJournal.Column.Encode
import QueryJournal.Proofs.Text.Utf8
import QueryJournal.Proofs.Wire.Address
import QueryJournal.Proofs.Wire.Uuid

/-!
# Columns that take their printed texts

Texts, UUIDs and addresses are printed so that writing the printed text gives
the same bytes again.  So different bytes of a column are printed differently.
A text is read back as itself, if the column has its characters.
-/

namespace QueryJournal.ColumnType

variable {raw : Bytes} {x : Value} {s : String}

/-- The types of texts and of values that are told by their texts. -/
def textual : List ColumnType :=
  [.ascii, .text, .varchar, .uuid, .timeuuid, .inet]

/-- The value prints as a text that is written as the bytes. -/
def PrintsAs (t : ColumnType) (raw : Bytes) (x : Value) : Prop :=
  ∃ s, x.plain = .ok s ∧ encode t (.text s) = .ok raw

/-! ## Seven-bit characters -/

theorem exists_decodeAscii_iff :
    (∃ x, decodeAscii raw = .ok x) ↔ ∀ b ∈ raw, b < 0x80 := by
  rw [decodeAscii]
  by_cases hall : raw.all (· < 0x80) = true
  · rw [if_pos hall]
    refine iff_of_true ⟨_, rfl⟩ ?_
    simpa using hall
  · rw [if_neg hall]
    refine iff_of_false (by simp) ?_
    simpa using hall

theorem encodeAscii_text (h : ∀ c ∈ s.toList, c.toNat < 0x80) :
    encodeAscii (.text s) =
      .ok (s.toList.map fun c => UInt8.ofNat c.toNat) := by
  have hall : s.toList.all (·.toNat < 0x80) = true := by simpa using h
  exact if_pos hall

theorem encodeAscii_text_of_not (h : ¬∀ c ∈ s.toList, c.toNat < 0x80) :
    encodeAscii (.text s) = .error .unencodableText := by
  have hall : ¬s.toList.all (·.toNat < 0x80) = true := by simpa using h
  exact if_neg hall

theorem printsAs_ascii (h : decodeAscii raw = .ok x) :
    PrintsAs .ascii raw x := by
  have hraw := exists_decodeAscii_iff.mp ⟨x, h⟩
  rw [decodeAscii] at h
  split at h
  next =>
    cases h
    have hchar : ∀ b ∈ raw, (Char.ofNat b.toNat).toNat = b.toNat := by
      intro b hb
      exact Text.Utf8.toNat_charOfNat (UInt8.lt_iff_toNat_lt.mp (hraw b hb))
    refine ⟨_, rfl, ?_⟩
    change encodeAscii _ = _
    rw [encodeAscii_text, String.toList_ofList, List.map_map]
    · congr 1
      calc
        _ = raw.map id := by
          apply List.map_congr_left
          intro b hb
          rw [Function.comp_apply, hchar b hb, UInt8.ofNat_toNat, id]
        _ = raw := List.map_id raw
    · intro c hc
      rw [String.toList_ofList] at hc
      obtain ⟨b, hb, rfl⟩ := List.mem_map.mp hc
      rw [hchar b hb]
      exact UInt8.lt_iff_toNat_lt.mp (hraw b hb)
  next => cases h

theorem decodeAscii_of_text (h : ∀ c ∈ s.toList, c.toNat < 0x80) :
    decodeAscii (s.toList.map fun c => UInt8.ofNat c.toNat) = .ok
      (.text s) := by
  have hbyte : ∀ c ∈ s.toList, (UInt8.ofNat c.toNat).toNat = c.toNat :=
    fun c hc => Text.Utf8.toNat_ofNat (Nat.lt_trans (h c hc) (by decide))
  have hall : (s.toList.map fun c => UInt8.ofNat c.toNat).all
      (· < 0x80) = true := by
    rw [List.all_map, List.all_eq_true]
    intro c hc
    rw [Function.comp_apply, decide_eq_true_iff,
      UInt8.lt_iff_toNat_lt, hbyte c hc]
    exact h c hc
  have hback : (s.toList.map fun c => UInt8.ofNat c.toNat).map
      (fun b => Char.ofNat b.toNat) = s.toList := by
    rw [List.map_map]
    calc
      _ = s.toList.map id := by
        apply List.map_congr_left
        intro c hc
        rw [Function.comp_apply, hbyte c hc, Char.ofNat_toNat, id]
      _ = s.toList := List.map_id _
  rw [decodeAscii, if_pos hall, hback, String.ofList_toList]

/-! ## UTF-8 -/

theorem decodeText_eq_ok_iff :
    decodeText raw = .ok x ↔
      ∃ s : String, x = .text s ∧ raw = Text.Utf8.encode s.toList := by
  rw [decodeText]
  constructor
  · intro h
    split at h
    next cs hcs =>
      cases h
      refine ⟨_, rfl, ?_⟩
      rw [String.toList_ofList, Text.Utf8.decode?_eq_some_iff.mp hcs]
    next => cases h
  · rintro ⟨s, rfl, rfl⟩
    rw [Text.Utf8.decode?_encode]
    dsimp only
    rw [String.ofList_toList]

theorem exists_decodeText_iff :
    (∃ x, decodeText raw = .ok x) ↔ raw.toByteArray.IsValidUTF8 := by
  constructor
  · rintro ⟨x, h⟩
    obtain ⟨s, -, rfl⟩ := decodeText_eq_ok_iff.mp h
    exact ⟨s.toList, rfl⟩
  · rintro ⟨cs, h⟩
    refine ⟨.text (String.ofList cs), decodeText_eq_ok_iff.mpr ⟨_, rfl, ?_⟩⟩
    rw [String.toList_ofList]
    exact List.toByteArray_inj.mp h

theorem printsAs_text {t : ColumnType}
    (ht : t ∈ [text, varchar]) (h : decodeText raw = .ok x) :
    PrintsAs t raw x := by
  obtain ⟨s, rfl, rfl⟩ := decodeText_eq_ok_iff.mp h
  refine ⟨s, rfl, ?_⟩
  rcases List.mem_pair.mp ht with rfl | rfl
  · rfl
  · rfl

/-! ## UUIDs and addresses -/

theorem decode_uuid_eq {t : ColumnType}
    (ht : t ∈ [uuid, timeuuid]) (raw : Bytes) :
    decode t raw = match Uuid.ofBytes? raw with
      | some u => .ok (.uuid u)
      | none => .error .badValue := by
  rcases List.mem_pair.mp ht with rfl | rfl
  · rfl
  · rfl

theorem exists_decode_uuid_iff {t : ColumnType} (ht : t ∈ [uuid, timeuuid]) :
    (∃ x, decode t raw = .ok x) ↔ raw.length = 16 := by
  rw [decode_uuid_eq ht, ← Uuid.exists_ofBytes?_iff]
  cases Uuid.ofBytes? raw with
  | none => simp
  | some u => simp

theorem forCodec_text (s : String) : (Value.text s).plain.forCodec = .ok s :=
  rfl

theorem encodeUuid_text {u : Uuid} (h : Uuid.ofText? s = some u) :
    encodeUuid (.text s) = .ok u.toBytes := by
  simp only [encodeUuid, forCodec_text, bind, Except.bind, h]
  rfl

theorem printsAs_uuid {t : ColumnType}
    (ht : t ∈ [uuid, timeuuid]) (h : decode t raw = .ok x) :
    PrintsAs t raw x := by
  rw [decode_uuid_eq ht] at h
  split at h
  next u hu =>
    cases h
    have hencode : encodeUuid (.text u.text) = .ok raw := by
      rw [encodeUuid_text (Uuid.ofText?_text u), Uuid.toBytes_of_ofBytes? hu]
    refine ⟨u.text, rfl, ?_⟩
    rcases List.mem_pair.mp ht with rfl | rfl
    · exact hencode
    · exact hencode
  next => cases h

theorem exists_decode_inet_iff :
    (∃ x, decode .inet raw = .ok x) ↔ raw.length = 4 ∨ raw.length = 16 := by
  rw [← Address.exists_ofBytes?_iff, decode]
  cases Address.ofBytes? raw with
  | none => simp
  | some a => simp

theorem toAddress_text {a : Address} (h : Address.ofText? s = some a) :
    toAddress (.text s) = .ok a := by
  simp only [toAddress, Value.asInt?, forCodec_text, Except.map, bind,
    Except.bind, h]
  rfl

theorem printsAs_inet (h : decode .inet raw = .ok x) :
    PrintsAs .inet raw x := by
  rw [decode] at h
  split at h
  next a ha =>
    cases h
    obtain ⟨hbytes, htext⟩ := Address.of_ofBytes? ha
    refine ⟨a.text, rfl, ?_⟩
    rw [encode, toAddress_text htext, ← hbytes]
    rfl
  next => cases h

/-! ## Printed texts -/

theorem printsAs_of_decode {t : ColumnType}
    (ht : t ∈ textual) (h : decode t raw = .ok x) :
    PrintsAs t raw x := by
  simp only [textual, List.mem_cons, List.not_mem_nil, or_false] at ht
  rcases ht with rfl | rfl | rfl | rfl | rfl | rfl
  · exact printsAs_ascii h
  · exact printsAs_text (by decide) h
  · exact printsAs_text (by decide) h
  · exact printsAs_uuid (by decide) h
  · exact printsAs_uuid (by decide) h
  · exact printsAs_inet h

theorem print_eq_of_mem_textual {t : ColumnType}
    (ht : t ∈ textual) (raw : Bytes) :
    print t raw = (decode t raw).bind fun x => x.plain.forCodec := by
  simp only [textual, List.mem_cons, List.not_mem_nil, or_false] at ht
  rcases ht with rfl | rfl | rfl | rfl | rfl | rfl
  all_goals rfl

theorem exists_print_of_decode {t : ColumnType}
    (ht : t ∈ textual) (h : decode t raw = .ok x) :
    ∃ s, print t raw = .ok s ∧ encode t (.text s) = .ok raw := by
  obtain ⟨s, hplain, hencode⟩ := printsAs_of_decode ht h
  refine ⟨s, ?_, hencode⟩
  rw [print_eq_of_mem_textual ht, h]
  change x.plain.forCodec = _
  rw [hplain]
  rfl

theorem encode_of_print {t : ColumnType}
    (ht : t ∈ textual) (h : print t raw = .ok s) :
    encode t (.text s) = .ok raw := by
  cases hdecode : decode t raw with
  | error fault =>
    rw [print_eq_of_mem_textual ht, hdecode] at h
    cases h
  | ok x =>
    obtain ⟨s', hprint, hencode⟩ := exists_print_of_decode ht hdecode
    rw [hprint] at h
    cases h
    exact hencode

theorem exists_encode_text {t : ColumnType}
    (ht : t ∈ [text, varchar]) (s : String) :
    ∃ raw, encode t (.text s) = .ok raw ∧ decode t raw = .ok (.text s) := by
  have hread : decodeText (Text.Utf8.encode s.toList) = .ok (.text s) :=
    decodeText_eq_ok_iff.mpr ⟨s, rfl, rfl⟩
  rcases List.mem_pair.mp ht with rfl | rfl
  · exact ⟨_, rfl, hread⟩
  · exact ⟨_, rfl, hread⟩

/-- Whatever bytes a column of texts, UUIDs or addresses takes, writing what is
printed of them gives them again, so no two are printed alike.  Texts are read
back as they were written, unless seven bits do not hold their characters. -/
theorem printed_texts_bind_back :
    (∀ raw,
      ((∃ x, decode .ascii raw = .ok x) ↔ ∀ b ∈ raw, b < 0x80) ∧
      (∀ t ∈ [text, varchar],
        (∃ x, decode t raw = .ok x) ↔ raw.toByteArray.IsValidUTF8) ∧
      (∀ t ∈ [uuid, timeuuid], (∃ x, decode t raw = .ok x) ↔ raw.length = 16) ∧
      ((∃ x, decode .inet raw = .ok x) ↔ raw.length = 4 ∨ raw.length = 16)) ∧
    (∀ t ∈ textual, ∀ raw,
      (∀ x, decode t raw = .ok x →
        ∃ s, print t raw = .ok s ∧ encode t (.text s) = .ok raw) ∧
      ∀ other s, print t raw = .ok s → print t other = .ok s → raw = other) ∧
    (∀ t ∈ [text, varchar], ∀ s,
      ∃ raw, encode t (.text s) = .ok raw ∧ decode t raw = .ok (.text s)) ∧
    ∀ s : String,
      ((∀ c ∈ s.toList, c.toNat < 0x80) →
        ∃ raw, encode .ascii (.text s) = .ok raw ∧
          decode .ascii raw = .ok (.text s)) ∧
      (¬(∀ c ∈ s.toList, c.toNat < 0x80) →
        encode .ascii (.text s) = .error .unencodableText) := by
  refine ⟨?_, ?_, fun t ht s => exists_encode_text ht s, ?_⟩
  · intro raw
    refine ⟨exists_decodeAscii_iff, ?_, fun t ht => exists_decode_uuid_iff ht,
      exists_decode_inet_iff⟩
    intro t ht
    rcases List.mem_pair.mp ht with rfl | rfl
    · exact exists_decodeText_iff
    · exact exists_decodeText_iff
  · intro t ht raw
    refine ⟨fun x hx => exists_print_of_decode ht hx, ?_⟩
    intro other s hraw hother
    have hencode := encode_of_print ht hraw
    rw [encode_of_print ht hother] at hencode
    cases hencode
    rfl
  · intro s
    exact ⟨fun h => ⟨_, encodeAscii_text h, decodeAscii_of_text h⟩,
      encodeAscii_text_of_not⟩

/-- Of two runs of zeros that are equally long the first is left out, and the
bytes are found again. -/
theorem printed_texts_bind_back_of_zeros :
    print .inet [0x20, 0x01, 0x0d, 0xb8, 0, 0, 0, 0, 0, 1, 0, 0, 0, 0, 0, 1] =
        .ok "2001:db8::1:0:0:1" ∧
      encode .inet (.text "2001:db8::1:0:0:1") =
        .ok [0x20, 0x01, 0x0d, 0xb8, 0, 0, 0, 0, 0, 1, 0, 0, 0, 0, 0, 1] := by
  obtain ⟨haccept, hprint, -, -⟩ := printed_texts_bind_back
  obtain ⟨x, hx⟩ :=
    (haccept [0x20, 0x01, 0x0d, 0xb8, 0, 0, 0, 0, 0, 1, 0, 0, 0, 0, 0,
      1]).2.2.2.mpr (.inr rfl)
  obtain ⟨s, hs, hencode⟩ := (hprint .inet (by decide) _).1 x hx
  have htext : print .inet [0x20, 0x01, 0x0d, 0xb8, 0, 0, 0, 0, 0, 1, 0,
      0, 0, 0, 0, 1] =
      .ok "2001:db8::1:0:0:1" := by decide +kernel
  rw [htext] at hs
  cases hs
  exact ⟨htext, hencode⟩

end QueryJournal.ColumnType

import QueryJournal.Proofs.Column.Integer
import QueryJournal.Proofs.Results
import QueryJournal.Proofs.Text.Utf8

/-!
# How many bytes a value takes

Most types fix the number of bytes of their values, and the others but four need
at least one byte.  Texts and blobs alone may have no bytes at all, and of which
values that is so is said here without the codecs.
-/

namespace QueryJournal

/-- A value stands for no bytes in a blob: it holds none, or is zero itself. -/
def Value.HoldsNoBytes : Value → Prop
  | .bytes bs => bs = []
  | .list xs | .tuple xs => xs = []
  | .mapping entries => entries = []
  | v => v.asInt? = some 0

namespace ColumnType

/-- The types of texts, whatever their characters. -/
def ofTexts : List ColumnType :=
  [ascii, text, varchar]

/-- The numbers of bytes that the values of a type may have. -/
def HasSize (t : ColumnType) (size : ℕ) : Prop :=
  match t with
  | .tinyint | .boolean => size = 1
  | .smallint => size = 2
  | .int | .float => size = 4
  | .bigint | .counter | .double | .timestamp => size = 8
  | .uuid | .timeuuid => size = 16
  | .inet => size = 4 ∨ size = 16
  | .varint => 1 ≤ size
  | .decimal => 5 ≤ size
  | .ascii | .text | .varchar | .blob => True

/-- A column of the type takes a value as no bytes at all. -/
def TakesAsEmpty (t : ColumnType) (v : Value) : Prop :=
  t ∈ ofTexts ∧ v.plain = .ok "" ∨ t = .blob ∧ v.HoldsNoBytes

variable {t : ColumnType} {v : Value} {raw : Bytes}

/-! ## The sizes of single types -/

theorem length_of_encodeFixed {width : ℕ} (h : encodeFixed width v = .ok raw) :
    raw.length = width := by
  rw [encodeFixed] at h
  split at h
  · split at h
    · cases h
      exact BigEndian.length_ofInt _ _
    · cases h
  · cases h

theorem length_of_encodeSingle (h : encodeSingle v = .ok raw) :
    raw.length = 4 := by
  obtain ⟨x, -, h⟩ := exists_of_bind_eq_ok h
  dsimp only at h
  split at h
  · cases h
  · cases h
    exact BigEndian.length_ofNat _ _

theorem length_of_encodeDouble (h : encodeDouble v = .ok raw) :
    raw.length = 8 := by
  obtain ⟨x, -, rfl⟩ := exists_of_map_eq_ok h
  exact BigEndian.length_ofNat _ _

theorem length_of_encodeTimestamp (h : encodeTimestamp v = .ok raw) :
    raw.length = 8 := by
  unfold encodeTimestamp at h
  split at h
  · exact length_of_encodeFixed h
  · exact length_of_encodeFixed h

theorem one_le_length_ofIntAny (n : ℤ) : 1 ≤ (BigEndian.ofIntAny n).length := by
  rw [BigEndian.length_ofIntAny]
  omega

theorem one_le_length_of_encodeVarint (h : encodeVarint v = .ok raw) :
    1 ≤ raw.length := by
  rw [encodeVarint] at h
  split at h
  · cases h
    exact one_le_length_ofIntAny _
  · cases h

theorem five_le_length_of_encodeDecimal (h : encodeDecimal v = .ok raw) :
    5 ≤ raw.length := by
  obtain ⟨d, -, h⟩ := exists_of_bind_eq_ok h
  split at h
  · split at h
    · cases h
    · split at h
      · cases h
        rw [List.length_append, BigEndian.length_ofInt]
        exact Nat.add_le_add_left (one_le_length_ofIntAny _) 4
      · cases h
  · obtain ⟨s, -, h⟩ := exists_of_bind_eq_ok h
    cases h

theorem length_toBytes_uuid (u : Uuid) : u.toBytes.length = 16 :=
  BigEndian.length_ofNat _ _

theorem length_of_encodeUuid (h : encodeUuid v = .ok raw) :
    raw.length = 16 := by
  unfold encodeUuid at h
  split at h
  next u =>
    have hbytes : u.toBytes = raw := Except.ok.inj h
    rw [← hbytes, length_toBytes_uuid]
  next =>
    obtain ⟨s, -, h⟩ := exists_of_bind_eq_ok h
    split at h
    next u _ =>
      have hbytes : u.toBytes = raw := Except.ok.inj h
      rw [← hbytes, length_toBytes_uuid]
    next => cases h

theorem length_toBytes_address (a : Address) :
    a.toBytes.length = 4 ∨ a.toBytes.length = 16 := by
  cases a with
  | v4 n => exact .inl (BigEndian.length_ofNat _ _)
  | v6 n zone => exact .inr (BigEndian.length_ofNat _ _)

/-- All values that a type takes have a size of the type. -/
theorem hasSize_of_encode (h : encode t v = .ok raw) :
    t.HasSize raw.length := by
  cases t with
  | ascii | text | varchar | blob => trivial
  | tinyint | smallint | int | bigint | counter => exact length_of_encodeFixed h
  | float => exact length_of_encodeSingle h
  | double => exact length_of_encodeDouble h
  | varint => exact one_le_length_of_encodeVarint h
  | decimal => exact five_le_length_of_encodeDecimal h
  | boolean =>
    cases h
    rfl
  | uuid | timeuuid => exact length_of_encodeUuid h
  | timestamp => exact length_of_encodeTimestamp h
  | inet =>
    obtain ⟨a, -, rfl⟩ := exists_of_map_eq_ok h
    exact length_toBytes_address a

/-- Only texts and blobs may have no bytes. -/
theorem HasSize.pos (h : t.HasSize raw.length) (htexts : t ∉ ofTexts)
    (hblob : t ≠ .blob) :
    0 < raw.length := by
  cases t with
  | ascii | text | varchar => exact absurd (by decide) htexts
  | blob => exact absurd rfl hblob
  | inet =>
    rcases h with h | h
    · rw [h]
      decide
    · rw [h]
      decide
  | varint => exact h
  | decimal => exact Nat.lt_of_lt_of_le (by decide) h
  | _ =>
    have hlength : raw.length = _ := h
    rw [hlength]
    decide

/-! ## Values without bytes -/

theorem forCodec_eq_ok_iff {p : Printed} {s : String} :
    p.forCodec = .ok s ↔ p = .ok s :=
  mapError_eq_ok_iff

theorem encodeAscii_eq_nil_iff : encodeAscii v = .ok [] ↔ v.plain = .ok "" := by
  rw [← forCodec_eq_ok_iff]
  constructor
  · intro h
    obtain ⟨s, hs, h⟩ := exists_of_bind_eq_ok h
    split at h
    · have hnone : s.toList.map (fun c => UInt8.ofNat c.toNat) = [] :=
        Except.ok.inj h
      rw [hs, String.toList_eq_nil_iff.mp (List.map_eq_nil_iff.mp hnone)]
    · cases h
  · intro h
    rw [encodeAscii, h]
    rfl

theorem encodeText_eq_nil_iff : encodeText v = .ok [] ↔ v.plain = .ok "" := by
  rw [← forCodec_eq_ok_iff]
  constructor
  · intro h
    obtain ⟨s, hs, hbytes⟩ := exists_of_map_eq_ok h
    have hread := Text.Utf8.decode?_encode s.toList
    rw [hbytes] at hread
    have hnone : s.toList = [] := (Option.some.inj hread).symm
    rw [hs, String.toList_eq_nil_iff.mp hnone]
  · intro h
    rw [encodeText, h]
    rfl

theorem zeros_eq_nil_iff (n : ℤ) : zeros n = .ok [] ↔ n = 0 := by
  constructor
  · intro h
    unfold zeros at h
    split at h
    · cases h
    split at h
    · cases h
    next hsign =>
      split at h
      · cases h
      split at h
      · cases h
      · have hbytes : List.replicate n.toNat (0 : UInt8) = [] := Except.ok.inj h
        have hnone : n.toNat = 0 := by simpa using hbytes
        omega
  · rintro rfl
    rfl

theorem mapM_eq_nil_iff {α : Type} {f : α → Except CodecFault UInt8}
    {xs : List α} :
    xs.mapM f = .ok [] ↔ xs = [] := by
  cases xs with
  | nil => exact iff_of_true rfl rfl
  | cons x xs =>
    refine iff_of_false ?_ (List.cons_ne_nil x xs)
    rw [List.mapM_cons]
    intro h
    obtain ⟨b, -, h⟩ := exists_of_bind_eq_ok h
    obtain ⟨bs, -, h⟩ := exists_of_bind_eq_ok h
    cases h

theorem encodeBlob_eq_nil_iff : encodeBlob v = .ok [] ↔ v.HoldsNoBytes := by
  cases v with
  | bytes bs => exact ⟨Except.ok.inj, congrArg Except.ok⟩
  | list xs | tuple xs => exact mapM_eq_nil_iff
  | mapping entries => exact mapM_eq_nil_iff
  | truth b | int n => exact (zeros_eq_nil_iff _).trans (Option.some_inj).symm
  | _ => exact iff_of_false nofun nofun

/-- The values of which a column makes no bytes. -/
theorem encode_eq_nil_iff : encode t v = .ok [] ↔ t.TakesAsEmpty v := by
  have hother : t ∉ ofTexts → t ≠ .blob →
      (encode t v = .ok [] ↔ t.TakesAsEmpty v) := by
    intro htexts hblob
    refine iff_of_false ?_ ?_
    · intro h
      exact absurd ((hasSize_of_encode h).pos htexts hblob) (Nat.lt_irrefl 0)
    · rintro (⟨h, -⟩ | ⟨h, -⟩)
      · exact htexts h
      · exact hblob h
  cases t with
  | ascii =>
    exact encodeAscii_eq_nil_iff.trans (by simp [TakesAsEmpty, ofTexts])
  | text | varchar =>
    exact encodeText_eq_nil_iff.trans (by simp [TakesAsEmpty, ofTexts])
  | blob => exact encodeBlob_eq_nil_iff.trans (by simp [TakesAsEmpty, ofTexts])
  | _ => exact hother (by decide) nofun

end ColumnType

end QueryJournal

import QueryJournal.Proofs.Column.Malformed
import QueryJournal.Proofs.Column.Sizes

/-!
# The text of no value

The text that stands for no value is not the text of any value, unless the
column holds texts. Most texts of values lack one of its letters, and the others
are read back, which it is not. A text that was cut ends with the mark of the
cut.
-/

namespace QueryJournal

/-! ## Texts without a letter of the null text -/

theorem ne_nullText_of_not_mem {s : String} (h : 'U' ∉ s.toList) :
    s ≠ nullText := by
  rintro rfl
  exact h (by decide)

theorem Moment.not_mem_millisText (t : Moment) : 'U' ∉ t.millisText.toList := by
  have hpadded : ∀ width n, 'U' ∉ (Number.padded width n).toList :=
    Number.not_mem_padded (by decide)
  have hyear : ∀ width n, 'U' ∉ (Number.paddedText width n).toList :=
    Number.not_mem_paddedText (by decide) (by decide)
  have hoffset : ∀ n, 'U' ∉ (offsetText n).toList := by
    intro n
    have hsign : 'U' ∉ (if n < 0 then "-" else "+").toList := by
      split <;> decide
    simp [offsetText, hsign, hpadded]
  have hzone : 'U' ∉ t.zoneText.toList := by
    rw [zoneText]
    cases t.offset with
    | none => exact List.not_mem_nil
    | some n => exact hoffset n
  simp [millisText, dateText, timeText, hpadded, hyear, hzone]

theorem Binary.not_mem_text (x : Binary) : 'U' ∉ x.text.toList := by
  have hwrite : ∀ {ds}, Number.AreDigits ds →
      ∀ point, 'U' ∉ (readable.write ds point).toList :=
    fun hds point h => absurd (mem_write readable hds point _ h) (by decide)
  cases x with
  | nan negative =>
    change 'U' ∉ "nan".toList
    decide
  | infinity negative => cases negative <;> decide
  | finite negative m q =>
    have hsign : 'U' ∉ (if negative then "-" else "").toList := by
      cases negative <;> decide
    rw [text, Layout.finiteText]
    dsimp only
    split
    · rw [String.toList_append, List.mem_append, not_or]
      exact ⟨hsign, hwrite (Number.areDigits_digits 0) 1⟩
    · rw [String.toList_append, List.mem_append, not_or]
      exact ⟨hsign, hwrite (areDigits_significantDigits _) _⟩

theorem Decimal.not_mem_placed {ds : List Char} (hds : 'U' ∉ ds) (point : ℤ) :
    'U' ∉ placed ds point := by
  rw [placed]
  split
  · simp [hds]
  · split
    · simp [hds]
    · have htake : 'U' ∉ ds.take point.toNat := fun h =>
        hds (List.mem_of_mem_take h)
      have hdrop : 'U' ∉ ds.drop point.toNat :=
        fun h => hds (List.mem_of_mem_drop h)
      simp [htake, hdrop]

theorem Decimal.not_mem_text (d : Decimal) : 'U' ∉ d.text.toList := by
  have hsign : ∀ negative : Bool,
      'U' ∉ (if negative then "-" else "").toList := by decide
  cases d with
  | infinity negative => cases negative <;> decide
  | nan signalling negative payload =>
    have hname : 'U' ∉ (if signalling then "sNaN" else "NaN").toList := by
      cases signalling <;> decide
    have hpayload :
        'U' ∉ (if payload = 0 then "" else Number.text payload).toList := by
      split
      · exact List.not_mem_nil
      · exact Number.not_mem_text (by decide) (by decide) _
    simp only [text, String.toList_append, List.mem_append, not_or]
    exact ⟨⟨hsign negative, hname⟩, hpayload⟩
  | finite negative c e =>
    have hplaced := not_mem_placed (Number.not_mem_digits (by decide) c)
    rw [text, String.toList_append, List.mem_append, not_or]
    refine ⟨hsign negative, ?_⟩
    rw [finiteText]
    dsimp only
    split
    · rw [String.toList_ofList]
      exact hplaced _
    · have hexponent : ∀ point : ℤ,
          'U' ∉ (if point < 0 then "-" else "+").toList := by
        intro point
        split <;> decide
      simp only [String.toList_append, String.toList_ofList,
        List.mem_append, not_or]
      exact ⟨⟨⟨hplaced 1, by decide⟩, hexponent _⟩,
        Number.not_mem_text (by decide) (by decide) _⟩

/-! ## The texts of values -/

namespace ColumnType

variable {t : ColumnType} {raw : Bytes} {s : String}

theorem exists_print_integer {width : ℕ} (ht : t.integerWidth? = some width)
    (h : print t raw = .ok s) : ∃ n, s = Number.text n := by
  rw [print_eq_of_integerWidth ht] at h
  obtain ⟨x, hdecode, hplain⟩ := exists_of_bind_eq_ok h
  obtain ⟨n, rfl, -⟩ := encode_of_decode ht hdecode
  exact ⟨n, (Except.ok.inj hplain).symm⟩

theorem exists_print_float (h : print .float raw = .ok s) :
    ∃ x : Binary, s = x.text := by
  obtain ⟨x, -, h⟩ := exists_of_bind_eq_ok h
  cases x with
  | finite negative m q =>
    rw [Binary.singleText?] at h
    split at h
    next hsome =>
      split at hsome
      · cases hsome
      · cases hsome
        cases h
        exact ⟨_, rfl⟩
      · cases hsome
        cases h
        exact ⟨_, rfl⟩
    next => cases h
  | infinity negative =>
    cases h
    exact ⟨.infinity negative, rfl⟩
  | nan negative =>
    cases h
    exact ⟨.nan negative, rfl⟩

theorem exists_print_double (h : print .double raw = .ok s) :
    ∃ x : Binary, s = x.text := by
  obtain ⟨v, hdecode, hplain⟩ := exists_of_bind_eq_ok h
  obtain ⟨x, -, rfl⟩ := exists_of_map_eq_ok hdecode
  exact ⟨x, (Except.ok.inj hplain).symm⟩

theorem exists_print_decimal (h : print .decimal raw = .ok s) :
    ∃ d : Decimal, s = d.text := by
  obtain ⟨v, hdecode, hplain⟩ := exists_of_bind_eq_ok h
  change decodeDecimal raw = .ok v at hdecode
  rw [decodeDecimal] at hdecode
  split at hdecode
  · cases hdecode
  · dsimp only at hdecode
    split at hdecode
    · cases hdecode
    · split at hdecode
      next d _ =>
        cases hdecode
        exact ⟨d, (Except.ok.inj hplain).symm⟩
      next => cases hdecode

theorem exists_print_varint (h : print .varint raw = .ok s) :
    ∃ n, s = Number.text n := by
  change printVarint raw = .ok s at h
  rw [printVarint] at h
  split at h
  · cases h
  · exact ⟨_, (Except.ok.inj h).symm⟩

/-- A text that is read back is the null text only if that is read, too. -/
theorem print_ne_of_refused (fault : CodecFault) (ht : t ∈ textual)
    (hrefused : encode t (.text nullText) = .error fault) :
    print t raw ≠ .ok nullText := by
  intro h
  have hencode := encode_of_print ht h
  rw [hrefused] at hencode
  cases hencode

/-- No value but a text has the text that stands for no value. -/
theorem print_ne_nullText (ht : t ∉ ofTexts) (raw : Bytes) :
    print t raw ≠ .ok nullText := by
  intro h
  cases t with
  | ascii | text | varchar => exact ht (by decide)
  | tinyint | smallint | int | bigint | counter =>
    obtain ⟨n, hn⟩ := exists_print_integer rfl h
    exact ne_nullText_of_not_mem
      (Number.not_mem_text (by decide) (by decide) n) hn.symm
  | varint =>
    obtain ⟨n, hn⟩ := exists_print_varint h
    exact ne_nullText_of_not_mem
      (Number.not_mem_text (by decide) (by decide) n) hn.symm
  | float =>
    obtain ⟨x, hx⟩ := exists_print_float h
    exact ne_nullText_of_not_mem x.not_mem_text hx.symm
  | double =>
    obtain ⟨x, hx⟩ := exists_print_double h
    exact ne_nullText_of_not_mem x.not_mem_text hx.symm
  | decimal =>
    obtain ⟨d, hd⟩ := exists_print_decimal h
    exact ne_nullText_of_not_mem d.not_mem_text hd.symm
  | timestamp =>
    obtain ⟨t, -, hmoment⟩ := exists_of_map_eq_ok h
    exact ne_nullText_of_not_mem t.not_mem_millisText hmoment
  | boolean =>
    have htext : (if decodeBoolean raw then "true" else "false") = nullText :=
      Except.ok.inj h
    split at htext
    · exact absurd htext (by decide)
    · exact absurd htext (by decide)
  | blob =>
    have htext : "0x" ++ Text.Hex.ofBytes raw = nullText := Except.ok.inj h
    have hlists := congrArg String.toList htext
    rw [String.toList_append] at hlists
    exact absurd (List.cons.inj hlists).1 (by decide)
  | uuid | timeuuid | inet =>
    exact print_ne_of_refused .badValue (by decide) rfl h

end ColumnType

/-! ## Cutting -/

/-- A text that was cut ends with the mark of the cut. -/
theorem Text.eq_nullText_of_cut {limit : ℤ} {s : String}
    (h : cut limit s = nullText) :
    s = nullText := by
  rw [cut] at h
  split at h
  · exact h
  · have hmark : ellipsis.toList.getLast? = some '.' := by decide
    have hlast := congrArg (fun text => text.toList.getLast?) h
    simp only [String.toList_append, List.getLast?_append, hmark,
      Option.some_or] at hlast
    exact absurd hlast (by decide)

/-- A value of another column than one of texts is never shown as no value. -/
theorem BoundValue.render_ne_nullText {v : BoundValue}
    (hnull : v.isNull = false) (ht : v.type ∉ ColumnType.ofTexts) (limit : ℤ) :
    v.render limit ≠ .ok nullText := by
  intro h
  rw [render, hnull, if_neg Bool.false_ne_true] at h
  split at h
  next s hprint =>
    have hs := Text.eq_nullText_of_cut (Except.ok.inj h)
    rw [hs] at hprint
    exact ColumnType.print_ne_nullText ht v.bytes hprint
  next => cases h

end QueryJournal

import QueryJournal.Proofs.Json.Normal
import QueryJournal.Proofs.Results
import QueryJournal.Proofs.Text.Utf8

/-!
# Written documents

An engine writes a value by asking for the texts in it one after the other.  If
all of them are there, the value is written as one document, whose value is the
normal form; otherwise the first one that is not there decides.
-/

namespace QueryJournal.Json

/-! ## The document of a value -/

/-- The text that a key or a string is written with. -/
def Script.name (s : Script) (hook : Hook) : Value → String
  | .int n => Number.text n
  | .float x => s.floatKey x
  | v => (nativeText? v).getD ((hook v).toOption.getD "")

mutual

/-- The document that a value is written as. -/
def document (s : Script) (hook : Hook) : Value → Document
  | .null => .null
  | .truth b => .truth b
  | .int n => .int n
  | .float x => if x.isFinite then .real x (s.number x) else .null
  | .list xs | .tuple xs => .list (documentsOf s hook xs)
  | .mapping entries => .object (documentsIn s hook entries)
  | v => .text (s.quote (s.name hook v))

/-- The documents that some values are written as. -/
def documentsOf (s : Script) (hook : Hook) : List Value → List Document
  | [] => []
  | x :: xs => document s hook x :: documentsOf s hook xs

/-- The members that keys with their values are written as. -/
def documentsIn (s : Script) (hook : Hook) :
    List (Value × Value) → List (List Piece × Document)
  | [] => []
  | (k, v) :: entries =>
    (s.quote (s.name hook k), document s hook v) :: documentsIn s hook entries

end

section Shape

variable (s : Script) (hook : Hook)

mutual

theorem depth_document (v : Value) : (document s hook v).depth = v.depth := by
  cases v with
  | float x =>
    rw [document]
    split
    · rfl
    · rfl
  | list xs => rw [document, Document.depth, Value.depth, depth_documentsOf xs]
  | tuple xs => rw [document, Document.depth, Value.depth, depth_documentsOf xs]
  | mapping entries =>
    rw [document, Document.depth, Value.depth, depth_documentsIn entries]
  | _ => rfl

theorem depth_documentsOf (xs : List Value) :
    Document.depthOf (documentsOf s hook xs) = Value.depthOf xs := by
  cases xs with
  | nil => rfl
  | cons x xs =>
    rw [documentsOf, Document.depthOf, Value.depthOf, depth_document x,
      depth_documentsOf xs]

theorem depth_documentsIn (entries : List (Value × Value)) :
    Document.depthIn (documentsIn s hook entries) = Value.depthIn entries := by
  cases entries with
  | nil => rfl
  | cons e entries =>
    obtain ⟨k, v⟩ := e
    rw [documentsIn, Document.depthIn, Value.depthIn, depth_document v,
      depth_documentsIn entries]

end

variable {s hook} {test : Document → Bool} {of within : Value → Bool}

theorem allLeavesOf_documentsOf {xs : List Value}
    (h : ∀ x ∈ xs, (document s hook x).allLeaves test = x.allLeaves of) :
    Document.allLeavesOf test (documentsOf s hook xs) =
      Value.allLeavesOf of xs := by
  induction xs with
  | nil => rfl
  | cons x xs ih =>
    rw [documentsOf, Document.allLeavesOf, Value.allLeavesOf,
      h x List.mem_cons_self, ih fun y hy => h y (List.mem_cons_of_mem x hy)]

theorem allLeavesIn_documentsIn {entries : List (Value × Value)}
    (h : ∀ e ∈ entries,
      (document s hook e.2).allLeaves test = e.2.allLeaves of) :
    Document.allLeavesIn test (documentsIn s hook entries) =
      Value.allLeavesIn of entries := by
  induction entries with
  | nil => rfl
  | cons e entries ih =>
    obtain ⟨k, v⟩ := e
    have hfirst : (document s hook v).allLeaves test = v.allLeaves of :=
      h (k, v) List.mem_cons_self
    rw [documentsIn, Document.allLeavesIn, Value.allLeavesIn, hfirst,
      ih fun e he => h e (List.mem_cons_of_mem (k, v) he)]

/-- A test of documents agrees with a test of values if it does on the
leaves. -/
theorem allLeaves_document
    (hleaf : ∀ v, v.hasItems = false → within v = true →
      (document s hook v).allLeaves test = of v)
    {v : Value} (h : v.allLeaves within = true) :
    (document s hook v).allLeaves test = v.allLeaves of := by
  induction v using Value.induction_on_items with
  | leaf v hv =>
    rw [Value.allLeaves_of_not_hasItems hv] at h ⊢
    exact hleaf v hv h
  | list xs ih =>
    exact allLeavesOf_documentsOf fun x hx =>
      ih x hx (Value.allLeavesOf_iff.mp h x hx)
  | tuple xs hlist => exact hlist h
  | mapping entries ih =>
    exact allLeavesIn_documentsIn fun e he =>
      ih e he (Value.allLeavesIn_iff.mp h e he)

end Shape

/-- An integer is readable if its text is short enough; all else always is. -/
def isReadable : Value → Bool
  | .int n => isShort n
  | _ => true

variable {s : Script} {hook : Hook}

theorem isReadable_document (v : Value) :
    (document s hook v).isReadable = v.allLeaves isReadable := by
  have hleaf : ∀ v : Value, v.hasItems = false → true = true →
      (document s hook v).allLeaves Document.isShort = isReadable v := by
    intro v hv _
    cases v with
    | float x =>
      rw [document]
      split
      · rfl
      · rfl
    | list xs => cases hv
    | tuple xs => cases hv
    | mapping entries => cases hv
    | _ => rfl
  have hall : v.allLeaves (fun _ => true) = true := by
    induction v using Value.induction_on_items with
    | leaf v hv => rw [Value.allLeaves_of_not_hasItems hv]
    | list xs ih => exact Value.allLeavesOf_iff.mpr ih
    | tuple xs h => exact h
    | mapping entries ih => exact Value.allLeavesIn_iff.mpr ih
  exact allLeaves_document hleaf hall

theorem isExact_document {v : Value}
    (h : v.allLeaves (fun leaf => !leaf.isFloat) = true) :
    (document s hook v).allLeaves Document.isExact = true := by
  have hleaf : ∀ v : Value, v.hasItems = false → (!v.isFloat) = true →
      (document s hook v).allLeaves Document.isExact = !v.isFloat := by
    intro v hv hfloat
    cases v with
    | float x => cases hfloat
    | list xs => cases hv
    | tuple xs => cases hv
    | mapping entries => cases hv
    | _ => rfl
  rw [allLeaves_document hleaf h, h]

/-! ## The value of the document -/

section Values

variable {p : Platform}

theorem name_eq_shownKey (v : Value) :
    s.name p.hook v = shownKey p s.floatKey v := by
  cases v with
  | _ => rfl

theorem value_of_text
    (hmeaning : ∀ t, Piece.meaning (s.quote t) = t) {v : Value}
    (h : document s p.hook v = .text (s.quote (s.name p.hook v))) :
    (document s p.hook v).value = .text (shownKey p s.floatKey v) := by
  rw [h, Document.value, hmeaning, name_eq_shownKey]

theorem valuesOf_documentsOf {xs : List Value}
    (h : ∀ x ∈ xs, (document s p.hook x).value = normal p s.floatKey x) :
    Document.valuesOf (documentsOf s p.hook xs) =
      normalAll p s.floatKey xs := by
  induction xs with
  | nil => rfl
  | cons x xs ih =>
    rw [documentsOf, Document.valuesOf, normalAll, h x List.mem_cons_self,
      ih fun y hy => h y (List.mem_cons_of_mem x hy)]

theorem valuesIn_documentsIn (hmeaning : ∀ t, Piece.meaning (s.quote t) = t)
    {entries : List (Value × Value)}
    (h : ∀ e ∈ entries,
      (document s p.hook e.2).value = normal p s.floatKey e.2) :
    Document.valuesIn (documentsIn s p.hook entries) =
      normalEntries p s.floatKey entries := by
  induction entries with
  | nil => rfl
  | cons e entries ih =>
    obtain ⟨k, v⟩ := e
    have hfirst : (document s p.hook v).value = normal p s.floatKey v :=
      h (k, v) List.mem_cons_self
    rw [documentsIn, Document.valuesIn, normalEntries, hmeaning,
      name_eq_shownKey, hfirst,
      ih fun e he => h e (List.mem_cons_of_mem (k, v) he)]

theorem value_of_not_hasItems
    (hmeaning : ∀ t, Piece.meaning (s.quote t) = t) {v : Value}
    (h : v.hasItems = false) :
    (document s p.hook v).value = normal p s.floatKey v := by
  cases v with
  | null => rfl
  | truth b => rfl
  | int n => rfl
  | float x =>
    rw [document, normal]
    split
    · rfl
    · rfl
  | list xs => cases h
  | tuple xs => cases h
  | mapping entries => cases h
  | _ => exact value_of_text hmeaning rfl

/-- The document of a value stands for its normal form. -/
theorem value_document
    (hmeaning : ∀ t, Piece.meaning (s.quote t) = t) (v : Value) :
    (document s p.hook v).value = normal p s.floatKey v := by
  induction v using Value.induction_on_items with
  | leaf v hv => exact value_of_not_hasItems hmeaning hv
  | list xs ih => rw [document, Document.value, normal, valuesOf_documentsOf ih]
  | tuple xs hlist => exact hlist
  | mapping entries ih =>
    rw [document, Document.value, normal, valuesIn_documentsIn hmeaning ih]

end Values

/-! ## Results under conversions -/

section Attempts

variable {α β : Type} {xs ys : List Value} {a : α} {b : β}

/-- Why a conversion fails, unless it does not. -/
def obstacle? (hook : Hook) (x : Value) : Option Failure :=
  match converted hook x with
  | .ok _ => none
  | .error f => some f

/-- A result that is had if some conversions succeed, which are made one after
the other. -/
def attempt (hook : Hook) (xs : List Value) (a : α) : Except Fault α :=
  match xs.findSome? (obstacle? hook) with
  | none => .ok a
  | some f => .error (.thrown f)

theorem attempt_map {f : α → β} :
    (attempt hook xs a).map f = attempt hook xs (f a) := by
  unfold attempt
  cases xs.findSome? (obstacle? hook) with
  | none => rfl
  | some f => rfl

theorem attempt_bind {next : α → Except Fault β}
    (h : next a = attempt hook ys b) :
    (attempt hook xs a >>= next) = attempt hook (xs ++ ys) b := by
  rw [attempt, attempt, List.findSome?_append]
  cases xs.findSome? (obstacle? hook) with
  | none => exact h
  | some f => rfl

/-- A text that is there if a conversion succeeds. -/
theorem mapError_eq_attempt {x : Value} {text : String}
    (h : ∀ t, converted hook x = .ok t → text = t) :
    (converted hook x).mapError .thrown = attempt hook [x] text := by
  have hobstacle : [x].findSome? (obstacle? hook) = obstacle? hook x := by
    rw [List.findSome?_singleton]
  rw [attempt, hobstacle, obstacle?]
  cases hx : converted hook x with
  | ok t => rw [h t hx, Except.mapError]
  | error f => rfl

theorem obstacle?_eq_none_iff {x : Value} :
    obstacle? hook x = none ↔ ∃ t, converted hook x = .ok t := by
  unfold obstacle?
  cases converted hook x with
  | ok t => simp
  | error f => simp

theorem attempt_eq_ok_iff {c : α} :
    attempt hook xs a = .ok c ↔
      (∀ x ∈ xs, ∃ t, converted hook x = .ok t) ∧ c = a := by
  have hnone : xs.findSome? (obstacle? hook) = none ↔
      ∀ x ∈ xs, ∃ t, converted hook x = .ok t := by
    rw [List.findSome?_eq_none_iff]
    exact forall₂_congr fun x _ => obstacle?_eq_none_iff
  rw [← hnone]
  unfold attempt
  cases xs.findSome? (obstacle? hook) with
  | none => simp [eq_comm]
  | some f => simp

end Attempts

/-! ## Conversions of items -/

section Items

variable {xs : List Value} {entries : List (Value × Value)}

theorem converts_list_iff :
    Converts hook (.list xs) ↔ ∀ x ∈ xs, Converts hook x := by
  unfold Converts
  rw [conversions]
  induction xs with
  | nil => simp [conversionsOf]
  | cons x xs ih =>
    rw [conversionsOf, List.forall_mem_append, ih, List.forall_mem_cons]

theorem converts_mapping_iff :
    Converts hook (.mapping entries) ↔
      ∀ e ∈ entries, (isConvertedKey e.1 = true → ∃ t,
        converted hook e.1 = .ok t) ∧
        Converts hook e.2 := by
  unfold Converts
  rw [conversions]
  induction entries with
  | nil => simp [conversionsIn]
  | cons e entries ih =>
    obtain ⟨k, v⟩ := e
    rw [conversionsIn, List.forall_mem_append, List.forall_mem_append, ih,
      List.forall_mem_cons, and_assoc]
    refine and_congr_left fun _ => ?_
    cases isConvertedKey k with
    | true => simp
    | false => simp

end Items

/-! ## Writing makes its conversions in order -/

theorem name_of_converted {v : Value} (hnative : nativeText? v = none)
    (hfloat : v.isFloat = false) {t : String} (h : converted hook v = .ok t) :
    s.name hook v = t := by
  cases v with
  | int n =>
    rw [converted] at h
    split at h
    · exact Except.ok.inj h
    · cases h
  | float x => cases hfloat
  | text t => cases hnative
  | bytes bs => cases hnative
  | decimal d => cases hnative
  | uuid u => cases hnative
  | moment t => cases hnative
  | outcome o => cases hnative
  | _ =>
    have hhook : hook _ = .ok t := h
    simp [Script.name, nativeText?, hhook, Except.toOption]

theorem keyText_of_native {v : Value} {t : String}
    (h : nativeText? v = some t) :
    s.keyText hook v = .ok (s.name hook v) := by
  cases v with
  | text t => rfl
  | bytes bs => rfl
  | decimal d => rfl
  | uuid u => rfl
  | moment t => rfl
  | outcome o => rfl
  | _ => cases h

theorem keyText_of_not_native {v : Value} (hnative : nativeText? v = none)
    (hfloat : v.isFloat = false) :
    s.keyText hook v = attempt hook [v] (s.name hook v) := by
  rw [← mapError_eq_attempt fun t => name_of_converted hnative hfloat]
  unfold Script.keyText
  split
  · cases hfloat
  · rw [hnative]

theorem keyText_eq_attempt (v : Value) :
    s.keyText hook v = attempt hook (if isConvertedKey v then [v] else [])
      (s.name hook v) := by
  cases hfloat : v.isFloat with
  | true =>
    cases v with
    | float x => rfl
    | _ => cases hfloat
  | false =>
    have hkey : isConvertedKey v = (nativeText? v).isNone := by
      unfold isConvertedKey
      split
      · cases hfloat
      · rfl
    rw [hkey]
    cases hnative : nativeText? v with
    | some t => exact keyText_of_native hnative
    | none => exact keyText_of_not_native hnative hfloat

theorem conversions_of_not_hasItems {v : Value} (h : v.hasItems = false) :
    conversions v = if isConverted v then [v] else [] := by
  cases v with
  | list xs => cases h
  | tuple xs => cases h
  | mapping entries => cases h
  | _ => rfl

theorem mapM_text {xs : List Value}
    (h : ∀ x ∈ xs, s.text hook x =
      attempt hook (conversions x) (document s hook x).written) :
    xs.mapM (s.text hook) =
      attempt hook (conversionsOf xs)
        (Document.writtenOf (documentsOf s hook xs)) := by
  induction xs with
  | nil => rfl
  | cons x xs ih =>
    have hrest := ih fun y hy => h y (List.mem_cons_of_mem x hy)
    rw [List.mapM_cons, h x List.mem_cons_self, hrest]
    exact attempt_bind attempt_map

theorem member_eq_attempt {k v : Value}
    (h : s.text hook v = attempt hook (conversions v)
      (document s hook v).written) :
    s.member hook (k, v) =
      attempt hook ((if isConvertedKey k then [k] else []) ++ conversions v)
        (s.quoted (s.name hook k), (document s hook v).written) := by
  rw [Script.member, keyText_eq_attempt, h]
  exact attempt_bind attempt_map

theorem mapM_member {entries : List (Value × Value)}
    (h : ∀ e ∈ entries, s.text hook e.2 =
      attempt hook (conversions e.2) (document s hook e.2).written) :
    entries.mapM (s.member hook) =
      attempt hook (conversionsIn entries)
        (Document.writtenIn (documentsIn s hook entries)) := by
  induction entries with
  | nil => rfl
  | cons e entries ih =>
    obtain ⟨k, v⟩ := e
    have hrest := ih fun e he => h e (List.mem_cons_of_mem (k, v) he)
    rw [List.mapM_cons, member_eq_attempt (h (k, v) List.mem_cons_self), hrest,
      conversionsIn, ← List.append_assoc]
    exact attempt_bind attempt_map

section Engine

variable {e : Engine} {room : ℕ} (hwrite : e.Writes s room)

include hwrite

theorem text_of_isString {v : Value} (h : isString v = true)
    (hdocument : document s hook v = .text (s.quote (s.name hook v)))
    (hconverted : isConverted v = isConvertedKey v) :
    s.text hook v =
      attempt hook (if isConverted v then [v] else [])
        (document s hook v).written := by
  rw [hwrite.string hook v h, keyText_eq_attempt, attempt_map,
    hdocument, hconverted]
  rfl

theorem text_of_not_hasItems {v : Value} (h : v.hasItems = false) :
    s.text hook v =
      attempt hook (if isConverted v then [v] else [])
        (document s hook v).written := by
  cases v with
  | null => exact hwrite.null hook
  | truth b => exact hwrite.truth hook b
  | int n =>
    rw [hwrite.int hook n]
    exact mapError_eq_attempt fun t ht => name_of_converted (s := s) rfl rfl ht
  | float x =>
    rw [hwrite.float hook x, document]
    split
    · rfl
    · rfl
  | list xs => cases h
  | tuple xs => cases h
  | mapping entries => cases h
  | _ => exact text_of_isString hwrite rfl rfl rfl

/-- A value for which there is room is written as its document if all
conversions succeed, which are made in order. -/
theorem text_eq_attempt (v : Value) (h : v.depth ≤ room) :
    s.text hook v = attempt hook (conversions v)
      (document s hook v).written := by
  induction v using Value.induction_on_items with
  | leaf v hv =>
    rw [conversions_of_not_hasItems hv]
    exact text_of_not_hasItems hwrite hv
  | list xs ih =>
    have hxs : Value.depthOf xs ≤ room := Nat.le_of_succ_le h
    have hitems :=
      mapM_text fun x hx => ih x hx (Value.depthOf_le_iff.mp hxs x hx)
    rw [hwrite.list hook xs h, hitems, attempt_map]
    rfl
  | tuple xs hlist =>
    rw [hwrite.tuple hook xs]
    exact hlist h
  | mapping entries ih =>
    have hentries : Value.depthIn entries ≤ room := Nat.le_of_succ_le h
    have hmembers := mapM_member fun e he =>
      ih e he (Value.depthIn_le_iff.mp hentries e he)
    rw [hwrite.mapping hook entries h, hmembers, attempt_map]
    rfl

end Engine

/-! ## Encoding -/

section Encoding

variable {p : Platform}

/-- What is written in UTF-8 is got back as text. -/
theorem encode_of_write {v : Value} {written : Except Fault String}
    (h : p.engine.write p.hook v = written.map fun t =>
      Text.Utf8.encode t.toList) :
    p.encode v = written.mapError (Platform.refusal v) := by
  rw [Platform.encode, Platform.encodeBytes, h]
  cases written with
  | error fault => rfl
  | ok t =>
    dsimp only [Except.map, Except.mapError, bind, Except.bind]
    rw [Text.Utf8.decode?_encode]
    exact congrArg Except.ok String.ofList_toList

variable {room : ℕ} (hwrite : p.engine.Writes s room) (v : Value)

include hwrite

theorem encode_eq :
    p.encode v = (s.text p.hook v).mapError (Platform.refusal v) :=
  encode_of_write (hwrite.bytes p.hook v)

theorem encodeBytes_eq_map :
    p.encodeBytes v = (p.encode v).map fun t => Text.Utf8.encode t.toList := by
  rw [encode_eq hwrite, Platform.encodeBytes, hwrite.bytes]
  cases s.text p.hook v with
  | ok t => rfl
  | error fault => rfl

end Encoding

end QueryJournal.Json

import QueryJournal.Proofs.Json.Document

/-!
# What engines do

The library relies on an engine for JSON.  This module states what it relies on,
for an engine that is not looked into: how values are written, in which order
the texts of their parts are asked for, which documents are read, and what is
thrown.  An engine runs on a stack, so it has room for some nesting, and from
some depth on it gives up.
-/

namespace QueryJournal

/-- Whether a floating-point number is neither an infinity nor a NaN. -/
def Binary.isFinite : Binary → Bool
  | .finite _ _ _ => true
  | _ => false

namespace Json

/-! ## Texts that engines ask for -/

/-- The text that every engine writes for a value of some types. -/
def nativeText? : Value → Option String
  | .text s => some s
  | .bytes bs => some (String.ofList (Text.Base64.encode bs))
  | .decimal d => some d.text
  | .uuid u => some u.text
  | .moment t => some t.interchangeText
  | .outcome o => some o.name
  | _ => none

/-- The text of any other value: it is asked for, except that of an integer,
which must not have too many digits. -/
def converted (hook : Hook) : Value → Except Failure String
  | .int n =>
    if Number.digitCount n.natAbs ≤ Number.longestText then .ok (Number.text n)
    else .error .tooManyDigits
  | v => hook v

/-- Whether the text of a key is a conversion. -/
def isConvertedKey : Value → Bool
  | .float _ => false
  | v => (nativeText? v).isNone

/-- Whether the text of a value without items is a conversion. -/
def isConverted : Value → Bool
  | .null | .truth _ => false
  | v => isConvertedKey v

mutual

/-- The keys and the values without items whose texts are conversions, in the
order in which a value is written. -/
def conversions : Value → List Value
  | .list xs | .tuple xs => conversionsOf xs
  | .mapping entries => conversionsIn entries
  | v => if isConverted v then [v] else []

/-- The conversions of some values. -/
def conversionsOf : List Value → List Value
  | [] => []
  | x :: xs => conversions x ++ conversionsOf xs

/-- The conversions of keys and of the values under them. -/
def conversionsIn : List (Value × Value) → List Value
  | [] => []
  | (k, v) :: entries =>
    (if isConvertedKey k then [k] else []) ++
      (conversions v ++ conversionsIn entries)

end

/-- Whether all texts that a value takes are there. -/
def Converts (hook : Hook) (v : Value) : Prop :=
  ∀ x ∈ conversions v, ∃ s, converted hook x = .ok s

/-! ## Writing -/

/-- How an engine writes, where it has a choice. -/
structure Script where
  /-- The text of a value. -/
  text : Hook → Value → Except Fault String
  /-- The spelling of a string. -/
  quote : String → List Piece
  /-- The spelling of a finite floating-point number. -/
  number : Binary → String
  /-- The text of a floating-point number as a key. -/
  floatKey : Binary → String

namespace Script

/-- The text of a key. -/
def keyText (s : Script) (hook : Hook) : Value → Except Fault String
  | .float x => .ok (s.floatKey x)
  | v =>
    match nativeText? v with
    | some t => .ok t
    | none => (converted hook v).mapError .thrown

/-- The text of a string. -/
def quoted (s : Script) (t : String) : String :=
  Piece.quoted (s.quote t)

/-- The texts of a key and of the value under it. -/
def member (s : Script) (hook : Hook) (e : Value × Value) :
    Except Fault (String × String) := do
  let key ← s.keyText hook e.1
  let item ← s.text hook e.2
  return (s.quoted key, item)

end Script

/-- Whether a value is written as a string. -/
def isString : Value → Bool
  | .null | .truth _ | .int _ | .float _ | .list _ | .tuple _ | .mapping _ =>
    false
  | _ => true

/-- An engine writes according to a script, in UTF-8 and without blanks.  Up to
some depth lists and mappings are written item by item, and the first fault is
that of the whole. -/
structure Engine.Writes (e : Engine) (s : Script) (room : ℕ) : Prop where
  bytes : ∀ hook v, e.write hook v = (s.text hook v).map fun t =>
    Text.Utf8.encode t.toList
  meaning : ∀ t, Piece.meaning (s.quote t) = t
  null : ∀ hook, s.text hook .null = .ok "null"
  truth : ∀ hook b, s.text hook (.truth b) = .ok (if b then "true" else "false")
  int : ∀ hook n, s.text hook (.int n) =
    (converted hook (.int n)).mapError .thrown
  float : ∀ hook x, s.text hook (.float x) =
    .ok (if x.isFinite then s.number x else "null")
  string : ∀ hook v, isString v = true →
    s.text hook v = (s.keyText hook v).map s.quoted
  list : ∀ hook xs, (Value.list xs).depth ≤ room →
    s.text hook (.list xs) = (xs.mapM (s.text hook)).map array
  tuple : ∀ hook xs, s.text hook (.tuple xs) = s.text hook (.list xs)
  mapping : ∀ hook entries, (Value.mapping entries).depth ≤ room →
    s.text hook (.mapping entries) = (entries.mapM (s.member hook)).map object

/-- An engine reads text as its bytes. -/
def Engine.ReadsText (e : Engine) : Prop :=
  ∀ s : String, e.read (.ofString s) =
    e.read (.bytes (Text.Utf8.encode s.toList))

/-- An engine reads documents up to some depth, unless an integer has too many
digits. Nothing is said about floating-point numbers. -/
structure Engine.Reads (e : Engine) (room : ℕ) : Prop where
  text : e.ReadsText
  document : ∀ d : Document, d.allLeaves Document.isExact = true →
    d.depth ≤ room →
    e.read (.ofString d.written) =
      if d.isReadable then .ok d.value else .error .refused

/-- Bytes that may stand inside of a string as they are. -/
def IsBody (bs : Bytes) : Prop :=
  ∀ b ∈ bs, 0x20 ≤ b ∧ b ≠ 0x22 ∧ b ≠ 0x5C

/-- What an engine throws, apart from refusing.  Halves of pairs have no bytes,
a string of bytes that are no text has no characters, and brackets may be too
many.  There is nothing else that it throws. -/
structure Engine.Throws (e : Engine) (limit : ℕ) : Prop where
  text : e.ReadsText
  half : ∀ codes : List ℕ, (∃ n ∈ codes, ¬n.isValidChar) →
    e.read (.text codes) = .error (.thrown .loneHalf)
  string : ∀ bs more : Bytes, IsBody bs → Text.Utf8.decode? bs = none →
    e.read (.bytes (0x22 :: bs ++ 0x22 :: more)) =
      .error (.thrown .malformedText)
  brackets : ∀ s : String, List.replicate (limit + 1) '[' <+: s.toList →
    e.read (.ofString s) = .error (.thrown .tooDeep)
  only : ∀ bs f, e.read (.bytes bs) = .error (.thrown f) →
    f = .tooDeep ∨ f = .malformedText ∧ Text.Utf8.decode? bs = none

end Json

end QueryJournal

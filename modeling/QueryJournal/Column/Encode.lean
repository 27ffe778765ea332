import QueryJournal.Column.Fault
import QueryJournal.Column.Type
import QueryJournal.Text.Utf8

/-!
# Writing column values as bytes

The bytes of a value in a column of a given type. Each type takes the values
that its conversions understand and refuses the others with a fault.
-/

namespace QueryJournal

/-- The integers that an index of the machine can hold. -/
def isIndex (n : Int) : Bool :=
  BigEndian.fits 8 n

/-- A small integer among the parts of a decimal number: other values are bad,
integers beyond the machine's overflow. -/
def Value.smallInt (v : Value) : Except CodecFault Int :=
  match v.asInt? with
  | none => .error .badValue
  | some n => if isIndex n then .ok n else .error .overflow

/-- A digit among the parts of a decimal number. -/
def Value.digit (v : Value) : Except CodecFault Char := do
  let n ← v.smallInt
  if 0 ≤ n ∧ n ≤ 9 then return Nat.digitChar n.toNat else throw .badValue

/-- The third part of a decimal number: its exponent or the letter of a special
number. -/
inductive Decimal.Kind where
  /-- A finite number with an exponent. -/
  | finite (exponent : Int)
  /-- An infinity. -/
  | infinity
  /-- A NaN. -/
  | nan (signalling : Bool)

/-- Reads the third part of a decimal number. -/
def Value.decimalKind : Value → Except CodecFault Decimal.Kind
  | .text "F" => .ok .infinity
  | .text "n" => .ok (.nan false)
  | .text "N" => .ok (.nan true)
  | v => v.smallInt.map .finite

/-- The elements of a list or a row. -/
def Value.elements? : Value → Option (List Value)
  | .list xs | .tuple xs => some xs
  | _ => none

namespace Decimal

/-- A decimal number from its sign, its digits and its exponent. -/
def ofParts (sign digits exponent : Value) : Except CodecFault Decimal := do
  let s ← sign.smallInt
  if s ≠ 0 ∧ s ≠ 1 then throw .badValue
  let kind ← exponent.decimalKind
  let some items := digits.elements? | throw .badValue
  let ds ← items.mapM Value.digit
  let c := Nat.ofDigitChars 10 ds 0
  match kind with
  | .infinity => return .infinity (s = 1)
  | .nan signalling => return .nan signalling (s = 1) c
  | .finite e =>
    if representable c e then return .finite (s = 1) c e
    else throw .decimalInvalid

/-- The decimal number that a value stands for. -/
def ofValue : Value → Except CodecFault Decimal
  | .decimal d => .ok d
  | .float x => .ok (.ofBinary x)
  | .text s =>
    match ofText? s with
    | some d => .ok d
    | none => .error .decimalInvalid
  | v =>
    match v.asInt?, v.elements? with
    | some n, _ => .ok (.ofInt n)
    | none, some [sign, digits, exponent] => ofParts sign digits exponent
    | none, some _ => .error .badValue
    | none, none => .error .badType

end Decimal

namespace ColumnType

/-- The text of any value, in seven-bit characters. -/
def encodeAscii (v : Value) : Except CodecFault Bytes := do
  let s ← v.plain.forCodec
  if s.toList.all (·.toNat < 0x80) then
    return s.toList.map fun c => UInt8.ofNat c.toNat
  else throw .unencodableText

/-- The text of any value, in UTF-8. -/
def encodeText (v : Value) : Except CodecFault Bytes :=
  v.plain.forCodec.map fun s => Text.Utf8.encode s.toList

/-- An integer of `width` bytes. -/
def encodeFixed (width : Nat) (v : Value) : Except CodecFault Bytes :=
  match v.asInt? with
  | some n =>
    if BigEndian.fits width n then .ok (BigEndian.ofInt width n)
    else .error .packing
  | none => .error .packing

/-- The double-precision number that a value stands for. Integers too large
for one do not fit. -/
def toDouble (v : Value) : Except CodecFault Binary :=
  match v with
  | .float x => .ok x
  | .decimal d =>
    match d.toBinary? .double with
    | some x => .ok x
    | none => .error .packing
  | v =>
    match v.asInt? with
    | some n =>
      let x := Binary.ofInt .double n
      if x = .infinity (n < 0) then .error .packing else .ok x
    | none => .error .packing

/-- A number of four bytes. A number that is too large for them overflows,
unless it is an integer, which does not fit. -/
def encodeSingle (v : Value) : Except CodecFault Bytes := do
  let x ← toDouble v
  let y := x.convert .single
  if x ≠ y ∧ (y = .infinity true ∨ y = .infinity false) then
    throw (if v.asInt?.isSome then .packing else .overflow)
  else return BigEndian.ofNat 4 (y.toBits .single)

/-- A number of eight bytes. -/
def encodeDouble (v : Value) : Except CodecFault Bytes :=
  (toDouble v).map fun x => BigEndian.ofNat 8 (x.toBits .double)

/-- An integer in as many bytes as it takes. -/
def encodeVarint (v : Value) : Except CodecFault Bytes :=
  match v.asInt? with
  | some n => .ok (BigEndian.ofIntAny n)
  | none => .error .notAnInteger

/-- The number of decimal places in four bytes, then the digits as an integer
in as many bytes as it takes. -/
def encodeDecimal (v : Value) : Except CodecFault Bytes := do
  match ← Decimal.ofValue v with
  | .finite negative c e =>
    if Number.longestText < Number.digitCount c then throw .badValue
    else if BigEndian.fits 4 (-e) then
      let unscaled : Int := if negative then -c else c
      return BigEndian.ofInt 4 (-e) ++ BigEndian.ofIntAny unscaled
    else throw .packing
  | _ =>
    let literal ← v.literal.forCodec
    throw (.nonFinite literal)

/-- A byte among the elements of a blob. -/
def elementByte (v : Value) : Except CodecFault UInt8 :=
  match v.asInt? with
  | some n =>
    if 0 ≤ n ∧ n < 256 then .ok (UInt8.ofNat n.toNat) else .error .badValue
  | none => .error .badType

/-- The most bytes that an object can hold. -/
def greatestLength : Int :=
  9223372036854775774

/-- The bytes that memory can be addressed by. -/
def addressSpace : Int :=
  140737488355328

/-- As many zeros as a number says. -/
def zeros (n : Int) : Except CodecFault Bytes :=
  if !isIndex n then .error .overflow
  else if n < 0 then .error .badValue
  else if greatestLength < n then .error .overflow
  else if addressSpace ≤ n then .error .outOfMemory
  else .ok (List.replicate n.toNat 0)

/-- Bytes as they are, the elements of a container, or as many zeros as a
number says. -/
def encodeBlob (v : Value) : Except CodecFault Bytes :=
  match v with
  | .bytes bs => .ok bs
  | .list xs | .tuple xs => xs.mapM elementByte
  | .mapping entries => entries.mapM fun entry => elementByte entry.1
  | v =>
    match v.asInt? with
    | some n => zeros n
    | none => .error .badType

/-- A UUID, or the one that the text of a value stands for. -/
def encodeUuid (v : Value) : Except CodecFault Bytes :=
  match v with
  | .uuid u => .ok u.toBytes
  | v => do
    match Uuid.ofText? (← v.plain.forCodec) with
    | some u => return u.toBytes
    | none => throw .badValue

/-- The milliseconds of a moment, or a number of milliseconds. -/
def encodeTimestamp (v : Value) : Except CodecFault Bytes :=
  match v with
  | .moment t => encodeFixed 8 (.int t.toMillis)
  | v => encodeFixed 8 v

/-- The address that a value stands for: by its number, by its bytes, or by its
text. -/
def toAddress (v : Value) : Except CodecFault Address := do
  let found ←
    match v.asInt?, v with
    | some n, _ => .ok (Address.ofInt? n)
    | none, .bytes bs => .ok (Address.ofBytes? bs)
    | none, v => v.plain.forCodec.map Address.ofText?
  match found with
  | some a => return a
  | none => throw .badValue

/-- The bytes of a value in a column of a type. -/
def encode : ColumnType → Value → Except CodecFault Bytes
  | .ascii, v => encodeAscii v
  | .text, v | .varchar, v => encodeText v
  | .int, v => encodeFixed 4 v
  | .bigint, v | .counter, v => encodeFixed 8 v
  | .smallint, v => encodeFixed 2 v
  | .tinyint, v => encodeFixed 1 v
  | .float, v => encodeSingle v
  | .double, v => encodeDouble v
  | .varint, v => encodeVarint v
  | .decimal, v => encodeDecimal v
  | .boolean, v => .ok [if v.isTruthy then 1 else 0]
  | .blob, v => encodeBlob v
  | .uuid, v | .timeuuid, v => encodeUuid v
  | .timestamp, v => encodeTimestamp v
  | .inet, v => (toAddress v).map Address.toBytes

end ColumnType

end QueryJournal

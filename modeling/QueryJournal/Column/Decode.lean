import QueryJournal.Column.Fault
import QueryJournal.Column.Type
import QueryJournal.Number.Single
import QueryJournal.Text.Utf8

/-!
# Reading column values from bytes

The value that the bytes of a column stand for, and its printed form.
-/

namespace QueryJournal.ColumnType

/-- Seven-bit characters. -/
def decodeAscii (raw : Bytes) : Except CodecFault Value :=
  if raw.all (· < 0x80) then
    .ok (.text (String.ofList (raw.map fun b => Char.ofNat b.toNat)))
  else .error .malformedText

/-- Characters in UTF-8. -/
def decodeText (raw : Bytes) : Except CodecFault Value :=
  match Text.Utf8.decode? raw with
  | some cs => .ok (.text (String.ofList cs))
  | none => .error .malformedText

/-- An integer of `width` bytes. -/
def decodeFixed (width : Nat) (raw : Bytes) : Except CodecFault Value :=
  if raw.length = width then .ok (.int (BigEndian.toInt raw))
  else .error .packing

/-- The floating-point number in bytes of its format. -/
def decodeBinary
    (f : Binary.Format) (raw : Bytes) : Except CodecFault Binary :=
  if raw.length = f.width then .ok (.ofBits f (BigEndian.toNat raw))
  else .error .packing

/-- An integer of any size scaled by ten to the negative of the number in the
first four bytes, rounded to the standard precision. -/
def decodeDecimal (raw : Bytes) : Except CodecFault Value :=
  if raw.length < 4 then .error .packing
  else
    let scale := BigEndian.toInt (raw.take 4)
    let unscaled := BigEndian.toInt (raw.drop 4)
    if Decimal.standard.scaleLimit < scale.natAbs then .error .decimalInvalid
    else
      match Decimal.standard.round? (unscaled < 0) unscaled.natAbs (-scale) with
      | some d => .ok (.decimal d)
      | none => .error .decimalOverflow

/-- Milliseconds since 1970 in eight bytes. -/
def decodeTimestamp (raw : Bytes) : Except CodecFault Moment :=
  if raw.length = 8 then
    match Moment.ofMillis? (BigEndian.toInt raw) with
    | some t => .ok t
    | none => .error .overflow
  else .error .packing

/-- Any bytes but a single zero are true. -/
def decodeBoolean (raw : Bytes) : Bool :=
  raw != [0]

/-- The value that bytes stand for in a column of a type. -/
def decode : ColumnType → Bytes → Except CodecFault Value
  | .ascii, raw => decodeAscii raw
  | .text, raw | .varchar, raw => decodeText raw
  | .int, raw => decodeFixed 4 raw
  | .bigint, raw | .counter, raw => decodeFixed 8 raw
  | .smallint, raw => decodeFixed 2 raw
  | .tinyint, raw => decodeFixed 1 raw
  | .float, raw =>
    (decodeBinary .single raw).map fun x => .float (x.convert .double)
  | .double, raw => (decodeBinary .double raw).map .float
  | .varint, raw => .ok (.int (BigEndian.toInt raw))
  | .decimal, raw => decodeDecimal raw
  | .boolean, raw => .ok (.truth (decodeBoolean raw))
  | .blob, raw => .ok (.bytes raw)
  | .uuid, raw | .timeuuid, raw =>
    match Uuid.ofBytes? raw with
    | some u => .ok (.uuid u)
    | none => .error .badValue
  | .timestamp, raw => (decodeTimestamp raw).map .moment
  | .inet, raw =>
    match Address.ofBytes? raw with
    | some a => .ok (.address a)
    | none => .error .badValue

/-- The printed form of the number in four bytes. -/
def printSingle (raw : Bytes) : Except CodecFault String := do
  let x ← decodeBinary .single raw
  match x.singleText? with
  | some s => .ok s
  | none => .error .overflow

/-- The printed form of an integer of any size, unless it has too many
digits. -/
def printVarint (raw : Bytes) : Except CodecFault String :=
  let n := BigEndian.toInt raw
  if Number.longestText < Number.digitCount n.natAbs then .error .badValue
  else .ok (Number.text n)

/-- The printed form of the value that bytes stand for in a column of a type. -/
def print : ColumnType → Bytes → Except CodecFault String
  | .float, raw => printSingle raw
  | .varint, raw => printVarint raw
  | .boolean, raw => .ok (if decodeBoolean raw then "true" else "false")
  | .blob, raw => .ok ("0x" ++ Text.Hex.ofBytes raw)
  | .timestamp, raw => (decodeTimestamp raw).map Moment.millisText
  | t, raw => do (← t.decode raw).plain.forCodec

end QueryJournal.ColumnType

import QueryJournal.Value.Text

/-!
# Faults of column codecs

Why bytes are no value of a column type, or a value has no bytes.
-/

namespace QueryJournal

/-- A failed conversion between bytes and a value. -/
inductive CodecFault where
  /-- A packed field of the wrong size, or a value that does not fit in one. -/
  | packing
  /-- Bytes that are no text of the encoding. -/
  | malformedText
  /-- Characters that the encoding does not have. -/
  | unencodableText
  /-- A value of the right type that does not belong to the column type. -/
  | badValue
  /-- A value of the wrong type. -/
  | badType
  /-- A value without the properties of an integer. -/
  | notAnInteger
  /-- A number beyond what its representation can hold. -/
  | overflow
  /-- More bytes than memory holds. -/
  | outOfMemory
  /-- A decimal number without a result. -/
  | decimalInvalid
  /-- A decimal result that is too large. -/
  | decimalOverflow
  /-- An infinity or a NaN, shown by its literal, for a decimal column. -/
  | nonFinite (literal : String)
  /-- An object that refused to be printed. -/
  | unprintable (cls : FailureClass)
  deriving DecidableEq

namespace CodecFault

/-- The class of a fault. -/
def cls : CodecFault → FailureClass
  | .packing => .packing
  | .malformedText => .unicodeDecode
  | .unencodableText => .unicodeEncode
  | .badValue | .nonFinite _ => .value
  | .badType => .type
  | .notAnInteger => .attribute
  | .overflow => .overflow
  | .outOfMemory => .other "MemoryError"
  | .decimalInvalid => .decimalInvalid
  | .decimalOverflow => .decimalOverflow
  | .unprintable cls => cls.thrown

end CodecFault

/-- The fault of a conversion that needed the text of an unprintable object. -/
def Unprintable.toFault (u : Unprintable) : CodecFault :=
  .unprintable u.cls

/-- A text needed by a conversion. -/
def Printed.forCodec (p : Printed) : Except CodecFault String :=
  p.mapError Unprintable.toFault

end QueryJournal

import QueryJournal.Column.Fault
import QueryJournal.Column.Type
import QueryJournal.Settings.Field
import QueryJournal.Value.Error

/-!
# Failures

Everything that can go wrong in an operation of this library, by its cause. A
failure has a class, and a message where the library or the application worded
one; failures of conversions and look-ups are told by their class alone.
-/

namespace QueryJournal

/-- Why an operation failed. -/
inductive Failure where
  /-- An error object was thrown. -/
  | thrown (e : ErrorValue)
  /-- A value could not be written as bytes or read from them. -/
  | codec (fault : CodecFault)
  /-- A bound value of some bytes could not be printed. -/
  | rendering (type : ColumnType) (size : Nat) (cause : CodecFault)
  /-- More values were given than a statement has variables. -/
  | tooManyValues (places values : Nat)
  /-- A value was given for a variable that a statement does not have. -/
  | notAVariable (name : String)
  /-- A statement does not have as many values as variables. -/
  | wrongValueCount (places values : Nat)
  /-- A budget was given a negative limit other than -1. -/
  | invalidBudget (limit : Int)
  /-- A value, shown by its literal, was refused by a setting. -/
  | rejected (setting : Setting) (literal : String)
  /-- A change names no setting. -/
  | notASetting (name : String)
  /-- A property is asked for or written that the object does not have. -/
  | noSuchProperty
  /-- Nothing is stored under a name. -/
  | unknownName (name : String)
  /-- A row does not have a place. -/
  | noSuchPlace
  /-- A name is no member of an enumeration. -/
  | notAMember
  /-- Something was called with arguments that it does not take. -/
  | badArguments
  /-- An error was to be made from a message alone, but takes more values. -/
  | messageAlone (arity : Nat)
  /-- A number is too large for the count that it is given as. -/
  | countTooLarge
  /-- The end of a sequence was signalled inside of another one. -/
  | strayEnd
  /-- Something is nested too deeply. -/
  | tooDeep
  /-- A value of a class has no JSON text. -/
  | unencodable (className : String)
  /-- A text is no JSON. -/
  | undecodable
  /-- Bytes are no text. -/
  | malformedText
  /-- A text holds half of a pair of numbers that make one character
  together. -/
  | loneHalf
  /-- A level has an unknown name. -/
  | unknownLevel (name : String)
  /-- A value of a class cannot be divided into milliseconds. -/
  | indivisible (className : String)
  /-- A decimal quotient has more digits than the arithmetic has. -/
  | tooManyPlaces
  /-- A decimal that is no number is divided or compared. -/
  | invalidDecimal
  /-- A value stands where an operation should. -/
  | notAnOperation
  /-- A value that is no number stands where one should. -/
  | notANumber
  /-- A number that is not a whole one, however it is rounded. -/
  | notWhole
  /-- A number has more digits than can be written. -/
  | tooManyDigits
  /-- A number is too large for its representation. -/
  | outOfRange
  /-- The placeholders of a message do not suit its arguments. -/
  | argumentMismatch
  /-- A message holds something that is no placeholder, or ends inside of
  one. -/
  | brokenPlaceholder
  /-- A value of no container type was to be merged into the fields. -/
  | notEntries
  /-- The elements of a value to be merged into the fields are no pairs. -/
  | notPairs
  /-- A time is too large for its representation. -/
  | timeOverflow
  /-- A time lies in a year that the system does not know. -/
  | unknownYear

/-- The failure of throwing an error of a class with a message. -/
def Failure.ofMessage (cls : FailureClass) (message : String) : Failure :=
  match cls.arity? with
  | some n => .messageAlone n
  | none => .thrown (.ofMessage cls message)

/-- The failure of an operation that needed the text of an unprintable
object. -/
def Unprintable.toFailure (u : Unprintable) : Failure :=
  .ofMessage u.cls "unprintable"

/-- The failure of an operation that needed a conversion. -/
def CodecFault.toFailure : CodecFault → Failure
  | .unprintable cls => (Unprintable.mk cls).toFailure
  | fault => .codec fault

/-- The name by which an operation knows the object that it works on. No value
can be given under it. -/
def ownName : String :=
  "self"

/-- A text needed by an operation. -/
def Printed.orFail (p : Printed) : Except Failure String :=
  p.mapError Unprintable.toFailure

namespace Failure

/-- The class of a failure. -/
def cls : Failure → FailureClass
  | .thrown e => e.cls
  | .codec fault => fault.cls
  | .rendering _ _ _ => .journal .rendering
  | .tooManyValues _ _ | .notAVariable _ | .wrongValueCount _
    _ | .invalidBudget _ => .value
  | .rejected _ _ => .journal .configuration
  | .notASetting _ | .badArguments | .indivisible
    _ | .argumentMismatch | .notEntries => .type
  | .messageAlone _ | .notAnOperation | .notANumber => .type
  | .noSuchProperty => .attribute
  | .unknownName _ => .key
  | .noSuchPlace => .index
  | .strayEnd => .runtime
  | .tooDeep => .nesting
  | .notAMember | .unknownLevel _ | .brokenPlaceholder | .notPairs => .value
  | .countTooLarge | .notWhole | .tooManyDigits => .value
  | .unencodable _ | .undecodable => .journal .serialization
  | .malformedText => .unicodeDecode
  | .loneHalf => .unicodeEncode
  | .timeOverflow | .outOfRange => .overflow
  | .unknownYear => .system .general
  | .tooManyPlaces | .invalidDecimal => .decimalInvalid

/-- The message of a failure that the library or the application worded. -/
def message? : Failure → Option String
  | .thrown e => some e.text
  | .codec (.nonFinite literal) =>
    some ("Cannot encode non-finite decimal " ++ literal)
  | .rendering type size _ =>
    some ("Cannot render " ++ type.name ++ " value from " ++
      Number.text size ++ " bytes")
  | .tooManyValues places values =>
    some ("Too many values: statement has " ++ Number.text places ++
      " variables, got " ++
      Number.text values)
  | .notAVariable name =>
    some (Text.quoted name ++ " is not a variable of this statement")
  | .wrongValueCount places values =>
    some ("Expected " ++ Number.text places ++ " bound values, got " ++
      Number.text values)
  | .invalidBudget limit =>
    some ("Invalid render budget, should be >= 0 or -1, got " ++
      Number.text limit)
  | .rejected setting literal =>
    some ("Invalid " ++ setting.name ++ ", " ++ setting.condition ++
      ", got " ++ literal)
  | .notASetting name =>
    some (Text.quoted name ++ " is not a field in ObservabilityConfig")
  | .unencodable className =>
    some ("Unable to encode " ++ className ++ " as JSON")
  | .undecodable => some "Unable to decode JSON payload"
  | .unknownLevel name => some ("Unknown logging level " ++ Text.quoted name)
  | .codec _ | .noSuchProperty | .unknownName
    _ | .noSuchPlace | .notAMember | .badArguments
  | .messageAlone
    _ | .countTooLarge | .strayEnd | .tooDeep | .malformedText | .loneHalf
  | .indivisible
    _ | .notAnOperation | .notANumber | .notWhole | .tooManyDigits | .outOfRange
  | .argumentMismatch | .tooManyPlaces | .invalidDecimal
    | .brokenPlaceholder | .notEntries
  | .notPairs | .timeOverflow | .unknownYear => none

/-- The text of a failure in a log. Of the failures without a message only those
of look-ups, divisions and thrown errors reach one. -/
def text : Failure → String
  | .unknownName name => Text.quoted name
  | .messageAlone arity =>
    "function takes exactly " ++ Number.text arity ++ " arguments (1 given)"
  | .indivisible className =>
    "unsupported operand type(s) for //: '" ++ className ++ "' and 'int'"
  | .tooManyPlaces => "[<class 'decimal.DivisionImpossible'>]"
  | .invalidDecimal => "[<class 'decimal.InvalidOperation'>]"
  | f => f.message?.getD ""

/-- The line by which a failure is reported: its class, and its text unless
that is empty. -/
def line (f : Failure) : String :=
  if f.text = "" then f.cls.qualifiedName
  else f.cls.qualifiedName ++ ": " ++ f.text

/-- The class of the fault that a failure to print a bound value comes from. -/
def cause? : Failure → Option FailureClass
  | .rendering _ _ cause => some cause.cls
  | _ => none

/-- The name of the setting that a failure is about. -/
def setting? : Failure → Option JournalError.Subject
  | .rejected setting _ => some (.name setting.name)
  | .thrown (.journal e) => e.setting
  | _ => none

/-- Fails if something in a thrown error refuses to be printed. -/
def ensurePrinted : Failure → Except Failure Unit
  | .thrown e => e.toValue.plain.orFail.map fun _ => ()
  | _ => .ok ()

/-- Whether a failure may be contained. The others stop the program. -/
def isOrdinary (f : Failure) : Bool :=
  f.cls.isOrdinary

end Failure

end QueryJournal

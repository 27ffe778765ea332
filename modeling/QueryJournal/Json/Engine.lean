import QueryJournal.Failure.Basic
import QueryJournal.Text.Utf8

/-!
# JSON through an engine

Values are written as JSON and read from it by an engine of the platform. The
engine asks back for the text of each value that JSON has no form for. It either
refuses what it is given, or passes on what was thrown while it was at work;
this module says what is made of both.
-/

namespace QueryJournal.Json

/-- The text of a value that an engine does not know. -/
abbrev Hook :=
  Value → Except Failure String

/-- Why an engine has no result. -/
inductive Fault where
  /-- It refuses what it was given. -/
  | refused
  /-- Something was thrown while it was at work. -/
  | thrown (f : Failure)

/-- What is to be read. -/
inductive Payload where
  /-- Text, by the numbers of its characters. Halves of pairs may be among
  them. -/
  | text (codes : List Nat)
  /-- Bytes. -/
  | bytes (bs : Bytes)

/-- A text that can be read. -/
def Payload.ofString (s : String) : Payload :=
  .text (s.toList.map Char.toNat)

/-- An engine for JSON. -/
structure Engine where
  /-- The bytes of the JSON text of a value. -/
  write : Hook → Value → Except Fault Bytes
  /-- The value that a JSON text stands for. -/
  read : Payload → Except Fault Value

/-- What the library finds where it runs: the texts of values, and an engine. -/
structure Platform where
  /-- The plain text of a value. -/
  plain : Value → Except Failure String
  /-- The literal of a value. -/
  literal : Value → Except Failure String
  /-- The engine. -/
  engine : Engine

namespace Platform

variable (p : Platform)

/-- The text of a value that the engine does not know. Errors show their
literals, and all else is shown plainly. -/
def hook : Hook
  | .fault cls args paths => p.literal (.fault cls args paths)
  | .journalError e => p.literal (.journalError e)
  | v => p.plain v

/-- The failure to write a value. If the value is to blame it is unencodable;
other failures are passed on. -/
def refusal (v : Value) : Fault → Failure
  | .refused => .unencodable v.className
  | .thrown f => if f.cls.blamesValue then .unencodable v.className else f

/-- The JSON text of a value in bytes. -/
def encodeBytes (v : Value) : Except Failure Bytes :=
  (p.engine.write p.hook v).mapError (refusal v)

/-- The JSON text of a value. -/
def encode (v : Value) : Except Failure String := do
  match Text.Utf8.decode? (← p.encodeBytes v) with
  | some cs => return String.ofList cs
  | none => throw .malformedText

/-- The failure to read a payload. -/
def complaint : Fault → Failure
  | .refused => .undecodable
  | .thrown f => f

/-- The value that a JSON text stands for. -/
def decode (payload : Payload) : Except Failure Value :=
  (p.engine.read payload).mapError complaint

end Platform

end QueryJournal.Json

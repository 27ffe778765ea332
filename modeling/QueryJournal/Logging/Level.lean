import QueryJournal.Number.Rounding

/-!
# Levels

How urgent a log record is, as a number. Some levels have names.
-/

namespace QueryJournal.Level

/-- Details, such as bound values. -/
def trace : Int :=
  5

/-- Every query. -/
def debug : Int :=
  10

/-- The course of the program. -/
def info : Int :=
  20

/-- Something unexpected. -/
def warning : Int :=
  30

/-- Something failed. -/
def error : Int :=
  40

/-- The program cannot go on. -/
def critical : Int :=
  50

/-- No level of its own. -/
def unset : Int :=
  0

/-- The levels with names. -/
def named : List (String × Int) :=
  [("CRITICAL", critical), ("ERROR", error), ("WARNING", warning),
    ("INFO", info), ("DEBUG", debug), ("TRACE", trace), ("NOTSET", unset)]

/-- Further names of levels. -/
def synonyms : List (String × Int) :=
  [("FATAL", critical), ("WARN", warning)]

/-- The name of a level. -/
def text (level : Int) : String :=
  match named.find? (·.2 == level) with
  | some (name, _) => name
  | none => "Level " ++ Number.text level

/-- The letter in upper case. Of all letters outside of ASCII two become one of
the letters of names. -/
def upper (c : Char) : Char :=
  if c.toNat = 0x131 then 'I' else if c.toNat = 0x17F then 'S' else c.toUpper

/-- The level with a name in upper case. -/
def ofUpperName? (s : String) : Option Int :=
  (named ++ synonyms).lookup s

/-- The level with a name, which may be written in any case. -/
def ofName? (s : String) : Option Int :=
  ofUpperName? (String.ofList (s.toList.map upper))

end QueryJournal.Level

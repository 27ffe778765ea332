import QueryJournal.Failure.Basic

/-!
# Budgets

A budget collects text up to a number of characters. A chunk that fits is kept
whole and charged; the first that does not is cut and followed by an ellipsis,
which is not charged. Once nothing remains, all that follows is dropped, so
that the text is always a part of the unlimited one.
-/

namespace QueryJournal

/-- The mark after a text that was cut. -/
def ellipsis : String :=
  "..."

/-- The first `n` characters of a text. -/
def Text.take (n : Nat) (s : String) : String :=
  String.ofList (s.toList.take n)

/-- Collected text with the number of characters that may still be added. -/
structure Budget where
  /-- The characters that remain; none if there is no limit. -/
  remaining : Option Nat
  /-- The chunks that were kept, in order. -/
  chunks : List String
  /-- Whether a chunk was cut. -/
  truncated : Bool
  deriving DecidableEq

namespace Budget

/-- A budget without limit. -/
def unlimited : Budget :=
  ⟨none, [], false⟩

/-- A budget of `n` characters. -/
def ofNat (n : Nat) : Budget :=
  ⟨some n, [], false⟩

/-- The budget of a limit, where -1 stands for no limit. -/
def ofLimit (limit : Int) : Except Failure Budget :=
  if 0 ≤ limit then .ok (ofNat limit.toNat)
  else if limit = -1 then .ok unlimited
  else .error (.invalidBudget limit)

/-- Whether there is no limit. -/
def isUnlimited (b : Budget) : Bool :=
  b.remaining == none

/-- Whether nothing more is kept. -/
def isExhausted (b : Budget) : Bool :=
  b.remaining == some 0

/-- Adds a chunk, as far as it fits. -/
def append (b : Budget) (chunk : String) : Budget :=
  if chunk = "" then b
  else
    match b.remaining with
    | none => { b with chunks := b.chunks ++ [chunk] }
    | some 0 => b
    | some n =>
      if n < chunk.length then
        ⟨some 0, b.chunks ++ [Text.take n chunk, ellipsis], true⟩
      else
        { b with
          remaining := some (n - chunk.length)
          chunks := b.chunks ++ [chunk] }

/-- The collected text. -/
def text (b : Budget) : String :=
  String.join b.chunks

/-- Whether the last chunk ends with a text. -/
def endsWith (b : Budget) (suffix : String) : Bool :=
  match b.chunks.getLast? with
  | some chunk => suffix.toList.isSuffixOf chunk.toList
  | none => false

/-- The characters that remain as a limit. -/
def remainingLimit (b : Budget) : Int :=
  match b.remaining with
  | some n => n
  | none => -1

/-- A budget as a constructor with its counters. -/
def literal (b : Budget) : String :=
  "RenderBudget(remaining=" ++ Number.text b.remainingLimit ++ ", truncated=" ++
    Value.truthText b.truncated ++ ")"

theorem append_empty (b : Budget) : b.append "" = b := by
  simp [append]

/-- An unlimited budget keeps every chunk. -/
theorem text_append_of_unlimited
    {b : Budget} (h : b.remaining = none) (chunk : String) :
    (b.append chunk).text = b.text ++ chunk := by
  by_cases hchunk : chunk = ""
  · simp [append, hchunk]
  · simp [append, hchunk, h, text]

/-- An exhausted budget keeps nothing more. -/
theorem append_of_exhausted
    {b : Budget} (h : b.remaining = some 0) (chunk : String) :
    b.append chunk = b := by
  simp [append, h]

end Budget

end QueryJournal

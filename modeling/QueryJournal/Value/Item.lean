import QueryJournal.Failure.Basic
import QueryJournal.Value.Key

/-!
# Items of values

Texts, bytes, rows and lists have items in an order. Mappings have their keys
as items, and what is found at a place is the value under the number of that
place. Lists, rows and mappings may be nested.
-/

namespace QueryJournal.Value

/-- The items of a value that has some. -/
def items? : Value → Option (List Value)
  | .text s => some (s.toList.map fun c => .text (String.ofList [c]))
  | .bytes bs => some (bs.map fun b => .int b.toNat)
  | .list xs | .tuple xs => some xs
  | .mapping entries => some (entries.map (·.1))
  | _ => none

/-- The value under a key. -/
def lookup? (key : Value) (entries : List (Value × Value)) : Option Value :=
  (entries.find? fun entry => sameKey entry.1 key).map (·.2)

/-- What is found at a place of a value. -/
def itemAt (v : Value) (place : Nat) : Except Failure Value :=
  match v, items? v with
  | .mapping entries, _ =>
    match lookup? (.int place) entries with
    | some item => .ok item
    | none => .error (.unknownName (Number.text place))
  | _, some items =>
    match items[place]? with
    | some item => .ok item
    | none => .error .noSuchPlace
  | _, none => .error .notEntries

mutual

/-- How many lists, rows and mappings lie inside of each other. -/
def depth : Value → Nat
  | .list xs | .tuple xs => depthOf xs + 1
  | .mapping entries => depthIn entries + 1
  | _ => 0

/-- The greatest depth of some values. -/
def depthOf : List Value → Nat
  | [] => 0
  | x :: xs => max (depth x) (depthOf xs)

/-- The greatest depth of the values under some keys. -/
def depthIn : List (Value × Value) → Nat
  | [] => 0
  | (_, v) :: entries => max (depth v) (depthIn entries)

end

/-- What was stored under a key is found under it. -/
theorem lookup?_insertEntry
    {key : Value} (h : sameKey key key = true) (v : Value)
    (entries : List (Value × Value)) :
    lookup? key (insertEntry key v entries) = some v := by
  induction entries with
  | nil => simp [lookup?, insertEntry, h]
  | cons entry rest ih =>
    by_cases hk : sameKey entry.1 key = true
    · simp [lookup?, insertEntry, hk]
    · simpa [lookup?, insertEntry, hk] using ih

end QueryJournal.Value

import QueryJournal.Value.Basic

/-!
# Keys

Which values may be keys, and when two of them are the same key. Numbers are
compared by value across their types; objects without a value of their own are
the same key only as themselves, so never as another one.
-/

namespace QueryJournal.Value

/-- A number as a key. Finite ones have no zeros at the end of their digits. -/
inductive KeyNumber where
  /-- The number `± coefficient · 10 ^ exponent`. -/
  | finite (negative : Bool) (coefficient : Nat) (exponent : Int)
  /-- An infinity. -/
  | infinity (negative : Bool)
  deriving DecidableEq

/-- A finite number as a key; there is one zero. -/
def KeyNumber.ofScaled
    (negative : Bool) (coefficient : Nat) (exponent : Int) : KeyNumber :=
  if coefficient = 0 then .finite false 0 0
  else
    let ds := (Number.digits coefficient).reverse
    let kept := ds.dropWhile (· == '0')
    let dropped := ds.length - kept.length
    .finite negative (Nat.ofDigitChars 10 kept.reverse 0) (exponent + dropped)

/-- The number that a decimal stands for as a key. -/
def KeyNumber.ofDecimal? : Decimal → Option KeyNumber
  | .finite negative c e => some (.ofScaled negative c e)
  | .infinity negative => some (.infinity negative)
  | .nan _ _ _ => none

/-- The number that a value stands for as a key. -/
def keyNumber? : Value → Option KeyNumber
  | .truth b => KeyNumber.ofDecimal? (.ofInt (if b then 1 else 0))
  | .int n => KeyNumber.ofDecimal? (.ofInt n)
  | .float x => KeyNumber.ofDecimal? (.ofBinary x)
  | .decimal d => KeyNumber.ofDecimal? d
  | _ => none

/-- Whether two moments are the same: as instants if both offsets are known, by
their clocks if neither is. -/
def sameMoment (t u : Moment) : Bool :=
  t.offset.isSome == u.offset.isSome && t.toMicros == u.toMicros

mutual

/-- Whether two values are the same key. -/
def sameKey : Value → Value → Bool
  | .null, .null => true
  | .text s, .text t => s == t
  | .bytes s, .bytes t => s == t
  | .uuid u, .uuid v => u == v
  | .moment t, .moment u => sameMoment t u
  | .address a, .address b => a == b
  | .outcome o, .outcome p => o == p
  | .tuple xs, .tuple ys => sameKeys xs ys
  | x, y =>
    match keyNumber? x, keyNumber? y with
    | some m, some n => m == n
    | _, _ => false

/-- Whether two rows hold the same keys. -/
def sameKeys : List Value → List Value → Bool
  | [], [] => true
  | x :: xs, y :: ys => sameKey x y && sameKeys xs ys
  | _, _ => false

end

mutual

/-- Whether a value may be a key: no mutable container and no signalling NaN,
nor a row with one. -/
def isKey : Value → Bool
  | .list _ | .mapping _ => false
  | .decimal (.nan true _ _) => false
  | .tuple xs => areKeys xs
  | _ => true

/-- Whether all elements of a row may be keys. -/
def areKeys : List Value → Bool
  | [] => true
  | x :: xs => isKey x && areKeys xs

end

/-- Stores a value under a key; a key that is present keeps its place. -/
def insertEntry
    (key value : Value) : List (Value × Value) → List (Value × Value)
  | [] => [(key, value)]
  | (k, v) :: rest =>
    if sameKey k key then (k, value) :: rest
    else (k, v) :: insertEntry key value rest

/-- Stores a value under a key, if it may be one. -/
def insertEntry?
    (key value : Value) (entries : List (Value × Value)) :
    Option (List (Value × Value)) :=
  if isKey key then some (insertEntry key value entries) else none

end QueryJournal.Value

import QueryJournal.Failure.Basic

/-!
# Latencies

A latency is measured in nanoseconds and told in whole milliseconds, rounded
down. What is measured need not be an integer: floating-point numbers are
divided with the rounding of their arithmetic, and decimal numbers lose what
stands after the point.
-/

namespace QueryJournal

/-- A number of milliseconds, of the kind that the latency was measured in. -/
inductive Millis where
  /-- An integer. -/
  | int (n : Int)
  /-- A floating-point number. -/
  | float (x : Binary)
  /-- A decimal number. -/
  | decimal (d : Decimal)
  deriving DecidableEq

namespace Millis

/-- The nanoseconds in a millisecond. -/
def nanos : Nat :=
  1000000

/-- The number as a value. -/
def toValue : Millis → Value
  | .int n => .int n
  | .float x => .float x
  | .decimal d => .decimal d

/-- The number as text. -/
def text : Millis → String
  | .int n => Number.text n
  | .float x => x.text
  | .decimal d => d.text

/-- The integer next to a number that missed it by rounding; in the middle
between two of them it is the lower one. -/
def snap (negative : Bool) (num den : Nat) : Nat :=
  let low := num / den
  let rest := num % den
  if den < 2 * rest ∨ (2 * rest = den ∧ negative) then low + 1 else low

/-- The size of a number of milliseconds from the whole milliseconds in the size
of a latency. The product, the quotient and the step down to the next one below
a negative latency are each rounded. -/
def sizeOfFloat (below : Bool) (whole : Nat) : Binary :=
  let quotient :=
    match Binary.ofRatio .double false (whole * nanos) 1 with
    | .finite _ m q =>
      let (num, den) := Binary.fraction m q
      Binary.ofRatio .double false num (den * nanos)
    | x => x
  match quotient with
  | .finite _ m q =>
    let (num, den) := Binary.fraction m q
    if below then Binary.ofRatio .double false (num + den) den else quotient
  | x => x

/-- The milliseconds in a floating-point number of nanoseconds. Infinitely many
have no remainder, so that there is no number of milliseconds either. -/
def ofFloat : Binary → Binary
  | .finite negative m q =>
    let (num, den) := Binary.fraction m q
    let below := negative && num % (den * nanos) != 0
    match sizeOfFloat below (num / (den * nanos)) with
    | .finite _ m q =>
      let (num, den) := Binary.fraction m q
      Binary.ofRatio .double negative (snap negative num den) 1
    | x => x
  | .infinity _ => .nan false
  | .nan negative => .nan negative

/-- The milliseconds in a decimal number of nanoseconds; there must not be more
digits than the arithmetic has. -/
def ofDecimal : Decimal → Except Failure Decimal
  | .finite negative c e =>
    if Decimal.standard.precision < Decimal.wholeDigits c (e - 6) then
      .error .tooManyPlaces
    else .ok (.finite negative (Decimal.wholePart c (e - 6)) 0)
  | .infinity negative => .ok (.infinity negative)
  | .nan true _ _ => .error .invalidDecimal
  | .nan false negative payload =>
    .ok (.nan false negative (payload % Nat.pow 10 Decimal.standard.precision))

/-- The milliseconds in what was measured. Only numbers can be divided. -/
def ofLatency : Value → Except Failure Millis
  | .float x => .ok (.float (ofFloat x))
  | .decimal d => (ofDecimal d).map .decimal
  | v =>
    match v.asInt? with
    | some n => .ok (.int (n / nanos))
    | none => .error (.indivisible v.className)

/-- Whether the number `± num / den` exceeds an integer. -/
def fractionExceeds (negative : Bool) (num den : Nat) (n : Int) : Bool :=
  n * den < if negative then -(num : Int) else num

/-- Whether the number is greater than a threshold. A decimal number that is
none refuses to be compared. -/
def exceeds (threshold : Int) : Millis → Except Failure Bool
  | .int n => .ok (threshold < n)
  | .float (.finite negative m q) =>
    let (num, den) := Binary.fraction m q
    .ok (fractionExceeds negative num den threshold)
  | .float (.infinity negative) => .ok !negative
  | .float (.nan _) => .ok false
  | .decimal (.finite negative c e) =>
    .ok (fractionExceeds negative (c * Nat.pow 10 e.toNat)
      (Nat.pow 10 (-e).toNat) threshold)
  | .decimal (.infinity negative) => .ok !negative
  | .decimal (.nan _ _ _) => .error .invalidDecimal

end Millis

/-- The outcome of a query. Whether it timed out only matters if it failed, and
how long it took only if it did not. -/
def Outcome.classify
    (millis : Millis) (failed timedOut : Bool) (threshold : Int) :
    Except Failure Outcome :=
  if failed then .ok (if timedOut then .timeout else .error)
  else (millis.exceeds threshold).map fun isSlow =>
    if isSlow then .slow else .normal

end QueryJournal

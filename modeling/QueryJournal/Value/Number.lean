import QueryJournal.Failure.Basic

/-!
# The numbers that values stand for

Some values can be used where an integer or a floating-point number is asked
for. What they have after the point is dropped, or rounded.
-/

namespace QueryJournal

/-- The integer that a floating-point number stands for, where fractions are
rounded by a division. -/
def Binary.whole (round : Int → Int → Int) : Binary → Except Failure Int
  | .finite negative m q =>
    let (num, den) := Binary.fraction m q
    .ok (round (if negative then -(num : Int) else num) den)
  | .infinity _ => .error .outOfRange
  | .nan _ => .error .notWhole

/-- The integer that a decimal number stands for, without its fraction. -/
def Decimal.whole : Decimal → Except Failure Int
  | .finite negative c e =>
    if Decimal.greatestSize < Decimal.wholeDigits c e then
      .error (.codec .outOfMemory)
    else if Number.longestText < Decimal.wholeDigits c e then
      .error .tooManyDigits
    else
      let n : Int := Decimal.wholePart c e
      .ok (if negative then -n else n)
  | .infinity _ => .error .outOfRange
  | .nan _ _ _ => .error .notWhole

/-- The floating-point number nearest to a decimal number. -/
def Decimal.toBinary : Decimal → Except Failure Binary
  | .finite negative c e => .ok (Binary.ofDecimal .double negative c e)
  | .infinity negative => .ok (.infinity negative)
  | .nan true _ _ => .error .notWhole
  | .nan false negative _ => .ok (.nan negative)

namespace Value

/-- The integer that a value stands for, without a fraction. -/
def whole : Value → Except Failure Int
  | .float x => x.whole Int.tdiv
  | .decimal d => d.whole
  | .uuid u => .ok u.value.toNat
  | .address (.v4 n) => .ok n.toNat
  | .address (.v6 n _) => .ok n.toNat
  | v =>
    match v.asInt? with
    | some n => .ok n
    | none => .error .notANumber

/-- The floating-point number that a value stands for. -/
def real : Value → Except Failure Binary
  | .float x => .ok x
  | .decimal d => d.toBinary
  | v =>
    match v.asInt? with
    | some n =>
      match Binary.ofInt .double n with
      | .infinity _ => .error .outOfRange
      | x => .ok x
    | none => .error .notANumber

end Value

end QueryJournal

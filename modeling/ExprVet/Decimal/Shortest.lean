import ExprVet.Decimal.Binary64

/-! # Shortest decimal digits

The reals that round to a binary value form an interval. Among the decimal numbers in it the ones
with the fewest digits are taken, and of these the nearest to the value. -/

namespace ExprVet.Decimal

/-- The number `digits * 10 ^ exponent`. -/
structure Scientific where
  digits : Nat
  exponent : Int
  deriving DecidableEq, Repr

/-- A value with the ends of the interval that rounds to it, as multiples of one positive unit. -/
structure Interval where
  low : Nat
  value : Nat
  high : Nat
  /-- Whether the ends round to the value too. -/
  closed : Bool
  /-- How many multiples make one. -/
  unit : Nat
  deriving Repr

/-- The interval of `mantissa * 2 ^ exponent`. Below a power of two the neighbours are half as far.
-/
def Interval.ofBinary (mantissa : Nat) (exponent : Int) : Interval :=
  let scale := Nat.pow 2 (exponent - 2).toNat
  let below := if mantissa = Nat.pow 2 52 ∧ -1074 < exponent then 1 else 2
  { low := (4 * mantissa - below) * scale
    value := 4 * mantissa * scale
    high := (4 * mantissa + 2) * scale
    closed := mantissa % 2 = 0
    unit := Nat.pow 2 (2 - exponent).toNat }

/-- Whether the multiple `n / den` lies in the interval. -/
def Interval.contains (i : Interval) (num den : Nat) : Bool :=
  if i.closed then i.low * den ≤ num && num ≤ i.high * den
  else i.low * den < num && num < i.high * den

/-- The nearest number of the grid `10 ^ step` that lies in the interval; of two equally near the
larger. -/
def Interval.onGrid? (i : Interval) (step : Int) : Option Scientific :=
  -- `d * 10 ^ step` is the multiple `d * up / down`
  let up := i.unit * Nat.pow 10 step.toNat
  let down := Nat.pow 10 (-step).toNat
  let floor := i.value * down / up
  let twiceRest := 2 * (i.value * down - floor * up)
  let lower := i.contains (floor * up) down
  let upper := i.contains ((floor + 1) * up) down
  if upper && (!lower || up ≤ twiceRest) then some ⟨floor + 1, step⟩
  else if lower then some ⟨floor, step⟩
  else none

/-- The largest `k` with `10 ^ k ≤ num / den`, searched upwards from a lower bound. -/
def log10Quotient (num den : Nat) : Nat → Int → Int
  | 0, k => k
  | fuel + 1, k =>
      if den * Nat.pow 10 (k + 1).toNat ≤ num * Nat.pow 10 (-(k + 1)).toNat then
        log10Quotient num den fuel (k + 1)
      else k

/-- A number without the zeros that end its digits. -/
def Scientific.stripZeros : Nat → Scientific → Scientific
  | 0, s => s
  | fuel + 1, s =>
      if s.digits % 10 = 0 then stripZeros fuel ⟨s.digits / 10, s.exponent + 1⟩ else s

/-- The shortest decimal that reads back as `mantissa * 2 ^ exponent`, for a positive mantissa. -/
def shortest (mantissa : Nat) (exponent : Int) : Scientific :=
  let interval := Interval.ofBinary mantissa exponent
  let guess := ((mantissa.log2 : Int) + exponent) * 30103 / 100000 - 1
  let lead := log10Quotient interval.value interval.unit 4 guess
  let found := (List.range 17).findSome? fun n : Nat => interval.onGrid? (lead - n)
  (found.getD ⟨interval.value / interval.unit, 0⟩).stripZeros 20

end ExprVet.Decimal

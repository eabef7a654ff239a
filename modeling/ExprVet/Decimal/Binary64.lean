/-! # Nonnegative binary floating point values

A finite value is `mantissa * 2 ^ exponent` with a mantissa below `2 ^ 53` and an exponent between
`-1074` and `971`. A quotient of natural numbers is rounded to the nearest of these, a tie going to
the even mantissa, and one that is too large becomes infinite. -/

namespace ExprVet.Decimal

inductive Binary64 where
  | finite (mantissa : Nat) (exponent : Int)
  | infinite
  deriving DecidableEq, Repr

/-- The quotient rounded to the nearest natural number, a tie going to the even one. -/
def roundQuotient (num den : Nat) : Nat :=
  let quotient := num / den
  let twice := 2 * (num % den)
  if twice < den then quotient
  else if den < twice then quotient + 1
  else if quotient % 2 = 0 then quotient else quotient + 1

/-- The largest `k` with `2 ^ k ≤ num / den`. -/
def log2Quotient (num den : Nat) : Int :=
  let guess : Int := (num.log2 : Int) - (den.log2 : Int)
  if den * Nat.pow 2 guess.toNat ≤ num * Nat.pow 2 (-guess).toNat then guess else guess - 1

namespace Binary64

def isZero : Binary64 → Bool
  | .finite mantissa _ => mantissa == 0
  | .infinite => false

/-- The value nearest to `num / den`. -/
def ofQuotient (num den : Nat) : Binary64 :=
  if num = 0 then .finite 0 (-1074)
  else
    let exponent := max (-1074) (log2Quotient num den - 52)
    let mantissa :=
      roundQuotient (num * Nat.pow 2 (-exponent).toNat) (den * Nat.pow 2 exponent.toNat)
    let (mantissa, exponent) :=
      if mantissa = Nat.pow 2 53 then (Nat.pow 2 52, exponent + 1) else (mantissa, exponent)
    if exponent ≤ 971 then .finite mantissa exponent else .infinite

end Binary64

end ExprVet.Decimal

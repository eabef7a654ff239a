import ExprVet.Decimal.Shortest

/-! # Written form of floating point values

A value is written with the fewest digits that read back. From `10 ^ -4` up to below `10 ^ 16` it is
written positionally with at least one decimal; outside of that range with an exponent. -/

namespace ExprVet.Decimal

/-- Where positional writing begins and ends, as decimal exponents of the leading digit. -/
structure Layout where
  leastPositional : Int
  mostPositional : Int

/-- Values from one ten-thousandth up to below ten to the sixteenth are written positionally. -/
def Layout.plain : Layout := ⟨-4, 15⟩

private def digitChars (n : Nat) : List Char := Nat.toDigits 10 n

/-- `digits * 10 ^ exponent` with a point and at least one decimal. -/
def positional (s : Scientific) : List Char :=
  let digits := digitChars s.digits
  if 0 ≤ s.exponent then
    digits ++ List.replicate s.exponent.toNat '0' ++ ['.', '0']
  else
    let places := (-s.exponent).toNat
    let padded := List.replicate (places + 1 - digits.length) '0' ++ digits
    let whole := padded.length - places
    padded.take whole ++ '.' :: padded.drop whole

/-- `digits * 10 ^ exponent` with one digit before the point and an exponent. -/
def scientific (s : Scientific) : List Char :=
  match digitChars s.digits with
  | [] => []
  | lead :: rest =>
      let exponent := s.exponent + rest.length
      let fraction := if rest.isEmpty then [] else '.' :: rest
      let sign := if exponent < 0 then ['-'] else []
      lead :: fraction ++ 'e' :: sign ++ digitChars exponent.natAbs

def Binary64.text (value : Binary64) (layout : Layout) : String :=
  match value with
  | .infinite => "inf"
  | .finite 0 _ => "0.0"
  | .finite mantissa exponent =>
      let s := shortest mantissa exponent
      let lead := s.exponent + (digitChars s.digits).length - 1
      String.ofList <|
        if layout.leastPositional ≤ lead ∧ lead ≤ layout.mostPositional then positional s
        else scientific s

end ExprVet.Decimal

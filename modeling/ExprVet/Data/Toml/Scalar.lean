import ExprVet.Data.Value
import ExprVet.Decimal.Binary64
import ExprVet.Text.Blank

/-! # Unquoted scalars

Truth values, numbers and dates are written without quotes. A word is one of them as a whole or it
is no scalar. Of fractions and dates it only matters that they are well formed. -/

namespace ExprVet.Data.Toml

def isDigit (c : Char) : Bool := '0' ≤ c && c ≤ '9'

def isHexDigit (c : Char) : Bool := isDigit c || ('a' ≤ c && c ≤ 'f') || ('A' ≤ c && c ≤ 'F')

def digitValue (c : Char) : Nat :=
  if isDigit c then c.toNat - '0'.toNat
  else if 'a' ≤ c then c.toNat - 'a'.toNat + 10
  else c.toNat - 'A'.toNat + 10

/-- The number that digits write in a base. Underscores are passed over. -/
def numeral (base : Nat) (cs : List Char) : Nat :=
  (cs.filter (· != '_')).foldl (fun n c => base * n + digitValue c) 0

/-- Whether a text is a run of digits with single underscores between some of them. -/
def grouped (digit : Char → Bool) : List Char → Bool
  | [] => false
  | [c] => digit c
  | c :: '_' :: cs => digit c && grouped digit cs
  | c :: cs => digit c && grouped digit cs

/-- Whether a text is a decimal number without a needless zero in front. -/
def isWhole (cs : List Char) : Bool :=
  grouped isDigit cs && (cs.length == 1 || cs.head? != some '0')

/-- A text without the sign it may start with, and whether that is a minus. -/
def unsigned : List Char → Bool × List Char
  | '-' :: cs => (true, cs)
  | '+' :: cs => (false, cs)
  | cs => (false, cs)

/-- Whole numbers have room in 128 bits. -/
def inRange : Int → Bool
  | .ofNat n => n < Nat.pow 2 128
  | .negSucc n => n < Nat.pow 2 127

def integer? (word : List Char) : Option Int :=
  let based (base : Nat) (digit : Char → Bool) (cs : List Char) :=
    if grouped digit cs then some (numeral base cs : Int) else none
  let found := match word with
    | '0' :: 'x' :: cs => based 16 isHexDigit cs
    | '0' :: 'o' :: cs => based 8 (fun c => '0' ≤ c && c ≤ '7') cs
    | '0' :: 'b' :: cs => based 2 (fun c => c == '0' || c == '1') cs
    | word =>
        let (negative, cs) := unsigned word
        if isWhole cs then some (if negative then -numeral 10 cs else numeral 10 cs) else none
  found.filter inRange

/-- Whether `digits * 10 ^ exponent` is too large for a floating point number. -/
def overflows (digits : Nat) (exponent : Int) : Bool :=
  let places := (Nat.toDigits 10 digits).length + exponent
  if digits = 0 ∨ places < 300 then false
  else if 310 < places then true
  else
    let up := Nat.pow 10 exponent.toNat
    let down := Nat.pow 10 (-exponent).toNat
    Decimal.Binary64.ofQuotient (digits * up) down = .infinite

/-- Whether a word is a fraction, a number with an exponent, an infinity or no number. -/
def isFloat (word : List Char) : Bool :=
  let (_, cs) := unsigned word
  let isExponent := fun c : Char => c == 'e' || c == 'E'
  let (mantissa, scale?) : List Char × Option (List Char) :=
    match Text.cutAt? isExponent cs with
    | some (mantissa, scale) => (mantissa, some scale)
    | none => (cs, none)
  let (whole, fraction?) : List Char × Option (List Char) :=
    match Text.cutAt? (· == '.') mantissa with
    | some (whole, fraction) => (whole, some fraction)
    | none => (mantissa, none)
  let (down, scale) := unsigned (scale?.getD [])
  let fraction := fraction?.getD []
  let exponent : Int := if down then -numeral 10 scale else numeral 10 scale
  let places : Int := (fraction.filter isDigit).length
  cs == "inf".toList || cs == "nan".toList ||
    ((scale?.isSome || fraction?.isSome) && isWhole whole &&
      fraction?.all (grouped isDigit) && scale?.all (fun _ => grouped isDigit scale) &&
      !overflows (numeral 10 (whole ++ fraction)) (exponent - places))

/-- The days of a month of a year. -/
def daysOfMonth (year month : Nat) : Nat :=
  if month = 2 then if year % 4 = 0 ∧ (year % 100 ≠ 0 ∨ year % 400 = 0) then 29 else 28
  else if month = 4 ∨ month = 6 ∨ month = 9 ∨ month = 11 then 30
  else 31

/-- What follows the date at the start of a text. -/
def afterDate? : List Char → Option (List Char)
  | y₁ :: y₂ :: y₃ :: y₄ :: '-' :: m₁ :: m₂ :: '-' :: d₁ :: d₂ :: rest =>
      let year := [y₁, y₂, y₃, y₄]
      let month := numeral 10 [m₁, m₂]
      let day := numeral 10 [d₁, d₂]
      if (year ++ [m₁, m₂, d₁, d₂]).all isDigit ∧ 1 ≤ month ∧ month ≤ 12 ∧ 1 ≤ day ∧
          day ≤ daysOfMonth (numeral 10 year) month then some rest
      else none
  | _ => none

/-- What follows two digits that write a number up to a greatest one. -/
def afterPair? (greatest : Nat) : List Char → Option (List Char)
  | a :: b :: rest =>
      if isDigit a && isDigit b && numeral 10 [a, b] ≤ greatest then some rest else none
  | _ => none

/-- What follows the time at the start of a text. Seconds and their fraction may be left out. -/
def afterTime? (cs : List Char) : Option (List Char) := do
  let ':' :: cs ← afterPair? 23 cs | none
  let cs ← afterPair? 59 cs
  let ':' :: cs := cs | return cs
  let cs ← afterPair? 60 cs
  let '.' :: cs := cs | return cs
  if cs.head?.any isDigit then return cs.dropWhile isDigit else none

/-- Whether a text is empty or the distance of a local time from the universal one. -/
def isOffset : List Char → Bool
  | [] | ['Z'] | ['z'] => true
  | sign :: cs =>
      (sign == '+' || sign == '-') &&
        match afterPair? 23 cs with
        | some (':' :: cs) => afterPair? 59 cs == some []
        | _ => false

def isDate (word : List Char) : Bool := afterDate? word == some []

/-- Whether a word is a date, a time or both. -/
def isMoment (word : List Char) : Bool :=
  match afterDate? word with
  | some [] => true
  | some (c :: time) =>
      (c == 'T' || c == 't' || c == ' ') && (afterTime? time).any isOffset
  | none => afterTime? word == some []

/-- The value of a word. A date has no part that anything asks for, so it is an empty table. -/
def scalar? (word : List Char) : Option Value :=
  if word == "true".toList then some (.bool true)
  else if word == "false".toList then some (.bool false)
  else
    match integer? word with
    | some n => some (.int n)
    | none =>
        if isFloat word then some .opaqueScalar
        else if isMoment word then some (.table [])
        else none

end ExprVet.Data.Toml

import KeyLens.Json.Binary64

/-!
# Shortest decimals

The decimal of a binary number has the fewest digits that read back as the number, and of those
decimals it is the nearest one. It is written out in full while its point lies close to its
digits, and with an exponent otherwise.
-/

namespace KeyLens

/-- The number `digits * 10 ^ power`. -/
structure Decimal where
  /-- All digits as one whole number. -/
  digits : Nat
  /-- The power of ten that the last digit counts. -/
  power : Int
  deriving Repr, DecidableEq

/-- The decimal digits of a whole number. -/
def decimalDigits (n : Nat) : List Char :=
  Nat.toDigits 10 n

namespace Binary64

/-- A quarter of the distance to the neighbours as a quotient of whole numbers. All ends of the
rounding interval are whole multiples of it. -/
def quarter (x : Binary64) : Nat × Nat :=
  let exponent := x.exponent - 2
  if 0 ≤ exponent then (twoTo exponent.toNat, 1) else (1, twoTo (-exponent).toNat)

/-- How many quarters the lower end of the rounding interval lies below the number: the gap below
a power of two is half as wide. -/
def quartersBelow (x : Binary64) : Nat :=
  if x.mantissa = twoTo 52 ∧ x.exponent > leastExponent then 1 else 2

/-- The numerator and denominator of a decimal. -/
def decimalQuotient (d : Decimal) : Nat × Nat :=
  if 0 ≤ d.power then (d.digits * tenTo d.power.toNat, 1) else (d.digits, tenTo (-d.power).toNat)

/-- Whether a decimal lies in the interval of the magnitudes that round to the one of `x`. The ends
belong to the interval if the mantissa is even. -/
def roundsTo (x : Binary64) (d : Decimal) : Bool :=
  let (num, den) := decimalQuotient d
  let (unit, scale) := x.quarter
  let low := (4 * x.mantissa - x.quartersBelow) * unit * den
  let high := (4 * x.mantissa + 2) * unit * den
  let value := num * scale
  if x.mantissa % 2 = 0 then low ≤ value && value ≤ high else low < value && value < high

/-- The power of ten of the first decimal digit of a magnitude other than zero. -/
def leadingPower (x : Binary64) : Int :=
  let (num, den) := x.quotient
  ((decimalDigits (num * tenTo 330 / den)).length : Int) - 331

/-- The nearest of the two decimals around a magnitude whose last digit counts `power`, if it
rounds to the magnitude, or else the other one of them. -/
def neighbour? (x : Binary64) (power : Int) : Option Decimal :=
  let (num, den) := x.quotient
  let (top, bottom) :=
    if 0 ≤ power then (num, den * tenTo power.toNat) else (num * tenTo (-power).toNat, den)
  let below : Decimal := ⟨top / bottom, power⟩
  let above : Decimal := ⟨top / bottom + 1, power⟩
  let twice := 2 * (top % bottom)
  let upFirst := twice > bottom || (twice == bottom && below.digits % 2 == 1)
  let (near, far) := if upFirst then (above, below) else (below, above)
  if x.roundsTo near then some near
  else if x.roundsTo far then some far
  else none

/-- The shortest decimal of at least `count` digits, looking for `more` further digits. -/
def shortestFrom (x : Binary64) (count : Nat) : Nat → Option Decimal
  | 0 => none
  | more + 1 =>
    match x.neighbour? (x.leadingPower - (count - 1 : Nat)) with
    | some d => some d
    | none => shortestFrom x (count + 1) more

/-- A decimal without zeros at its end. -/
def dropZeros (d : Decimal) : Nat → Decimal
  | 0 => d
  | fuel + 1 =>
    if d.digits ≠ 0 ∧ d.digits % 10 = 0 then dropZeros ⟨d.digits / 10, d.power + 1⟩ fuel else d

/-- The shortest decimal that reads back as a magnitude; seventeen digits are always enough. -/
def shortest (x : Binary64) : Decimal :=
  if x.mantissa = 0 then ⟨0, 0⟩
  else dropZeros ((x.shortestFrom 1 17).getD ⟨0, 0⟩) 20

/-- The places of the decimal point up to which a number is written out: from five zeros behind
the point to sixteen digits before it. -/
def plainPlaces : Int × Int := (-5, 16)

/-- The text of an exponent with its sign. -/
def exponentText (exponent : Int) : List Char :=
  'e' :: (if exponent < 0 then '-' else '+') :: decimalDigits exponent.natAbs

/-- The text of a magnitude other than zero: a point with digits on both sides if it is written
out, and an exponent otherwise. -/
def decimalText (d : Decimal) : List Char :=
  let digits := decimalDigits d.digits
  let place : Int := digits.length + d.power
  if plainPlaces.1 < place ∧ place ≤ plainPlaces.2 then
    if 0 ≤ d.power then digits ++ List.replicate d.power.toNat '0' ++ ['.', '0']
    else if 0 < place then digits.take place.toNat ++ '.' :: digits.drop place.toNat
    else '0' :: '.' :: (List.replicate (-place).toNat '0' ++ digits)
  else match digits with
    | [digit] => digit :: exponentText (place - 1)
    | digit :: others => digit :: '.' :: (others ++ exponentText (place - 1))
    | [] => []

/-- The text of a number: its shortest decimal, with the sign before it. -/
def text (x : Binary64) : List Char :=
  let magnitude := if x.mantissa = 0 then ['0', '.', '0'] else decimalText x.shortest
  if x.negative then '-' :: magnitude else magnitude

end Binary64

end KeyLens

/-!
# Numbers of sixty-four bits

A binary number with a significand of fifty-three bits and an exponent of eleven, as a sign, a
whole mantissa and a power of two. Quotients of whole numbers are rounded to the nearest such
number, and a tie goes to the even mantissa.
-/

namespace KeyLens

/-- The number `mantissa * 2 ^ exponent`, with a sign that zero has too. -/
structure Binary64 where
  /-- Whether the number carries a minus sign. -/
  negative : Bool
  /-- The significand as a whole number below `2 ^ 53`. -/
  mantissa : Nat
  /-- The power of two that the mantissa counts. -/
  exponent : Int
  deriving Repr, DecidableEq

namespace Binary64

/-- The least exponent, that of the numbers nearest to zero. -/
def leastExponent : Int := -1074

/-- The greatest exponent of a finite number. -/
def greatestExponent : Int := 971

/-- Zero without a minus sign. -/
def zero : Binary64 := ⟨false, 0, leastExponent⟩

/-- Twice the remainder against the divisor decides; a tie goes to the even quotient. -/
def roundQuotient (num den : Nat) : Nat :=
  let quotient := num / den
  let twice := 2 * (num % den)
  if twice > den ∨ (twice = den ∧ quotient % 2 = 1) then quotient + 1 else quotient

/-- A power of two. -/
def twoTo (exponent : Nat) : Nat := Nat.pow 2 exponent

/-- A power of ten. -/
def tenTo (exponent : Nat) : Nat := Nat.pow 10 exponent

/-- The numerator and the denominator of `num / den * 2 ^ (-exponent)`. -/
def scaled (num den : Nat) (exponent : Int) : Nat × Nat :=
  if 0 ≤ exponent then (num, den * twoTo exponent.toNat) else (num * twoTo (-exponent).toNat, den)

/-- The exponent at which the whole part of `num / den * 2 ^ (-exponent)` has fifty-three bits, but
no less than the least one. -/
def exponentFor (num den : Nat) : Int :=
  let guess : Int := (num.log2 : Int) - (den.log2 : Int) - 53
  let (top, bottom) := scaled num den guess
  let exact := if twoTo 53 ≤ top / bottom then guess + 1 else guess
  if exact < leastExponent then leastExponent else exact

/-- The number nearest to the quotient of two whole numbers; none if it is too large. -/
def ofQuotient? (num den : Nat) : Option Binary64 :=
  if num = 0 then some zero
  else
    let exponent := exponentFor num den
    let (top, bottom) := scaled num den exponent
    let rounded := roundQuotient top bottom
    let carried := rounded = twoTo 53
    let mantissa := if carried then twoTo 52 else rounded
    let exponent := if carried then exponent + 1 else exponent
    if exponent > greatestExponent then none else some ⟨false, mantissa, exponent⟩

/-- The magnitude of a number as a quotient of whole numbers. -/
def quotient (x : Binary64) : Nat × Nat :=
  if 0 ≤ x.exponent then (x.mantissa * twoTo x.exponent.toNat, 1)
  else (x.mantissa, twoTo (-x.exponent).toNat)

/-- The product of two magnitudes; none if it is too large. -/
def mul? (x y : Binary64) : Option Binary64 :=
  ofQuotient? (x.quotient.1 * y.quotient.1) (x.quotient.2 * y.quotient.2)

/-- The quotient of two magnitudes, the second one not zero; none if it is too large. -/
def div? (x y : Binary64) : Option Binary64 :=
  ofQuotient? (x.quotient.1 * y.quotient.2) (x.quotient.2 * y.quotient.1)

/-- The number nearest to a power of ten; none if it is too large. -/
def powerOfTen? (power : Nat) : Option Binary64 :=
  ofQuotient? (tenTo power) 1

/-- The greatest power of ten that is a finite number. -/
def greatestPower : Nat := 308

/-- A magnitude divided by a power of ten. -/
def divPower (x : Binary64) (power : Nat) : Option Binary64 :=
  (powerOfTen? power).bind x.div?

/-- A magnitude divided by `10 ^ power`. Each of the steps divides by a power that is a number
itself and rounds; zero stays zero. -/
def scaleDownIn (x : Binary64) (power : Nat) : Nat → Option Binary64
  | 0 => some x
  | steps + 1 =>
    if power ≤ greatestPower then x.divPower power
    else if x.mantissa = 0 then some x
    else (x.divPower greatestPower).bind fun y => scaleDownIn y (power - greatestPower) steps

/-- A magnitude divided by a power of ten; every step takes off more than one power. -/
def scaleDown (x : Binary64) (power : Nat) : Option Binary64 :=
  scaleDownIn x power (power + 1)

/-- A magnitude multiplied by a power of ten; none if the result is too large. -/
def scaleUp (x : Binary64) (power : Nat) : Option Binary64 :=
  if power ≤ greatestPower then (powerOfTen? power).bind x.mul?
  else if x.mantissa = 0 then some x
  else none

/-- The number read from a whole significand and a power of ten; none if it is too large. The
significand is rounded first and then scaled. -/
def ofDecimal? (negative : Bool) (significand : Nat) (power : Int) : Option Binary64 :=
  (ofQuotient? significand 1).bind fun x =>
    (if 0 ≤ power then x.scaleUp power.toNat else x.scaleDown (-power).toNat).map fun y =>
      { y with negative := negative }

end Binary64

end KeyLens

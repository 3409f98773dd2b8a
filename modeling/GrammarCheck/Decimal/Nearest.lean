/-! The double nearest to a fraction, by exact arithmetic. Halfway between two doubles the even one is
taken, and what is too large becomes infinite. -/
namespace GrammarCheck.Decimal

def roundedQuotient (numerator denominator : Nat) : Nat :=
  let quotient := numerator / denominator
  let rest := 2 * (numerator % denominator)
  if rest < denominator then quotient
  else if denominator < rest then quotient + 1
  else quotient + quotient % 2

/-- The exponent of the last bit of the doubles around a fraction of two positive numbers. -/
def lastBit (numerator denominator : Nat) : Int :=
  let estimate : Int := Nat.log2 numerator - Nat.log2 denominator
  let reached : Bool :=
    if 0 ≤ estimate then denominator * Nat.pow 2 estimate.toNat ≤ numerator
    else denominator ≤ numerator * Nat.pow 2 (-estimate).toNat
  max (-1074) ((if reached then estimate else estimate - 1) - 52)

def infinityBits : Nat := 2047 * Nat.pow 2 52

def nearestBits (numerator denominator : Nat) : Nat :=
  if numerator = 0 then 0
  else
    let last := lastBit numerator denominator
    let mantissa := roundedQuotient (numerator * Nat.pow 2 (-last).toNat) (denominator * Nat.pow 2 last.toNat)
    min infinityBits (mantissa + (last + 1074).toNat * Nat.pow 2 52)

def nearest (numerator denominator : Nat) : Float :=
  Float.ofBits (nearestBits numerator denominator).toUInt64

/-- The double nearest to `coefficient * 10 ^ exponent`. Powers far out of range are not computed. -/
def nearestDecimal (coefficient : Nat) (exponent : Int) : Float :=
  let size : Int := (Nat.toDigits 10 coefficient).length
  if coefficient = 0 ∨ size + exponent < -400 then nearest 0 1
  else if 400 < size + exponent then Float.ofBits infinityBits.toUInt64
  else nearest (coefficient * Nat.pow 10 exponent.toNat) (Nat.pow 10 (-exponent).toNat)

end GrammarCheck.Decimal

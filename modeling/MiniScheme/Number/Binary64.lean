/-!
# Doubles as exact numbers

A finite double is a dyadic number `mantissa * 2 ^ exponent` with a sign. This
module reads that number off the bits and finds the double nearest to an exact
ratio, both in natural-number arithmetic:

* `Dyadic.ofBits` — the number that the bits without the sign stand for;
* `nearestBits` — the bits of the double nearest to a ratio, a tie going to
  the even mantissa and everything past the largest double to infinity.

Without the sign, the bits of the doubles are ordered as the doubles are, and
the bits of `m * 2 ^ e` are `(e + 1074) * 2 ^ 52 + m` for every mantissa below
`2 ^ 53` that is at its least exponent. Rounding up to `2 ^ 53` therefore
carries into the exponent by itself.
-/

namespace MiniScheme

/-- `n * base ^ exponent`, or `n` itself for a negative exponent. -/
def timesPow (base n : Nat) (exponent : Int) : Nat := n * Nat.pow base exponent.toNat

/-- The exact number `mantissa * 2 ^ exponent`. -/
structure Dyadic where
  mantissa : Nat
  exponent : Int
  deriving DecidableEq

/-- The bit before the mantissa, `2 ^ 52`: the bits of a double leave it out. -/
def hiddenBit : Nat := 0x10000000000000

namespace Dyadic

/-- The numerator of the number as a ratio of naturals. -/
def numerator (d : Dyadic) : Nat := timesPow 2 d.mantissa d.exponent

/-- The denominator of the number as a ratio of naturals, a power of two. -/
def denominator (d : Dyadic) : Nat := timesPow 2 1 (-d.exponent)

/-- The number that the bits of a finite double, sign left out, stand for. -/
def ofBits (bits : Nat) : Dyadic :=
  if bits < hiddenBit then ⟨bits, -1074⟩
  else ⟨hiddenBit + bits % hiddenBit, (bits / hiddenBit : Nat) - 1075⟩

end Dyadic

namespace Binary64

/-- The sign bit, `2 ^ 63`. -/
def signBit : Nat := 0x8000000000000000

/-- The bits of positive infinity: the least bits that belong to no number. -/
def infinityBits : Nat := 2047 * hiddenBit

/-- The sign of a double. -/
def isNegative (x : Float) : Bool := signBit ≤ x.toBits.toNat

/-- The bits of a double without its sign. -/
def magnitudeBits (x : Float) : Nat := x.toBits.toNat % signBit

/-- The size of a finite double, `none` for an infinity or a NaN. -/
def magnitude? (x : Float) : Option Dyadic :=
  if magnitudeBits x < infinityBits then some (.ofBits (magnitudeBits x)) else none

/-- The double with the given sign and bits. -/
def ofMagnitudeBits (negative : Bool) (bits : Nat) : Float :=
  .ofBits (.ofNat (if negative then signBit + bits else bits))

/-- The quotient rounded to the nearest natural, a tie going to the even one. -/
def divHalfEven (num den : Nat) : Nat :=
  let quotient := num / den
  let twice := 2 * (num % den)
  if twice < den ∨ (twice = den ∧ quotient % 2 = 0) then quotient else quotient + 1

/-- The numerator of `num / den` over `2 ^ exponent`. -/
def scaledNumerator (num : Nat) (exponent : Int) : Nat := timesPow 2 num (-exponent)

/-- The denominator of `num / den` over `2 ^ exponent`. -/
def scaledDenominator (den : Nat) (exponent : Int) : Nat := timesPow 2 den exponent

/-- The exponent at which `num / den` has a mantissa of 53 bits, or the least
exponent of all. The first guess is that exponent or one below it. -/
def exponentOf (num den : Nat) : Int :=
  let guess := max ((num.log2 : Int) - den.log2 - 53) (-1074)
  if scaledNumerator num guess / scaledDenominator den guess < 2 * hiddenBit then guess
  else guess + 1

/-- The bits of the double nearest to `num / den`. -/
def nearestBits (num den : Nat) : Nat :=
  if num = 0 then 0
  else
    let exponent := exponentOf num den
    let mantissa := divHalfEven (scaledNumerator num exponent) (scaledDenominator den exponent)
    min ((exponent + 1074).toNat * hiddenBit + mantissa) infinityBits

/-- The double nearest to the ratio, with the given sign. -/
def nearest (negative : Bool) (num den : Nat) : Float :=
  ofMagnitudeBits negative (nearestBits num den)

end Binary64
end MiniScheme

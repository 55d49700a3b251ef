import MiniScheme.Number.Binary64

/-!
# Integral operations on numbers

Integers are doubles without a fraction, so quotient and remainder are computed
exactly on the dyadic numbers and are doubles again without any rounding:

* `Number.truncate` — drops the fraction, keeping the sign, also that of zero;
* `Number.remainder` — what is left of the dividend, with the dividend's sign;
* `Number.modulo` — the same, moved by one divisor if its sign is the other one;
* `Number.isInteger` — finite and without a fraction.
-/

namespace MiniScheme.Number

open Binary64

/-- The whole part of the size of a number. -/
def wholePart (d : Dyadic) : Nat := d.numerator / d.denominator

/-- Drops the fraction. An infinity or a NaN has none to drop. -/
def truncate (x : Float) : Float :=
  match magnitude? x with
  | none => x
  | some d => nearest (isNegative x) (wholePart d) 1

/-- Both sizes on the finer of their two grids, and the exponent of that grid. -/
def alignedMantissas (a b : Dyadic) : Nat × Nat × Int :=
  let exponent := min a.exponent b.exponent
  (timesPow 2 a.mantissa (a.exponent - exponent), timesPow 2 b.mantissa (b.exponent - exponent),
    exponent)

/-- What is left of `x` after taking away `y` as often as it fits. It has the
sign of `x`. An infinite `x` and a zero `y` leave no number; an infinite `y`
leaves all of a finite `x`. -/
def remainder (x y : Float) : Float :=
  match magnitude? x, magnitude? y with
  | some a, some b =>
    if b.mantissa = 0 then 0 / 0
    else
      let (dividend, divisor, exponent) := alignedMantissas a b
      let left : Dyadic := ⟨dividend % divisor, exponent⟩
      nearest (isNegative x) left.numerator left.denominator
  | some _, none => if y.isNaN then y else x
  | none, _ => 0 / 0

/-- The remainder with the sign of the divisor. -/
def modulo (x y : Float) : Float :=
  let left := remainder x y
  if left != 0 && decide (left < 0) != decide (y < 0) then left + y else left

/-- Finite and without a fraction. -/
def isInteger (x : Float) : Bool :=
  match magnitude? x with
  | none => false
  | some d => d.numerator % d.denominator = 0

end MiniScheme.Number

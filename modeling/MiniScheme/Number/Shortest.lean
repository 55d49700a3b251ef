import MiniScheme.Number.Decimal

/-!
# The text of a number

A number is written with the fewest digits that read back to it, in positional
notation. Of two such decimals the nearer is taken, and of two equally near the
larger; the search walks the decimal grids of 1, 2, … 17 digits and looks at
the value's two neighbours on each. The exact expansion stands behind them, so
that the result reads back whatever the search finds.

* `Decimal.shortest` — those digits for the bits of a finite double;
* `Number.text` — the text of any double: `-0`, `inf`, `-inf`, `NaN`.
-/

namespace MiniScheme

namespace Decimal

/-- The exact value of a dyadic number: `m / 2 ^ k` is `m * 5 ^ k / 10 ^ k`. -/
def ofDyadic (d : Dyadic) : Decimal :=
  if 0 ≤ d.exponent then ⟨d.numerator, 0⟩
  else ⟨timesPow 5 d.mantissa (-d.exponent), d.exponent⟩

/-- The number of digits before the point of `num / den`, or minus the number
of zeros right after it: the `p` with `10 ^ (p - 1) ≤ num / den < 10 ^ p`. -/
def pointPosition (num den : Nat) : Int :=
  if den ≤ num then (Nat.toDigits 10 (num / den)).length
  else -(leadingZeros 400 (10 * num) : Int)
where
  /-- How many more tens it takes until the numerator reaches `den`. -/
  leadingZeros : Nat → Nat → Nat
    | 0, _ => 0
    | fuel + 1, num => if den ≤ num then 0 else leadingZeros fuel (10 * num) + 1

/-- The largest decimal with the given exponent that is not above `num / den`,
with twice the excess over it and the width of the grid, both over one
denominator. -/
def floorOn (num den : Nat) (exponent : Int) : Nat × Nat × Nat :=
  let scaled := timesPow 10 num (-exponent)
  let width := timesPow 10 den exponent
  (scaled / width, 2 * (scaled % width), width)

/-- The neighbours of `num / den` on the grid of `10 ^ exponent`, the nearer
one first; the upper one is the nearer if it is just as near. -/
def neighbours (num den : Nat) (exponent : Int) : List Decimal :=
  let (floor, twiceExcess, width) := floorOn num den exponent
  if twiceExcess < width then [⟨floor, exponent⟩, ⟨floor + 1, exponent⟩]
  else [⟨floor + 1, exponent⟩, ⟨floor, exponent⟩]

/-- The decimals tried for `num / den`: its neighbours on the grids of 1 to 17
digits. -/
def candidates (num den : Nat) : List Decimal :=
  let position := pointPosition num den
  (List.range 17).flatMap fun n =>
    (neighbours num den (position - (n + 1 : Nat))).map trimmed

/-- The shortest decimal that rounds to the finite double with these bits. -/
def shortest (bits : Nat) : Decimal :=
  let exact := Dyadic.ofBits bits
  let found := (candidates exact.numerator exact.denominator).find? fun d => d.nearestBits = bits
  found.getD (ofDyadic exact)

end Decimal

namespace Number

/-- The text of the size of a number. -/
def magnitudeText (bits : Nat) : List Char :=
  if bits = 0 then ['0'] else (Decimal.shortest bits).positional

/-- The text of a number: a minus for every negative one, zero included, but
none for a NaN. -/
def chars (x : Float) : List Char :=
  let bits := Binary64.magnitudeBits x
  if Binary64.infinityBits < bits then "NaN".toList
  else
    let size := if bits = Binary64.infinityBits then "inf".toList else magnitudeText bits
    if Binary64.isNegative x then '-' :: size else size

/-- The text of a number as a string. -/
def text (x : Float) : String := .ofList (chars x)

/-- The number that a whole word spells, correctly rounded. -/
def ofWord? (word : List Char) : Option Float :=
  (Decimal.ofWord? word).map fun (negative, d) =>
    Binary64.ofMagnitudeBits negative d.nearestBits

end Number
end MiniScheme

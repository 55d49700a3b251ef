import MiniScheme.Number.Binary64

/-!
# Decimal numbers

A decimal is `coefficient * 10 ^ exponent`. It is read from a word of the form
sign, digits with at most one point among them, exponent, and it is written in
positional notation, never with an exponent:

* `Decimal.ofWord?` — the sign and the decimal that a whole word spells;
* `Decimal.lacksExponent` — whether only the digits of the exponent are missing;
* `Decimal.positional` — the digits with the point, or the zeros, in place;
* `Decimal.nearestBits` — the double it is rounded to.
-/

namespace MiniScheme

/-- The exact number `coefficient * 10 ^ exponent`. -/
structure Decimal where
  coefficient : Nat
  exponent : Int
  deriving DecidableEq

namespace Decimal

/-! ## Reading -/

/-- The number that a row of decimal digits spells. -/
def digitsValue (digits : List Char) : Nat :=
  digits.foldl (fun value c => 10 * value + (c.toNat - '0'.toNat)) 0

/-- Takes an optional sign off the front; `true` for a minus. -/
def splitSign : List Char → Bool × List Char
  | '-' :: rest => (true, rest)
  | '+' :: rest => (false, rest)
  | rest => (false, rest)

/-- Takes a point and the digits after it off the front. -/
def splitFraction : List Char → List Char × List Char
  | '.' :: rest => rest.span Char.isDigit
  | rest => ([], rest)

/-- Reads what follows the digits to the end of the word: nothing, or `e` with
an optional sign and at least one digit. -/
def exponentOfWord? : List Char → Option Int
  | [] => some 0
  | c :: rest =>
    let (negative, digits) := splitSign rest
    if (c = 'e' ∨ c = 'E') ∧ digits ≠ [] ∧ digits.all Char.isDigit then
      some (if negative then -(digitsValue digits : Int) else digitsValue digits)
    else none

/-- Reads an optional sign and digits with at most one point among them off the
front of a word. Digits are needed before the point or after it. The third part
is what is left of the word. -/
def mantissaOfWord? (word : List Char) : Option (Bool × Decimal × List Char) :=
  let (negative, unsigned) := splitSign word
  let (whole, afterWhole) := unsigned.span Char.isDigit
  let (fraction, tail) := splitFraction afterWhole
  if whole = [] ∧ fraction = [] then none
  else some (negative, ⟨digitsValue (whole ++ fraction), -(fraction.length : Int)⟩, tail)

/-- Reads a whole word as a signed decimal. -/
def ofWord? (word : List Char) : Option (Bool × Decimal) :=
  match mantissaOfWord? word with
  | none => none
  | some (negative, d, tail) =>
    (exponentOfWord? tail).map fun exponent =>
      (negative, ⟨d.coefficient, exponent + d.exponent⟩)

/-- Does the word spell a number but for the digits of its exponent? -/
def lacksExponent (word : List Char) : Bool :=
  match mantissaOfWord? word with
  | some (_, _, [c]) => c = 'e' || c = 'E'
  | _ => false

/-! ## Rounding -/

/-- The bits of the double nearest to the decimal. An exponent far outside the
range of doubles is decided without computing the power. -/
def nearestBits (d : Decimal) : Nat :=
  if d.coefficient = 0 then 0
  else if 400 < d.exponent then Binary64.infinityBits
  else if d.exponent < -(400 + (d.coefficient.log2 : Int)) then 0
  else
    Binary64.nearestBits (timesPow 10 d.coefficient d.exponent) (timesPow 10 1 (-d.exponent))

/-- Drops the zeros at the end of the coefficient. -/
def trimmed (d : Decimal) : Decimal :=
  go d.coefficient d
where
  /-- Divides by ten as long as that is exact, at most `fuel` times. -/
  go : Nat → Decimal → Decimal
    | 0, d => d
    | fuel + 1, d =>
      if d.coefficient ≠ 0 ∧ d.coefficient % 10 = 0 then
        go fuel ⟨d.coefficient / 10, d.exponent + 1⟩
      else d

/-! ## Writing -/

/-- The digits of the coefficient, most significant first. -/
def digits (d : Decimal) : List Char := Nat.toDigits 10 d.coefficient

/-- Positional notation: a whole number is written without a point, a proper
fraction with a zero before it. -/
def positional (d : Decimal) : List Char :=
  let places := (-d.exponent).toNat
  if places = 0 then d.digits ++ List.replicate d.exponent.toNat '0'
  else if places < d.digits.length then
    d.digits.take (d.digits.length - places) ++ '.' :: d.digits.drop (d.digits.length - places)
  else '0' :: '.' :: List.replicate (places - d.digits.length) '0' ++ d.digits

end Decimal
end MiniScheme

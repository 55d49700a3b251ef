import MiniScheme.Value.Basic

/-!
# Equality of values

Two equalities can be observed. Both compare atoms by value, numbers as IEEE
numbers (zeros are equal, a NaN is equal to nothing), and procedures and frames
by identity. They differ on pairs:

* `Value.identical` — only a pair itself;
* `Value.equal` — also pairs with equal parts; a pair is always equal to itself,
  without a look at its parts.
-/

namespace MiniScheme

/-- Equality of atoms. -/
def Atom.equal : Atom → Atom → Bool
  | .nil, .nil => true
  | .boolean a, .boolean b => a = b
  | .number x, .number y => x == y
  | .symbol a, .symbol b => a = b
  | .string a, .string b => a = b
  | _, _ => false

namespace Value

/-- Equality up to the identity of pairs. -/
def equal : Value → Value → Bool
  | atom a, atom b => a.equal b
  | undefined, undefined => true
  | pair s first rest, pair t first' rest' => s = t || (first.equal first' && rest.equal rest')
  | builtin s _, builtin t _ => s = t
  | compound s .., compound t .. => s = t
  | environment e, environment f => e = f
  | _, _ => false

/-- Identity, as far as values have one. -/
def identical : Value → Value → Bool
  | pair s _ _, pair t _ _ => s = t
  | v, w => v.equal w

end Value
end MiniScheme

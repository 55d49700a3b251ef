/-!
# Arities

The counts of arguments that a procedure takes, and their wording.
-/

namespace MiniScheme

/-- The counts of arguments that are accepted. -/
inductive Arity where
  | exactly (n : Nat)
  | atLeast (n : Nat)
  | between (min max : Nat)
  deriving DecidableEq

namespace Arity

/-- Is the count one of those accepted? -/
def accepts : Arity → Nat → Bool
  | exactly n, count => count = n
  | atLeast n, count => n ≤ count
  | between min max, count => min ≤ count && count ≤ max

/-- The wording of an arity. -/
def text : Arity → String
  | exactly n => "exactly " ++ toString n
  | atLeast n => "at least " ++ toString n
  | between min max => "between " ++ toString min ++ " and " ++ toString max

end Arity
end MiniScheme

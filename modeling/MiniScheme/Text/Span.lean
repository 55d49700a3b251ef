/-!
# Spans

A span is a stretch of a source text, given by the byte offsets of its start and
of the place just after its end. It is written `start..stop`.
-/

namespace MiniScheme

/-- A half-open stretch of bytes of a source text. -/
structure Span where
  start : Nat
  stop : Nat
  deriving DecidableEq

namespace Span

/-- The span as it stands in messages. -/
def text (s : Span) : String := toString s.start ++ ".." ++ toString s.stop

end Span

/-- The number of bytes a row of characters takes. -/
def byteLength (cs : List Char) : Nat := cs.foldr (fun c n => c.utf8Size + n) 0

end MiniScheme

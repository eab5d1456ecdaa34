import ScssTokens.Token.Kind

/-!
# Spans and tokens

A span is a range of bytes, its end exclusive; a token is a kind with its span.
-/

namespace ScssTokens

/-- The bytes of a text from `start` on and before `stop`. -/
structure Span where
  start : Nat
  stop : Nat
  deriving DecidableEq, Repr

namespace Span

/-- The number of bytes of a span. -/
def length (s : Span) : Nat := s.stop - s.start

/-- Whether a span holds no byte. -/
def isEmpty (s : Span) : Bool := s.start == s.stop

end Span

/-- A kind of token and the place where it was found. -/
structure Token where
  kind : Kind
  span : Span
  deriving DecidableEq, Repr

end ScssTokens

import MiniC.Position
import MiniC.Token.Kind

/-!
Tokens: a kind and where it stands.
-/

namespace MiniC

/-- A kind at a place in a source. -/
structure Token where
  kind : Kind
  span : Span
deriving DecidableEq

/-- A token in a listing: its kind and the two ends of its span. -/
def Token.text (t : Token) : String :=
  t.kind.text ++ " @ " ++ Numeric.natText t.span.start.offset.toNat ++ ".."
    ++ Numeric.natText t.span.stop.offset.toNat

end MiniC

import ScssTokens.Decision.Priority
import ScssTokens.Stream.Cursor

/-!
# Scanning

A scan asks which of a set of candidates starts where a stream stands, and makes the moves of the
decision on the stream. The characters that it consumes past the last mark are looked at only; a
scan that finds no token may have consumed some too.

## Main definitions

* `CharStream.scan` — a scan of any stream.
* `scanAt` — a scan of a text at an offset.
-/

namespace ScssTokens

/-- The kind of the token that starts where a stream stands, if any, and the stream after the
scan. -/
def CharStream.scan {σ : Type} [CharStream σ] (V : Candidates) (s : σ) : Option Kind × σ :=
  let d := Decision.ofCells V (ahead s)
  (d.kind, run d.moves s)

/-- The token that starts at an offset of a text, if any. -/
def scanAt (source : Text) (offset : Nat) (V : Candidates) : Option Token :=
  let (kind, cursor) := CharStream.scan V (Cursor.atOffset source offset)
  kind.map fun k => ⟨k, cursor.tokenSpan⟩

end ScssTokens

import ScssTokens.Candidates.Basic
import ScssTokens.Stream.Basic

/-!
# Decisions

Which token starts at a place is decided from the cells ahead of it. A decision names the kind of
the token, or none, and lists the moves that a stream makes on the way to it; the last mark among
them ends the token. A rule for some kinds of token that does not apply to the cells ahead makes no
decision at all and leaves it to the next rule.

## Main definitions

* `Decision` — the moves and the kind.
* `Decision.after` — a decision made after some moves.
-/

namespace ScssTokens

/-- The answer of a scan: the moves it makes and the kind of token it finds, if any. -/
structure Decision where
  moves : List Move
  kind : Option Kind
  deriving DecidableEq, Repr

namespace Decision

/-- There is no token. -/
def decline : Decision := ⟨[], none⟩

/-- There is a token of a kind, and its end is marked. -/
def accept (k : Kind) : Decision := ⟨[], some k⟩

/-- A decision made after some moves. -/
def after (ms : List Move) (d : Decision) : Decision := ⟨ms ++ d.moves, d.kind⟩

@[simp] theorem moves_decline : decline.moves = [] := rfl
@[simp] theorem kind_decline : decline.kind = none := rfl
@[simp] theorem moves_accept (k : Kind) : (accept k).moves = [] := rfl
@[simp] theorem kind_accept (k : Kind) : (accept k).kind = some k := rfl

@[simp] theorem moves_after (ms : List Move) (d : Decision) :
    (d.after ms).moves = ms ++ d.moves := rfl

@[simp] theorem kind_after (ms : List Move) (d : Decision) : (d.after ms).kind = d.kind := rfl

/-- The moves that consume `n` characters. -/
def advances (n : Nat) : List Move := List.replicate n .advance

end Decision

/-- Whether the first cell has a character of a class. The end has none. -/
def startsWith (p : Char → Bool) (cells : List Cell) : Bool := cells.head?.any fun c => p c.char

@[simp] theorem startsWith_nil (p : Char → Bool) : startsWith p [] = false := rfl

@[simp] theorem startsWith_cons (p : Char → Bool) (c : Cell) (cells : List Cell) :
    startsWith p (c :: cells) = p c.char := rfl

end ScssTokens

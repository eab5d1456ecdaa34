import ScssTokens.Decision.Apply
import ScssTokens.Decision.Quoted
import ScssTokens.Decision.Selector
import ScssTokens.Decision.Variable

/-!
# The order of the rules

During error recovery nothing is decided. Where no whitespace stands ahead, the marker that says so
comes before everything else. All other rules look past the whitespace ahead, and the first of them
whose candidate is in the set and which applies decides alone:

1. whitespace as a descendant combinator,
2. the colon of a pseudo-class,
3. a variable,
4. a segment between single quotes,
5. a segment between double quotes,
6. a value of an `@apply` directive.

## Main definitions

* `Decision.ofBody` — the rules past the whitespace.
* `Decision.ofCells` — the decision for the cells ahead.
-/

namespace ScssTokens.Decision

/-- A rule that is asked only when its candidate is in the set. -/
def given (candidate : Bool) (rule : List Cell → Option Decision) (cells : List Cell) :
    Option Decision :=
  if candidate then rule cells else none

@[simp] theorem given_true (rule : List Cell → Option Decision) (cells : List Cell) :
    given true rule cells = rule cells := rfl

@[simp] theorem given_false (rule : List Cell → Option Decision) (cells : List Cell) :
    given false rule cells = none := rfl

/-- The decision of the first rule that applies to the cells past the whitespace. The whitespace
itself can be a token if `spaced` holds. -/
def ofBody (V : Candidates) (spaced : Bool) (body : List Cell) : Decision :=
  (given spaced ofSpace? body
    <|> given (V.accepts .pseudoClassColon) ofColon? body
    <|> given (V.intersects .anyVariable) (ofDollar? V) body
    <|> given (V.accepts .singleQuotedSegment) (some ∘ ofSegment .single) body
    <|> given (V.accepts .doubleQuotedSegment) (some ∘ ofSegment .double) body
    <|> given (V.accepts .applyValue) (some ∘ ofValue) body).getD decline

/-- The moves over the whitespace ahead. Its end is marked if it can be a token itself. -/
def overSpace (spaced : Bool) (space : List Cell) : List Move :=
  List.replicate space.length .skip ++ if spaced then [.markEnd] else []

/-- Which of the candidates starts at the cells ahead, and how a stream gets to know. -/
def ofCells (V : Candidates) (cells : List Cell) : Decision :=
  let space := cells.takeWhile Cell.isWhiteSpace
  let spaced := !space.isEmpty && V.accepts .descendantCombinator
  if V.inRecovery then decline
  else if space.isEmpty && V.accepts .noWhitespace then after [.markEnd] (accept .noWhitespace)
  else after (overSpace spaced space) (ofBody V spaced (cells.drop space.length))

end ScssTokens.Decision

import ScssTokens.Decision.Basic

/-!
# Values of `@apply` directives

Any class name is a value, so a value runs up to the next whitespace or the end of the statement.
A brace or an exclamation mark leaves it without an end, so that blocks and `!important` stay
visible.

## Main definitions

* `Decision.ofValue` — the rule for a value.
-/

namespace ScssTokens.Decision

/-- The characters that end a value well. -/
def closesValue (c : Char) : Bool := Unicode.isWhiteSpace c || c == ';'

/-- The characters that no value holds. -/
def endsValue (c : Char) : Bool := closesValue c || c == '!' || c == '{' || c == '}'

/-- The rule for a value: a run of characters that may stand in one, with a good end after it. -/
def ofValue (cells : List Cell) : Decision :=
  let value := (cells.takeWhile fun c => !endsValue c.char).length
  after (advances value) <|
    if value ≠ 0 ∧ startsWith closesValue (cells.drop value) then
      after [.markEnd] (accept .applyValue)
    else decline

end ScssTokens.Decision

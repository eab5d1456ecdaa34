import ScssTokens.Decision.Basic
import ScssTokens.Unicode.Alphanumeric

/-!
# Selectors

Whitespace and colons mean one thing in a selector and another in a declaration. A colon belongs to
a selector when a block opens after it before the statement ends: `:hover {` against `color: red;`.

## Main definitions

* `Decision.seekBlock` — looks for the block of a selector.
* `Decision.ofSpace?` — whether whitespace is a descendant combinator.
* `Decision.ofColon?` — whether a colon opens a pseudo-class selector.
-/

namespace ScssTokens.Decision

/-- The characters that end the search for a block: the one that opens it, and those that end a
statement or the block around it. -/
def endsSearch (c : Char) : Bool := c == '{' || c == ';' || c == '}'

/-- Whether a block opens before the statement ends. -/
def blockFollows (cells : List Cell) : Bool :=
  startsWith (· == '{') (cells.dropWhile fun c => !endsSearch c.char)

/-- Looks for a block: a token of the given kind stands before it, and none without it. -/
def seekBlock (k : Kind) (cells : List Cell) : Decision :=
  ⟨advances (cells.takeWhile fun c => !endsSearch c.char).length,
    if blockFollows cells then some k else none⟩

/-- The characters that can only start a component of a selector. -/
def startsSelector (c : Char) : Bool :=
  c == '#' || c == '.' || c == '[' || c == '-' || c == '*' || c == '&' || Unicode.isAlphanumeric c

/-- The rule for whitespace, which has been skipped and marked. It is a descendant combinator before
the start of a selector component and before the colon of a pseudo-class. -/
def ofSpace? : List Cell → Option Decision
  | [] => none
  | c :: cells =>
    if startsSelector c.char then some (accept .descendantCombinator)
    else if c.char = ':' then
      some <| after [.advance] <|
        if startsWith Unicode.isWhiteSpace cells then decline
        else seekBlock .descendantCombinator cells
    else none

/-- The rule for a colon. It opens a pseudo-class selector if a block follows, but not with
whitespace or a second colon directly after it. The token is the colon alone. -/
def ofColon? : List Cell → Option Decision
  | [] => none
  | c :: cells =>
    if c.char = ':' then
      some <| after [.advance] <|
        if startsWith (fun c => Unicode.isWhiteSpace c || c == ':') cells then decline
        else after [.markEnd] (seekBlock .pseudoClassColon cells)
    else none

end ScssTokens.Decision

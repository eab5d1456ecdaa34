import ScssTokens.Decision.Basic

/-!
# Segments of quoted strings

A string is a sequence of literal segments and interpolations `#{...}`. A segment ends before the
closing quote or before an interpolation, whichever comes first; it is never empty, and a bare
newline or the end of the text leaves it without an end.

A character is escaped if the last backslash before it stands at the column before its own. The
last backslash counts even when it is itself escaped, so the quote in `\\'` is escaped too.

## Main definitions

* `Quote` — the two quotes.
* `Decision.ofSegment` — the rule for a segment of a string.
-/

namespace ScssTokens

/-- The quotes that delimit a string. -/
inductive Quote where
  | single
  | double
  deriving DecidableEq, Repr

namespace Quote

/-- The character of a quote. -/
def char : Quote → Char
  | single => '\''
  | double => '"'

/-- The kind of a segment between two such quotes. -/
def segmentKind : Quote → Kind
  | single => .singleQuotedSegment
  | double => .doubleQuotedSegment

end Quote

namespace Decision

/-- Whether a character at column `k` is escaped by the last backslash, if there is one. -/
def isEscaped (backslash : Option Column) (k : Column) : Bool :=
  backslash.any fun j => decide (Column.Precedes j k)

/-- Follows a segment to its end, from a place inside it. The last backslash is given by its
column, and `started` says whether the segment has a character yet. -/
def restOfSegment (q : Quote) (backslash : Option Column) (started : Bool) :
    List Cell → Decision
  | [] => decline
  | c :: cells =>
    let backslash' := if c.char = '\\' then some c.column else backslash
    if isEscaped backslash c.column then
      after [.advance] (restOfSegment q backslash' true cells)
    else if c.char = q.char then after [.markEnd] (accept q.segmentKind)
    else if c.char = '#' then
      after [.markEnd, .advance] <|
        if startsWith (· == '{') cells then
          if started then accept q.segmentKind else decline
        else restOfSegment q backslash' true cells
    else if c.char = '\n' then decline
    else after [.advance] (restOfSegment q backslash' true cells)

/-- The rule for a segment of a string. Before the closing quote there is none. -/
def ofSegment (q : Quote) (cells : List Cell) : Decision :=
  if startsWith (· == q.char) cells then decline else restOfSegment q none false cells

end Decision

end ScssTokens

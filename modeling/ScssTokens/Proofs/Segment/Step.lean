import ScssTokens.Decision.Quoted

/-!
# One step along a segment

The rule for a segment does one of two things at a cell. Where the segment ends it decides, and
otherwise it consumes the cell and goes on. Everything about the rule that goes by induction on the
cells starts from these two equations.

## Main definitions

* `Decision.endsSegment` — whether a segment ends at the first cell ahead.
* `Decision.segmentEnd` — the decision there, `Decision.segmentStep` — the moves where it does not
  end.

## Main statements

* `Decision.restOfSegment_of_ends`, `Decision.restOfSegment_of_not_ends` — the two equations.
-/

namespace ScssTokens

namespace Quote

theorem char_ne_newline (q : Quote) : q.char ≠ '\n' := by cases q <;> decide

theorem char_ne_hash (q : Quote) : q.char ≠ '#' := by cases q <;> decide

theorem char_ne_brace (q : Quote) : q.char ≠ '{' := by cases q <;> decide

end Quote

namespace Decision

/-- The last backslash up to and including a cell. -/
def backslashAt (backslash : Option Column) (c : Cell) : Option Column :=
  if c.char = '\\' then some c.column else backslash

/-- The last backslash of some cells, or the one before them. -/
def lastBackslash (backslash : Option Column) (cells : List Cell) : Option Column :=
  cells.foldl backslashAt backslash

/-- Whether a segment ends at the first of the cells ahead: at its quote, at a newline or before an
interpolation, and at none of them when it is escaped. -/
def endsSegment (q : Quote) (backslash : Option Column) : List Cell → Bool
  | [] => false
  | c :: cells =>
    !isEscaped backslash c.column &&
      (c.char == q.char || c.char == '\n' || (c.char == '#' && startsWith (· == '{') cells))

/-- Whether a cell is a `#` that is not escaped. -/
def isBareHash (backslash : Option Column) (c : Cell) : Bool :=
  c.char == '#' && !isEscaped backslash c.column

/-- The moves over a cell at which no segment ends. A bare `#` is marked before it is consumed. -/
def segmentStep (backslash : Option Column) (c : Cell) : List Move :=
  if isBareHash backslash c then [.markEnd, .advance] else [.advance]

@[simp] theorem steps_segmentStep (backslash : Option Column) (c : Cell) :
    Move.steps (segmentStep backslash c) = 1 := by
  unfold segmentStep
  split <;> rfl

@[simp] theorem no_skip_segmentStep (backslash : Option Column) (c : Cell) :
    .skip ∉ segmentStep backslash c := by
  unfold segmentStep
  split <;> simp

/-- The decision at a character that ends a segment. Only the `#` of an interpolation has to be
consumed to be told from others, and before it a segment must have started. -/
def segmentEnd (q : Quote) (started : Bool) (c : Char) : Decision :=
  if c = q.char then after [.markEnd] (accept q.segmentKind)
  else if c = '#' then
    after [.markEnd, .advance] (if started then accept q.segmentKind else decline)
  else decline

variable {q : Quote} {backslash : Option Column} {c : Cell} {cells : List Cell}

/-- The characters at which a segment ends. -/
theorem char_of_ends (h : endsSegment q backslash (c :: cells) = true) :
    c.char = q.char ∨ c.char = '\n' ∨ c.char = '#' ∧ startsWith (· == '{') cells := by
  simp only [endsSegment, Bool.and_eq_true, Bool.or_eq_true, beq_iff_eq, or_assoc] at h
  exact h.2

theorem not_isEscaped_of_ends (h : endsSegment q backslash (c :: cells) = true) :
    isEscaped backslash c.column = false := by
  simp only [endsSegment, Bool.and_eq_true, Bool.not_eq_true'] at h
  exact h.1

/-- Where a segment ends, the character there decides. -/
theorem restOfSegment_of_ends (h : endsSegment q backslash (c :: cells) = true) (started : Bool) :
    restOfSegment q backslash started (c :: cells) = segmentEnd q started c.char := by
  have he := not_isEscaped_of_ends h
  obtain hc | hc | ⟨hc, hb⟩ := char_of_ends h
  · simp [restOfSegment, segmentEnd, he, hc]
  · simp [restOfSegment, segmentEnd, he, hc, q.char_ne_newline.symm]
  · simp [restOfSegment, segmentEnd, he, hc, hb, q.char_ne_hash.symm]

/-- Where a segment does not end, one more character is consumed. -/
theorem restOfSegment_of_not_ends (h : endsSegment q backslash (c :: cells) = false)
    (started : Bool) :
    restOfSegment q backslash started (c :: cells) =
      after (segmentStep backslash c) (restOfSegment q (backslashAt backslash c) true cells) := by
  by_cases he : isEscaped backslash c.column
  · simp [restOfSegment, segmentStep, isBareHash, he, backslashAt]
  · simp only [endsSegment, he, Bool.not_false, Bool.true_and, Bool.or_eq_false_iff] at h
    obtain ⟨⟨hq, hn⟩, hh⟩ := h
    simp only [beq_eq_false_iff_ne, ne_eq] at hq hn
    by_cases hc : c.char = '#'
    · have hb : startsWith (· == '{') cells = false := by simpa [hc] using hh
      simp [restOfSegment, segmentStep, isBareHash, he, q.char_ne_hash.symm, hc, hb, backslashAt]
    · simp [restOfSegment, segmentStep, isBareHash, he, hq, hn, hc, backslashAt]

end Decision

end ScssTokens

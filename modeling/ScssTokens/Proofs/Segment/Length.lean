import ScssTokens.Proofs.Decision.Order
import ScssTokens.Proofs.Scan.Extent

/-!
# Where a segment ends

The rule for a segment follows the cells one by one, marks at every bare `#` and goes on where no
interpolation opens there. What it comes to is one number: how many cells lie before the first that
ends the segment. The cell there decides whether there is a token at all.

## Main definitions

* `Decision.segmentLength` — the number of cells before the one at which a segment ends.
* `Decision.isSegment` — whether there is a token.

## Main statements

* `Decision.kind_ofSegment_eq`, `Decision.lastMark_ofSegment` — the rule by the length.
* `Decision.extent_ofCells_segment` — the token for a set of one kind of segment.
-/

namespace ScssTokens

namespace Decision

/-- The number of cells before the one at which a segment ends. -/
def segmentLength (q : Quote) : Option Column → List Cell → Nat
  | _, [] => 0
  | backslash, c :: cells =>
    if endsSegment q backslash (c :: cells) then 0
    else segmentLength q (backslashAt backslash c) cells + 1

/-- Whether a segment starts at the cells ahead: at least one character comes before its end, and no
newline stands there. -/
def isSegment (q : Quote) (cells : List Cell) : Bool :=
  segmentLength q none cells != 0 &&
    startsWith (· ≠ '\n') (cells.drop (segmentLength q none cells))

theorem segmentLength_cons {q : Quote} {backslash : Option Column} {c : Cell} {cells : List Cell}
    (h : endsSegment q backslash (c :: cells) = false) :
    segmentLength q backslash (c :: cells) =
      segmentLength q (backslashAt backslash c) cells + 1 := by
  simp [segmentLength, h]

/-- Where a segment ends there is a token unless a newline or nothing at all stands before. -/
theorem kind_segmentEnd {q : Quote} {backslash : Option Column} {c : Cell} {cells : List Cell}
    (h : endsSegment q backslash (c :: cells) = true) (started : Bool) :
    (segmentEnd q started c.char).kind =
      if c.char ≠ '\n' ∧ (c.char = q.char ∨ started) then some q.segmentKind else none := by
  obtain hc | hc | ⟨hc, -⟩ := char_of_ends h
  · simp [segmentEnd, hc, q.char_ne_newline]
  · simp [segmentEnd, hc, q.char_ne_newline.symm]
  · cases started <;> simp [segmentEnd, hc, q.char_ne_hash.symm]

theorem lastMark_segmentEnd {q : Quote} {started : Bool} {c : Char}
    (h : (segmentEnd q started c).kind.isSome) :
    Move.lastMark (segmentEnd q started c).moves = some 0 := by
  unfold segmentEnd at h ⊢
  split
  · rfl
  · split
    · split <;> rfl
    · simp_all

theorem restOfSegment_eq (q : Quote) (backslash : Option Column) (started : Bool)
    (cells : List Cell) :
    let n := segmentLength q backslash cells
    let d := restOfSegment q backslash started cells
    d.kind = (if startsWith (fun c => c ≠ '\n' ∧ (c = q.char ∨ started ∨ n ≠ 0)) (cells.drop n)
        then some q.segmentKind else none) ∧
      (d.kind.isSome → Move.lastMark d.moves = some n) := by
  induction cells generalizing backslash started with
  | nil => simp [restOfSegment]
  | cons c cells ih =>
    dsimp only at ih ⊢
    cases h : endsSegment q backslash (c :: cells) with
    | true =>
      rw [show segmentLength q backslash (c :: cells) = 0 by simp [segmentLength, h],
        restOfSegment_of_ends h]
      exact ⟨by simpa using kind_segmentEnd h started, lastMark_segmentEnd⟩
    | false =>
      obtain ⟨hk, hm⟩ := ih (backslashAt backslash c) true
      rw [segmentLength_cons h, restOfSegment_of_not_ends h]
      refine ⟨by simpa using hk, ?_⟩
      intro hsome
      rw [moves_after, Move.lastMark_append, hm hsome]
      simp [Nat.add_comm]

theorem kind_ofSegment_eq (q : Quote) (cells : List Cell) :
    (ofSegment q cells).kind = if isSegment q cells then some q.segmentKind else none := by
  cases hq : startsWith (· == q.char) cells with
  | true =>
    cases cells with
    | nil => simp at hq
    | cons c cells =>
      have hc : c.char = q.char := by simpa using hq
      simp [ofSegment, isSegment, segmentLength, endsSegment, isEscaped, hc]
  | false =>
    rw [ofSegment, hq, if_neg Bool.false_ne_true, (restOfSegment_eq q none false cells).1]
    by_cases hn : segmentLength q none cells = 0
    · rw [if_neg, if_neg (by simp [isSegment, hn])]
      rw [hn, List.drop_zero]
      cases cells with
      | nil => simp
      | cons c cells =>
        have hc : c.char ≠ q.char := by simpa using hq
        simp [hc]
    · simp [isSegment, hn]

theorem lastMark_ofSegment {q : Quote} {cells : List Cell}
    (h : (ofSegment q cells).kind.isSome) :
    Move.lastMark (ofSegment q cells).moves = some (segmentLength q none cells) := by
  unfold ofSegment at h ⊢
  split at h
  · simp at h
  · next hq =>
    rw [if_neg hq]
    exact (restOfSegment_eq q none false cells).2 h

theorem ofInk_segmentKind (q : Quote) (body : List Cell) :
    ofInk (.ofKind q.segmentKind) body = some (ofSegment q body) := by
  cases q <;> simp [ofInk_eq, Quote.segmentKind]

/-- With one kind of segment for the only candidate, the token starts past the whitespace and ends
where the segment does. -/
theorem extent_ofCells_segment (q : Quote) (cells : List Cell) :
    (ofCells (.ofKind q.segmentKind) cells).extent =
      let m := (cells.takeWhile Cell.isWhiteSpace).length
      if isSegment q (cells.drop m) then
        some (q.segmentKind, m, m + segmentLength q none (cells.drop m))
      else none := by
  have hn : (Candidates.ofKind q.segmentKind).accepts .noWhitespace = false := by
    cases q <;> rfl
  have hd : (Candidates.ofKind q.segmentKind).accepts .descendantCombinator = false := by
    cases q <;> rfl
  rw [extent_of_ignoresSpace (by simp) ⟨hn, hd⟩]
  dsimp only
  generalize cells.drop (cells.takeWhile Cell.isWhiteSpace).length = body
  have hk := kind_ofSegment_eq q body
  rw [ofInk_segmentKind, Option.getD_some]
  cases hs : isSegment q body with
  | true =>
    rw [hs, if_pos rfl] at hk
    rw [hk, lastMark_ofSegment (by simp [hk])]
    rfl
  | false =>
    rw [hs, if_neg Bool.false_ne_true] at hk
    rw [hk]
    rfl

end Decision

end ScssTokens

import ScssTokens.Proofs.Decision.Marks
import ScssTokens.Proofs.Decision.OnePass
import ScssTokens.Proofs.Scan.History
import ScssTokens.Proofs.Segment.Length

/-!
# Scans that find no token

A stream has one character of lookahead and a mark cannot be taken back. So a rule that has to look
further than the end of its token marks the end first and looks then, and where what it sees speaks
against the token, the mark stays. Four rules mark such a tentative end: the one for whitespace at
the end of the whitespace, the one for the colon past it, the one for a dollar sign past the name,
and the one for a segment at every bare `#`. Nothing else is marked by a scan that finds no token.

## Main definitions

* `Decision.bareHashes` — where a segment marks that is no token.
* `Decision.tentativeEnds` — where a decision marks that is for no token.

## Main statements

* `Decision.marks_of_declined` — the marks of a decision for no token are its tentative ends.
* `Cursor.mark_scan_of_declined` — what a scan that finds no token marks, and the mark of the cursor
  after it.
-/

namespace ScssTokens

namespace Decision

/-! ## Segments -/

/-- The indices at which a bare `#` stands, up to the end of a segment. -/
def bareHashes (q : Quote) (backslash : Option Column) (cells : List Cell) : List Nat :=
  (List.range (segmentLength q backslash cells + 1)).filter fun i =>
    cells[i]?.any (isBareHash (lastBackslash backslash (cells.take i)))

theorem bareHashes_of_ends {q : Quote} {backslash : Option Column} {c : Cell} {cells : List Cell}
    (h : endsSegment q backslash (c :: cells) = true) :
    bareHashes q backslash (c :: cells) = if isBareHash backslash c then [0] else [] := by
  simp [bareHashes, segmentLength, h, lastBackslash, List.filter_cons]

theorem bareHashes_of_not_ends {q : Quote} {backslash : Option Column} {c : Cell}
    {cells : List Cell} (h : endsSegment q backslash (c :: cells) = false) :
    bareHashes q backslash (c :: cells) = (if isBareHash backslash c then [0] else []) ++
      (bareHashes q (backslashAt backslash c) cells).map (· + 1) := by
  have hnext : (fun i => ((c :: cells)[i]?.any
        (isBareHash (lastBackslash backslash ((c :: cells).take i))))) ∘ Nat.succ =
      fun i => cells[i]?.any
        (isBareHash (lastBackslash (backslashAt backslash c) (cells.take i))) := by
    funext i
    simp [lastBackslash]
  rw [bareHashes, segmentLength_cons h, List.range_succ_eq_map, List.filter_cons, List.filter_map,
    hnext]
  cases hc : isBareHash backslash c <;> simp [bareHashes, lastBackslash, hc]

/-- Without a token the rule for a segment has marked every bare `#` up to the end of the segment,
the one of an interpolation included. -/
theorem marks_restOfSegment {q : Quote} {backslash : Option Column} {started : Bool}
    {cells : List Cell} (h : (restOfSegment q backslash started cells).kind = none) :
    Move.marks (restOfSegment q backslash started cells).moves = bareHashes q backslash cells := by
  induction cells generalizing backslash started with
  | nil => rfl
  | cons c cells ih =>
    cases he : endsSegment q backslash (c :: cells) with
    | true =>
      rw [restOfSegment_of_ends he] at h ⊢
      rw [bareHashes_of_ends he, marks_segmentEnd]
      -- before its quote a segment is a token
      have hq : c.char ≠ q.char := by
        intro hc
        simp [segmentEnd, hc] at h
      simp [isBareHash, not_isEscaped_of_ends he, hq]
    | false =>
      rw [restOfSegment_of_not_ends he] at h ⊢
      rw [bareHashes_of_not_ends he, ← ih h]
      simp [Move.marks_append, marks_segmentStep, Nat.add_comm 1]

theorem marks_ofSegment {q : Quote} {cells : List Cell} (h : (ofSegment q cells).kind = none) :
    Move.marks (ofSegment q cells).moves = bareHashes q none cells := by
  unfold ofSegment at h ⊢
  split
  · next hq =>
    cases cells with
    | nil => cases hq
    | cons c cells =>
      have hc : c.char = q.char := by simpa using hq
      have he : endsSegment q none (c :: cells) = true := by simp [endsSegment, isEscaped, hc]
      rw [bareHashes_of_ends he]
      simp [isBareHash, hc, q.char_ne_hash]
  · next hq =>
    rw [if_neg hq] at h
    exact marks_restOfSegment h

/-! ## The other rules -/

/-- Without a token the rule for a value has marked nothing. -/
theorem marks_ofValue {body : List Cell} (h : (ofValue body).kind = none) :
    Move.marks (ofValue body).moves = [] := by
  simp only [ofValue] at h ⊢
  split
  · next hv => simp [hv] at h
  · simp

/-! ## All decisions -/

/-- Where the rules past the whitespace mark that is for no token. -/
def tentativeInk (V : Candidates) (body : List Cell) : List Nat :=
  if V.accepts .pseudoClassColon ∧ startsWith (· == ':') body then
    if startsWith (fun c => Unicode.isWhiteSpace c || c == ':') body.tail then [] else [1]
  else if V.intersects .anyVariable ∧ startsWith (· == '$') body then
    if startsWith startsName body.tail then
      [(body.tail.takeWhile fun c => continuesName c.char).length + 1]
    else []
  else if V.accepts .singleQuotedSegment then bareHashes .single none body
  else if V.accepts .doubleQuotedSegment then bareHashes .double none body
  else []

theorem marks_ofInk {V : Candidates} {body : List Cell}
    (h : ((ofInk V body).getD decline).kind = none) :
    Move.marks ((ofInk V body).getD decline).moves = tentativeInk V body := by
  rw [ofInk_eq] at h ⊢
  rw [tentativeInk]
  by_cases hc : V.accepts .pseudoClassColon ∧ startsWith (· == ':') body
  · obtain ⟨d, hd⟩ := Option.isSome_iff_exists.1 ((isSome_ofColon body).trans hc.2)
    simp only [if_pos hc, hd, Option.getD_some] at h ⊢
    exact marks_ofColon hd
  by_cases hv : V.intersects .anyVariable ∧ startsWith (· == '$') body
  · obtain ⟨d, hd⟩ := Option.isSome_iff_exists.1 ((isSome_ofDollar V body).trans hv.2)
    simp only [if_neg hc, if_pos hv, hd, Option.getD_some] at h ⊢
    exact marks_ofDollar hd
  simp only [if_neg hc, if_neg hv] at h ⊢
  split
  · next hs =>
    rw [if_pos hs] at h
    exact marks_ofSegment h
  next hs =>
  rw [if_neg hs] at h
  split
  · next hd =>
    rw [if_pos hd] at h
    exact marks_ofSegment h
  next hd =>
  rw [if_neg hd] at h
  split
  · next ha =>
    rw [if_pos ha] at h
    exact marks_ofValue h
  · rfl

theorem isSome_given_ofSpace_iff (spaced : Bool) (body : List Cell) :
    (given spaced ofSpace? body).isSome ↔
      spaced ∧ startsWith (fun c => c == ':' || startsSelector c) body := by
  have hopens : (fun c => [':', '#', '.', '[', '-', '*', '&'].contains c ||
      Unicode.isAlphanumeric c) = fun c => c == ':' || startsSelector c := by
    funext c
    rw [startsSelector_eq, List.contains_cons, Bool.or_assoc]
  rw [isSome_given, isSome_ofSpace, hopens]

theorem marks_ofBody_of_declined {V : Candidates} {spaced : Bool} {body : List Cell}
    (h : (ofBody V spaced body).kind = none) :
    Move.marks (ofBody V spaced body).moves =
      if spaced ∧ startsWith (fun c => c == ':' || startsSelector c) body then []
      else tentativeInk V body := by
  have hspace := isSome_given_ofSpace_iff spaced body
  cases hd : given spaced ofSpace? body with
  | some d =>
    rw [hd] at hspace
    rw [if_pos (hspace.1 rfl), ofBody_eq, hd]
    cases spaced with
    | false => cases hd
    | true => exact marks_ofSpace hd
  | none =>
    rw [hd] at hspace
    rw [if_neg fun hs => absurd (hspace.2 hs) (by simp)]
    rw [ofBody_of_not_space hd] at h ⊢
    exact marks_ofInk h

/-- The places that a decision for no token marks, counted in characters: the end of whitespace that
could be a token, and past it, unless the rule for whitespace decides there, what the rule marks
that does. -/
def tentativeEnds (V : Candidates) (cells : List Cell) : List Nat :=
  let space := cells.takeWhile Cell.isWhiteSpace
  let body := cells.drop space.length
  let spaced := !space.isEmpty && V.accepts .descendantCombinator
  if V.inRecovery then []
  else (if spaced then [space.length] else []) ++
    if spaced ∧ startsWith (fun c => c == ':' || startsSelector c) body then []
    else (tentativeInk V body).map (space.length + ·)

/-- The marks of a decision for no token are its tentative ends. -/
theorem marks_of_declined {V : Candidates} {cells : List Cell} (h : (ofCells V cells).kind = none) :
    Move.marks (ofCells V cells).moves = tentativeEnds V cells := by
  cases hr : V.inRecovery with
  | true => simp [ofCells_of_recovery hr, tentativeEnds, hr]
  | false =>
    have hn : cells.takeWhile Cell.isWhiteSpace = [] → V.accepts .noWhitespace = false := by
      intro hs
      rw [Bool.eq_false_iff]
      intro hv
      rw [ofCells_of_noWhitespace hr hs hv] at h
      cases h
    rw [ofCells_of_ahead hr hn] at h ⊢
    dsimp only at h ⊢
    rw [moves_after, Move.marks_append, marks_overSpace, steps_overSpace,
      marks_ofBody_of_declined h]
    simp only [tentativeEnds, hr, Bool.false_eq_true, if_false]
    congr 1
    split <;> rfl

end Decision

namespace Cursor

open CharStream

/-- The moves of a scan that finds no token mark the tentative ends and nothing else. So the scan
leaves the mark where it was, unless it has marked tentative ends on its way; then the last of these
stays. -/
theorem mark_scan_of_declined {c : Cursor} {V : Candidates} (h : (scan V c).1 = none) :
    let moves := (Decision.ofCells V (ahead c)).moves
    (scan V c).2 = run moves c ∧ Move.marks moves = Decision.tentativeEnds V (ahead c) ∧
      (scan V c).2.mark =
        ((Decision.tentativeEnds V (ahead c)).getLast?.map fun n =>
          c.position + Text.size (c.rest.take n)).or c.mark := by
  intro moves
  have hmarks : Move.marks moves = Decision.tentativeEnds V (ahead c) :=
    Decision.marks_of_declined h
  have hrun : (scan V c).2 = run moves c := rfl
  refine ⟨hrun, hmarks, ?_⟩
  rw [hrun, ← hmarks, Move.getLast?_marks]
  exact mark_run moves c

/-- Whitespace before a string without an end, with a bare `#` in it and one that is escaped. -/
theorem mark_scan_of_declined_segment :
    let V := Candidates.ofKind .descendantCombinator ∪ .ofKind .singleQuotedSegment
    let c := atOffset [' ', '!', '#', 'b', '\\', '#'] 0
    (scan V c).1 = none ∧ Decision.tentativeEnds V (ahead c) = [1, 2] ∧
      Move.marks (Decision.ofCells V (ahead c)).moves = [1, 2] ∧ (scan V c).2.mark = some 2 := by
  intro V c
  have hnone : (scan V c).1 = none := by decide +kernel
  have hends : Decision.tentativeEnds V (ahead c) = [1, 2] := by decide +kernel
  obtain ⟨-, hmarks, hmark⟩ := mark_scan_of_declined hnone
  rw [hends] at hmarks hmark
  exact ⟨hnone, hends, hmarks, hmark⟩

/-- A variable that is no candidate is not found, and its end stays marked in place of the end that
was marked before. -/
theorem mark_scan_moved :
    let c := (atOffset ['$', 'x', ';'] 0).move .markEnd
    c.Reachable ∧ (scan (.ofKind .restVariable) c).1 = none ∧ c.mark = some 0 ∧
      (scan (.ofKind .restVariable) c).2.mark = some 2 := by
  intro c
  have hc : c.Reachable := (Reachable.atOffset _ 0).act (.move .markEnd)
  exact ⟨hc, by decide +kernel⟩

end Cursor

end ScssTokens

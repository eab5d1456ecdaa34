import ScssTokens.Proofs.Decision.Marks
import ScssTokens.Proofs.Decision.OnePass
import ScssTokens.Proofs.Scan.Extent

/-!
# What a scan asks of a stream

The moves of a scan are the calls that a stream gets to see. They keep to a discipline that holds
over any cells, whatever their columns: the whitespace ahead is skipped first and nothing after it,
no character is consumed at the end, no place is marked twice, and the end of a token is the last
mark.

## Main statements

* `CharStream.isAtEnd_run` — a consuming move that has a cell to consume is not made at the end.
* `scanAt_zero_stop` — the end of a token of a text is its decision's last mark.
* `scan_calls` — the discipline of all calls of a scan.
-/

namespace ScssTokens

namespace CharStream

variable {σ : Type} [CharStream σ] [LawfulCharStream σ]

/-- Among moves that consume no more cells than there are, none that consumes is made at the end. -/
theorem isAtEnd_run {pre post : List Move} {m : Move} {s : σ} (hm : m.consumes)
    (h : Move.steps (pre ++ m :: post) ≤ (ahead s).length) : isAtEnd (run pre s) = false := by
  have hm' : Move.steps (m :: post) = Move.steps post + 1 := List.countP_cons_of_pos hm
  rw [Move.steps_append, hm'] at h
  have hlt : Move.steps pre < (ahead s).length := by omega
  simp [isAtEnd, lookahead, ahead_run, hlt]

end CharStream

namespace Tape

open CharStream

variable (V : Candidates) (cells : List Cell)

/-- The log of a scan holds the moves of its decision. -/
theorem log_scan :
    (scan V (ofCells cells)).2.log.toList = (Decision.ofCells V cells).moves :=
  log_run _ _

/-- The mark of a scan is the last mark of its decision. -/
theorem mark_scan :
    (scan V (ofCells cells)).2.mark = Move.lastMark (Decision.ofCells V cells).moves :=
  (mark_run ((Decision.onePass_ofCells V).within cells)).trans (by simp [ofCells])

end Tape

theorem scanAt_zero (text : Text) (V : Candidates) :
    scanAt text 0 V =
      (Decision.ofCells V (Cell.ofText 0 text)).extent.map (Token.past 0 text) :=
  scanAt_append_eq_extent [] text V

theorem kind_scanAt_zero (text : Text) (V : Candidates) :
    (scanAt text 0 V).map Token.kind = (Decision.ofCells V (Cell.ofText 0 text)).kind := by
  rw [scanAt_zero, Decision.extent, Option.map_map, Option.map_map]
  exact Option.map_id'

/-- A token of a text ends where the last mark of its decision stands. -/
theorem scanAt_zero_stop {text : Text} {V : Candidates} {t : Token}
    (h : scanAt text 0 V = some t) :
    (Move.lastMark (Decision.ofCells V (Cell.ofText 0 text)).moves).map
      (fun i => Text.size (text.take i)) = some t.span.stop := by
  rw [scanAt_zero] at h
  obtain ⟨e, he, rfl⟩ := Option.map_eq_some_iff.1 h
  obtain ⟨k, hk, rfl⟩ := Option.map_eq_some_iff.1 he
  have hmark := Decision.marked_ofCells (Option.isSome_of_eq_some hk)
  obtain ⟨i, hi⟩ := Option.isSome_iff_exists.1 (Move.isSome_lastMark.2 hmark)
  simp [hi, Token.past]

/-- The calls of a scan over any cells. There are none during error recovery. Else the whitespace
ahead is skipped, and after it nothing is. No character is consumed at the end, so the index counts
the characters consumed; the marks stand at ascending indices, the last of them is the mark that
stays, and a token has one. Over the cells of a text it is the end of the token of the text. -/
theorem scan_calls (V : Candidates) (cells : List Cell) :
    let (kind, tape) := CharStream.scan V (Tape.ofCells cells)
    let calls := tape.log.toList
    let marks := Move.marks calls
    (∃ w, Move.skip ∉ w ∧ calls = if V.inRecovery then []
      else List.replicate (cells.takeWhile Cell.isWhiteSpace).length .skip ++ w) ∧
    (∀ pre m post, calls = pre ++ m :: post → m.consumes →
      CharStream.isAtEnd (CharStream.run pre (Tape.ofCells cells)) = false) ∧
    tape.index = Move.steps calls ∧
    marks.Pairwise (· < ·) ∧ tape.mark = marks.getLast? ∧ (kind.isSome → marks ≠ []) ∧
    ∀ text, cells = Cell.ofText 0 text → (scanAt text 0 V).map Token.kind = kind ∧
      ∀ t ∈ scanAt text 0 V,
        marks.getLast?.map (fun i => Text.size (text.take i)) = some t.span.stop := by
  have hlog : (CharStream.scan V (Tape.ofCells cells)).2.log.toList =
      (Decision.ofCells V cells).moves := Tape.log_run _ _
  have hsteps := (Decision.onePass_ofCells V).within cells
  dsimp only
  rw [hlog, Move.getLast?_marks]
  refine ⟨?_, ?_, ?_, Decision.increasing_marks_ofCells V cells, ?_, ?_, ?_⟩
  · cases hr : V.inRecovery with
    | true => exact ⟨[], by simp, by simp [Decision.ofCells_of_recovery hr]⟩
    | false =>
      obtain ⟨w, hw, hmoves⟩ := Decision.moves_ofCells cells hr
      exact ⟨w, hw, by simpa using hmoves⟩
  · intro pre m post hsplit hm
    exact CharStream.isAtEnd_run hm (hsplit ▸ hsteps)
  · exact (Tape.index_run hsteps).trans (Nat.zero_add _)
  · exact (Tape.mark_run hsteps).trans (by simp [Tape.ofCells])
  · intro hkind hnil
    have hmark : (Move.lastMark (Decision.ofCells V cells).moves).isSome :=
      Move.isSome_lastMark.2 (Decision.marked_ofCells hkind)
    rw [← Move.getLast?_marks, hnil] at hmark
    cases hmark
  · rintro text rfl
    exact ⟨kind_scanAt_zero text V, fun t ht => scanAt_zero_stop ht⟩

end ScssTokens

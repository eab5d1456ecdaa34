import ScssTokens.Proofs.Decision.Columns
import ScssTokens.Proofs.Scan.Extent

/-!
# The text before a scan

What stands before the place of a scan has a say in two things: the offsets, which count its bytes,
and the columns, which count on from its last line. The offsets move along with it. The columns
matter to segments alone, and not even to them where no newline comes right after a backslash. So a
host that edits the text before a token may keep the token and shift its span.

## Main definitions

* `Token.shift` — a token some bytes further on.

## Main statements

* `scanAt_shift` — the token of a text past two texts.
-/

namespace ScssTokens

/-- A token that lies a number of bytes further on. -/
def Token.shift (n : Nat) (t : Token) : Token := ⟨t.kind, n + t.span.start, n + t.span.stop⟩

theorem Token.shift_past_zero (base : Nat) (text : Text) (e : Kind × Nat × Nat) :
    (Token.past 0 text e).shift base = Token.past base text e := by
  simp [Token.shift, Token.past]

/-- A scan past a text finds the token of the decision there, further on by the size of the text. -/
theorem scanAt_append_eq_shift (before text : Text) (V : Candidates) :
    scanAt (before ++ text) before.size V =
      ((Decision.ofCells V (Cell.ofText (Column.ofText before) text)).extent.map
        (Token.past 0 text)).map (Token.shift before.size) := by
  rw [scanAt_append_eq_extent, Option.map_map]
  congr 1
  funext e
  exact (Token.shift_past_zero _ _ _).symm

/-- Past two texts a scan finds the same token of a text, or none past both, and its spans lie apart
by as much as the two texts differ in size. No segment may be among the candidates, or else there is
no newline right after a backslash and less than the limit of characters. -/
theorem scanAt_shift {V : Candidates} {before before' text : Text}
    (h : V.accepts .singleQuotedSegment = false ∧ V.accepts .doubleQuotedSegment = false ∨
      ¬ Decision.BreaksLine text ∧ (before ++ text).length < Column.limit ∧
        (before' ++ text).length < Column.limit) :
    ∃ found : Option Token,
      scanAt (before ++ text) before.size V = found.map (Token.shift before.size) ∧
      scanAt (before' ++ text) before'.size V = found.map (Token.shift before'.size) := by
  have hroom {before : Text} (hlt : (before ++ text).length < Column.limit) :
      (Column.ofText before).toNat + text.length ≤ Column.limit := by
    have hcolumn := Column.toNat_ofText_le before
    rw [List.length_append] at hlt
    omega
  have hdecision : Decision.ofCells V (Cell.ofText (Column.ofText before) text) =
      Decision.ofCells V (Cell.ofText (Column.ofText before') text) := by
    apply Decision.ofCells_congr
    obtain ⟨hsingle, hdouble⟩ | ⟨hbreaks, hlt, hlt'⟩ := h
    · left
      rintro (_ | _)
      · exact hsingle
      · exact hdouble
    · exact .inr ⟨hbreaks, hroom hlt, hroom hlt'⟩
  refine ⟨_, scanAt_append_eq_shift before text V, ?_⟩
  rw [scanAt_append_eq_shift, hdecision]

/-- A segment with an escaped quote, at the start of a text and within its third line. -/
theorem scanAt_shift_segment :
    let V := Candidates.ofKind .singleQuotedSegment
    let before : Text := ['é', '\n', '\n', '\'']
    let text : Text := ['a', '\\', '\'', 'b', '\'']
    ¬ Decision.BreaksLine text ∧ (before ++ text).length < Column.limit ∧
      scanAt text 0 V = some ⟨.singleQuotedSegment, 0, 4⟩ ∧
      scanAt (before ++ text) before.size V = some ⟨.singleQuotedSegment, 5, 9⟩ := by
  intro V before text
  have hbreaks : ¬ Decision.BreaksLine text := by decide
  have hlt : (before ++ text).length < Column.limit := by decide
  have hzero : scanAt text 0 V = some ⟨.singleQuotedSegment, 0, 4⟩ := by decide
  obtain ⟨found, hfound, hshift⟩ := @scanAt_shift V [] before text (.inr ⟨hbreaks, by decide, hlt⟩)
  obtain ⟨⟨kind, start, stop⟩, rfl, ht⟩ := Option.map_eq_some_iff.1 (hfound.symm.trans hzero)
  obtain ⟨rfl, rfl, rfl⟩ : kind = .singleQuotedSegment ∧ start = 0 ∧ stop = 4 := by
    simpa [Token.shift] using ht
  exact ⟨hbreaks, hlt, hzero, hshift⟩

end ScssTokens

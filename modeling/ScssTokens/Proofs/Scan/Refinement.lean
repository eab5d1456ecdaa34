import ScssTokens.Proofs.Stream.Run
import ScssTokens.Scan
import ScssTokens.Stream.Tape

/-!
# Bytes and characters

A cursor over a text counts bytes and follows the column from character to character. A tape over
the same characters counts them one by one and is given the true column of each. They stand at the
same place whatever moves are made, so a scan finds the same on both.

## Main definitions

* `Column.along` — the true columns of a text that stands after another.
* `Cursor.Follows` — a cursor stands where a tape over its text stands.

## Main statements

* `Cursor.Follows.move`, `Cursor.Follows.run` — the moves keep a cursor where the tape is.
* `scan_tape` — a scan of a text at a place and a scan of a tape.
-/

namespace ScssTokens

/-- The columns of the places of a text that stands after another, its end included. -/
def Column.along (before text : Text) : List Column :=
  (List.range (text.length + 1)).map fun i => Column.ofText (before ++ text.take i)

theorem Column.getD_along (before text : Text) {i : Nat} (hi : i ≤ text.length) (k : Column) :
    (along before text).getD i k = ofText (before ++ text.take i) := by
  have hi' : i < text.length + 1 := by omega
  simp [along, hi']

theorem Cell.getElem_ofText {k : Column} {t : Text} {i : Nat} (hi : i < t.length) :
    (ofText k t)[i]? = some ⟨t[i], Column.afterText k (t.take i)⟩ := by
  induction t generalizing k i with
  | nil => cases hi
  | cons c t ih =>
    cases i with
    | zero => rfl
    | succ i =>
      have hi' : i < t.length := by simpa using hi
      simpa using ih hi'

/-- A tape with the true columns has the cells of the text. -/
theorem Tape.cells_ofText_along (before text : Text) :
    (ofText text (Column.along before text)).cells =
      Cell.ofText (Column.ofText before) text := by
  apply List.ext_getElem?
  intro i
  by_cases hi : i < text.length
  · have hk := Column.getD_along before text (Nat.le_of_lt hi) (Column.ofCount i)
    rw [Cell.getElem_ofText hi, ← Column.ofText_append, ← hk]
    simp [ofText, ofCells, hi]
  · simp [ofText, ofCells, hi]

namespace Cursor

open CharStream

/-- A cursor stands where a tape stands that has counted the characters of a text, the offset of the
text being `base`. -/
structure Follows (base : Nat) (text : Text) (c : Cursor) (t : Tape) : Prop where
  cells : t.cells = Cell.ofText c.column c.rest
  rest : c.rest = text.drop t.index
  position : c.position = base + Text.size (text.take t.index)
  mark : c.mark = t.mark.map fun i => base + Text.size (text.take i)

namespace Follows

variable {base : Nat} {text : Text} {c : Cursor} {t : Tape}

/-- Past a character both stand at the place after it, and at the end both stay. -/
theorem next (h : Follows base text c t) : Follows base text c.next t.next := by
  have hcells := h.cells
  cases hr : c.rest with
  | nil =>
    rw [hr, Cell.ofText_nil] at hcells
    have hc : c.next = c := by simp [Cursor.next, hr]
    have ht : t.next = t := by simp [Tape.next, hcells]
    rw [hc, ht]
    exact h
  | cons ch rest =>
    rw [hr, Cell.ofText_cons] at hcells
    have hc : c.next = { c with
        rest, position := c.position + ch.utf8Size, column := Column.after ch c.column } := by
      simp [Cursor.next, hr]
    have ht : t.next = { t with
        cells := Cell.ofText (Column.after ch c.column) rest, index := t.index + 1 } := by
      simp [Tape.next, hcells]
    have hdrop : text.drop t.index = ch :: rest := h.rest.symm.trans hr
    have htake : text.take (t.index + 1) = text.take t.index ++ [ch] := by
      rw [List.take_add, hdrop]
      rfl
    rw [hc, ht]
    refine ⟨rfl, ?_, ?_, h.mark⟩
    · show rest = text.drop (t.index + 1)
      rw [← List.drop_drop, hdrop]
      rfl
    · simp [htake, h.position, Nat.add_assoc]

theorem move (h : Follows base text c t) (m : Move) :
    Follows base text (c.move m) (t.move m) := by
  cases m with
  | advance => exact { h.next with }
  | skip => exact { h.next with }
  | markEnd => exact { h with mark := by simp [Cursor.move, Tape.move, h.position] }

theorem run (h : Follows base text c t) (ms : List Move) :
    Follows base text (CharStream.run ms c) (CharStream.run ms t) := by
  induction ms generalizing c t with
  | nil => exact h
  | cons m ms ih => exact ih (h.move m)

end Follows

/-- A fresh cursor in a text stands where a fresh tape over the rest of the text stands. -/
theorem follows_atOffset (before text : Text) :
    Follows before.size text (atOffset (before ++ text) before.size)
      (Tape.ofText text (Column.along before text)) where
  cells := by simp [Tape.cells_ofText_along, atOffset]
  rest := by simp [Tape.ofText, Tape.ofCells, atOffset]
  position := by simp [Tape.ofText, Tape.ofCells, atOffset]
  mark := rfl

end Cursor

/-- A scan at a place of a text and a scan of a tape over the text from there, with the true
columns, find the same kind. The offsets on the one side are those of the indices on the other. -/
theorem scan_tape (before text : Text) (V : Candidates) :
    let (kind, c) := CharStream.scan V (Cursor.atOffset (before ++ text) before.size)
    let (kind', t) := CharStream.scan V (Tape.ofText text (Column.along before text))
    kind = kind' ∧ c.position = before.size + Text.size (text.take t.index) ∧
      c.mark = t.mark.map fun i => before.size + Text.size (text.take i) := by
  have hfresh := Cursor.follows_atOffset before text
  have hdecision : Decision.ofCells V
      (CharStream.ahead (Cursor.atOffset (before ++ text) before.size)) =
      Decision.ofCells V (CharStream.ahead (Tape.ofText text (Column.along before text))) :=
    congrArg _ hfresh.cells.symm
  have hscan := hfresh.run (Decision.ofCells V
    (CharStream.ahead (Tape.ofText text (Column.along before text)))).moves
  simp only [CharStream.scan, hdecision]
  exact ⟨trivial, hscan.position, hscan.mark⟩

end ScssTokens

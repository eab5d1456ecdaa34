import ScssTokens.Proofs.Stream.Run
import ScssTokens.Stream.Tape

/-!
# Where a list of moves marks

A list of moves may mark more than once. Every mark stands at an index: the number of characters
consumed before it. On a tape these are the indices at which the marks are made, as long as the tape
holds as many cells as the moves consume.

## Main definitions

* `Move.marks` — the indices of all marks, in the order in which they are made.

## Main statements

* `Move.getLast?_marks` — the last mark is the last of them.
* `Tape.index_run`, `Tape.mark_run` — the index and the mark of a tape after a list of moves.
-/

namespace ScssTokens

namespace Move

/-- The indices at which a list of moves marks. -/
def marks : List Move → List Nat
  | [] => []
  | .markEnd :: ms => 0 :: marks ms
  | .advance :: ms => (marks ms).map (· + 1)
  | .skip :: ms => (marks ms).map (· + 1)

@[simp] theorem marks_nil : marks [] = [] := rfl

@[simp] theorem marks_markEnd_cons (ms : List Move) : marks (.markEnd :: ms) = 0 :: marks ms := rfl

@[simp] theorem marks_advance_cons (ms : List Move) :
    marks (.advance :: ms) = (marks ms).map (· + 1) := rfl

@[simp] theorem marks_skip_cons (ms : List Move) :
    marks (.skip :: ms) = (marks ms).map (· + 1) := rfl

theorem marks_append (ms ns : List Move) :
    marks (ms ++ ns) = marks ms ++ (marks ns).map (steps ms + ·) := by
  induction ms with
  | nil => simp
  | cons m ms ih =>
    have hshift : (fun n => steps ms + n + 1) = (fun n => steps ms + 1 + n) := by
      funext n
      omega
    cases m <;> simp [ih, Function.comp_def, hshift]

theorem marks_eq_nil {ms : List Move} (h : .markEnd ∉ ms) : marks ms = [] := by
  induction ms with
  | nil => rfl
  | cons m ms ih => cases m <;> simp_all

theorem getLast?_marks (ms : List Move) : (marks ms).getLast? = lastMark ms := by
  induction ms with
  | nil => rfl
  | cons m ms ih =>
    cases m <;> simp [lastMark, ← ih, List.getLast?_cons]

/-- A mark stands among the characters consumed. -/
theorem le_steps_of_lastMark {ms : List Move} {n : Nat} (h : lastMark ms = some n) :
    n ≤ steps ms := by
  induction ms generalizing n with
  | nil => cases h
  | cons m ms ih =>
    cases hms : lastMark ms with
    | none =>
      cases m with
      | markEnd =>
        obtain rfl : 0 = n := by simpa [lastMark, hms] using h
        exact Nat.zero_le _
      | advance => simp [lastMark, hms] at h
      | skip => simp [lastMark, hms] at h
    | some k =>
      have hk := ih hms
      cases m <;> simp [lastMark, hms] at h ⊢ <;> omega

end Move

namespace Tape

open CharStream

theorem index_next (t : Tape) : t.next.index = t.index + min 1 t.cells.length := by
  unfold next
  split <;> simp_all

theorem index_move {m : Move} {t : Tape} (h : Move.steps [m] ≤ t.cells.length) :
    (t.move m).index = t.index + Move.steps [m] := by
  cases m <;> simp_all [move, index_next]

theorem mark_move (m : Move) (t : Tape) :
    (t.move m).mark = ((Move.lastMark [m]).map (t.index + ·)).or t.mark := by
  cases m <;> simp [move, Move.lastMark]

theorem length_cells_move (m : Move) (t : Tape) :
    (t.move m).cells.length = t.cells.length - Move.steps [m] := by
  cases m <;> simp [move]

/-- The index counts the characters consumed, as long as there are as many. -/
theorem index_run {ms : List Move} {t : Tape} (h : Move.steps ms ≤ t.cells.length) :
    (run ms t).index = t.index + Move.steps ms := by
  induction ms generalizing t with
  | nil => simp
  | cons m ms ih =>
    have hsteps : Move.steps (m :: ms) = Move.steps [m] + Move.steps ms := Move.steps_append [m] ms
    have hlength := length_cells_move m t
    rw [run_cons, move_eq, ih (by omega), index_move (by omega)]
    omega

theorem mark_run {ms : List Move} {t : Tape} (h : Move.steps ms ≤ t.cells.length) :
    (run ms t).mark = ((Move.lastMark ms).map (t.index + ·)).or t.mark := by
  induction ms generalizing t with
  | nil => simp [Move.lastMark]
  | cons m ms ih =>
    have hsteps : Move.steps (m :: ms) = Move.steps [m] + Move.steps ms := Move.steps_append [m] ms
    have hlast : Move.lastMark (m :: ms) =
        ((Move.lastMark ms).map (Move.steps [m] + ·)).or (Move.lastMark [m]) :=
      Move.lastMark_append [m] ms
    have hlength := length_cells_move m t
    rw [run_cons, move_eq, ih (by omega), mark_move, index_move (by omega), hlast]
    cases Move.lastMark ms <;> simp [Nat.add_assoc]

end Tape

end ScssTokens

import ScssTokens.Proofs.Stream.Run
import ScssTokens.Scan

/-!
# What may have happened to a cursor

A cursor in use has been moved and scanned with, in any order, since it was made. Whatever was done
to it comes down to a list of moves, so an invariant of the moves holds of every cursor in use.

## Main definitions

* `Cursor.Action` — what may be done to a cursor.
* `Cursor.Reachable` — the cursors in use.
* `Cursor.actAll` — actions in turn, and `Cursor.history` — the moves made on the way.

## Main statements

* `Cursor.actAll_eq_run` — actions in turn come down to moves.
* `Cursor.Reachable.placed`, `Cursor.Reachable.aligned` — the invariants of the cursors in use.
-/

namespace ScssTokens.Cursor

open CharStream

/-- What may be done to a cursor. -/
inductive Action where
  | move (m : Move)
  | skipWhiteSpace
  | scan (V : Candidates)

/-- The cursor after an action. What a scan finds is dropped. -/
def Action.act : Action → Cursor → Cursor
  | move m, c => c.move m
  | skipWhiteSpace, c => CharStream.skipWhiteSpace c
  | scan V, c => (CharStream.scan V c).2

/-- The cursors in use: made at an offset of a text, with any actions since. -/
inductive Reachable : Cursor → Prop where
  | atOffset (source : Text) (offset : Nat) : Reachable (atOffset source offset)
  | act {c : Cursor} (h : Reachable c) (a : Action) : Reachable (a.act c)

/-- The moves that an action makes. Skipping whitespace skips each character of the run ahead. -/
def Action.moves : Action → Cursor → List Move
  | move m, _ => [m]
  | skipWhiteSpace, c => List.replicate ((ahead c).takeWhile Cell.isWhiteSpace).length .skip
  | scan V, c => (Decision.ofCells V (ahead c)).moves

theorem Action.act_eq_run (a : Action) (c : Cursor) : a.act c = run (a.moves c) c := by
  cases a <;> rfl

/-- An action comes down to moves. -/
theorem Action.exists_run (a : Action) (c : Cursor) : ∃ ms, a.act c = run ms c :=
  ⟨a.moves c, a.act_eq_run c⟩

/-- The cursor after actions in turn. -/
def actAll (as : List Action) (c : Cursor) : Cursor := as.foldl (fun c a => a.act c) c

/-- The moves that actions in turn make, the first move first. -/
def history : List Action → Cursor → List Move
  | [], _ => []
  | a :: as, c => a.moves c ++ history as (a.act c)

/-- Actions in turn come down to the moves of their history. -/
theorem actAll_eq_run (as : List Action) (c : Cursor) : actAll as c = run (history as c) c := by
  induction as generalizing c with
  | nil => rfl
  | cons a as ih =>
    rw [history, run_append, ← a.act_eq_run]
    exact ih (a.act c)

/-- An invariant of fresh cursors and of lists of moves holds of the cursors in use. -/
theorem Reachable.invariant {P : Cursor → Prop}
    (hfresh : ∀ source offset, P (Cursor.atOffset source offset))
    (hrun : ∀ c ms, P c → P (CharStream.run ms c)) {c : Cursor} (h : c.Reachable) : P c := by
  induction h with
  | atOffset source offset => exact hfresh source offset
  | @act c _ a ih =>
    obtain ⟨ms, hms⟩ := a.exists_run c
    rw [hms]
    exact hrun c ms ih

theorem Reachable.placed {c : Cursor} (h : c.Reachable) : c.Placed :=
  h.invariant placed_atOffset fun _ ms hc => hc.run ms

theorem Reachable.aligned {c : Cursor} (h : c.Reachable) : c.Aligned :=
  h.invariant aligned_atOffset fun _ ms hc => hc.run ms

end ScssTokens.Cursor

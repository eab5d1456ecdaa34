import ScssTokens.Stream.Basic

/-!
# Recording tapes

A tape is a stream over cells whose columns may be any whatever. It counts characters instead of
bytes and records every move that is made on it.

## Main definitions

* `Tape` — the stream, `Tape.ofCells` — a fresh one.
* `Tape.ofText` — a fresh one over a text with given columns.
-/

namespace ScssTokens

/-- A stream over cells, with a record of the moves made on it. -/
structure Tape where
  /-- The cells ahead. -/
  cells : List Cell
  /-- The number of cells consumed. -/
  index : Nat
  /-- The index that was marked last. -/
  mark : Option Nat
  /-- The moves made, the first move first. -/
  log : Array Move
  deriving DecidableEq, Repr

namespace Tape

/-- A fresh tape. -/
def ofCells (cells : List Cell) : Tape := ⟨cells, 0, none, #[]⟩

/-- A fresh tape over a text. The columns of its first characters are given; from there on a
character stands at the column of its index. -/
def ofText (text : Text) (columns : List Column) : Tape :=
  ofCells (text.zipIdx.map fun (c, i) => ⟨c, columns.getD i (Column.ofCount i)⟩)

/-- The tape past the cell ahead. At the end it stays. -/
def next (t : Tape) : Tape :=
  match t.cells with
  | [] => t
  | _ :: cells => { t with cells, index := t.index + 1 }

/-- Makes a move and records it. -/
def move : Move → Tape → Tape
  | .advance, t => { t.next with log := t.log.push .advance }
  | .skip, t => { t.next with log := t.log.push .skip }
  | .markEnd, t => { t with mark := some t.index, log := t.log.push .markEnd }

instance : CharStream Tape where
  ahead := cells
  move := move

@[simp] theorem ahead_eq (t : Tape) : CharStream.ahead t = t.cells := rfl

@[simp] theorem move_eq (m : Move) (t : Tape) : CharStream.move m t = t.move m := rfl

@[simp] theorem cells_next (t : Tape) : t.next.cells = t.cells.tail := by
  unfold next; split <;> simp_all

@[simp] theorem mark_next (t : Tape) : t.next.mark = t.mark := by
  unfold next; split <;> rfl

instance : LawfulCharStream Tape where
  ahead_move m t := by cases m <;> simp [move, Move.consumes]

@[simp] theorem log_move (m : Move) (t : Tape) : (t.move m).log = t.log.push m := by
  cases m <;> rfl

/-- The log holds the moves made. -/
theorem log_run (ms : List Move) (t : Tape) :
    (CharStream.run ms t).log.toList = t.log.toList ++ ms := by
  induction ms generalizing t with
  | nil => simp
  | cons m ms ih => simp [ih]

end Tape

end ScssTokens

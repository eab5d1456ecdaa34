import ScssTokens.Text.Column
import ScssTokens.Unicode.WhiteSpace

/-!
# Character streams

A stream stands at a place in a sequence of characters and knows the column of each character
ahead of it. It takes three moves: `advance` consumes a character that belongs to a token or is
looked at beyond it, `skip` consumes a character of no account before a token, and `markEnd` fixes
the end of the token at the place where the stream stands. What a stream records of its moves is
its own affair; what is ahead of it changes by consuming alone.

## Main definitions

* `Cell` — a character with its column.
* `Move` — the three moves.
* `CharStream` — a type of streams, and `CharStream.run` — a list of moves in turn.
* `LawfulCharStream` — streams ahead of which the moves change nothing else.

## Main statements

* `CharStream.ahead_run` — after a list of moves, as many cells are gone as the moves consume.
-/

namespace ScssTokens

/-! ## Cells -/

/-- A character with the column at which it stands. -/
structure Cell where
  char : Char
  column : Column
  deriving DecidableEq, Repr

namespace Cell

/-- The cells of a text whose first character stands at column `k`. -/
def ofText (k : Column) : Text → List Cell
  | [] => []
  | c :: t => ⟨c, k⟩ :: ofText (Column.after c k) t

@[simp] theorem ofText_nil (k : Column) : ofText k [] = [] := rfl

@[simp] theorem ofText_cons (k : Column) (c : Char) (t : Text) :
    ofText k (c :: t) = ⟨c, k⟩ :: ofText (Column.after c k) t := rfl

@[simp] theorem map_char_ofText (k : Column) (t : Text) : (ofText k t).map char = t := by
  induction t generalizing k <;> simp_all

@[simp] theorem length_ofText (k : Column) (t : Text) : (ofText k t).length = t.length := by
  rw [← List.length_map (f := char), map_char_ofText]

@[simp] theorem ofText_append (k : Column) (t u : Text) :
    ofText k (t ++ u) = ofText k t ++ ofText (Column.afterText k t) u := by
  induction t generalizing k <;> simp_all

/-- Whether the character of a cell is white space. -/
def isWhiteSpace (c : Cell) : Bool := Unicode.isWhiteSpace c.char

end Cell

/-! ## Moves -/

/-- What can be asked of a stream. -/
inductive Move where
  /-- Consume a character that counts. -/
  | advance
  /-- Consume a character that does not count. -/
  | skip
  /-- Fix the end of the token here. -/
  | markEnd
  deriving DecidableEq, Repr

namespace Move

/-- Whether a move consumes a character. -/
def consumes : Move → Bool
  | advance | skip => true
  | markEnd => false

/-- The number of moves in a list that consume a character. -/
def steps (ms : List Move) : Nat := ms.countP consumes

@[simp] theorem steps_nil : steps [] = 0 := rfl

@[simp] theorem steps_append (ms ns : List Move) : steps (ms ++ ns) = steps ms + steps ns := by
  simp [steps]

@[simp] theorem steps_advance_cons (ms : List Move) : steps (advance :: ms) = steps ms + 1 :=
  List.countP_cons_of_pos rfl

@[simp] theorem steps_skip_cons (ms : List Move) : steps (skip :: ms) = steps ms + 1 :=
  List.countP_cons_of_pos rfl

@[simp] theorem steps_markEnd_cons (ms : List Move) : steps (markEnd :: ms) = steps ms :=
  List.countP_cons_of_neg (by simp [consumes])

@[simp] theorem steps_replicate_advance (n : Nat) : steps (List.replicate n advance) = n := by
  simp [steps, List.countP_replicate, consumes]

@[simp] theorem steps_replicate_skip (n : Nat) : steps (List.replicate n skip) = n := by
  simp [steps, List.countP_replicate, consumes]

end Move

/-! ## Streams -/

/-- A type of streams: the cells ahead of a stream, and what a move makes of it. -/
class CharStream (σ : Type) where
  ahead : σ → List Cell
  move : Move → σ → σ

namespace CharStream

variable {σ : Type} [CharStream σ]

/-- Makes moves in turn. -/
def run (ms : List Move) (s : σ) : σ := ms.foldl (fun s m => move m s) s

@[simp] theorem run_nil (s : σ) : run [] s = s := rfl

@[simp] theorem run_cons (m : Move) (ms : List Move) (s : σ) :
    run (m :: ms) s = run ms (move m s) := rfl

@[simp] theorem run_append (ms ns : List Move) (s : σ) :
    run (ms ++ ns) s = run ns (run ms s) := by
  simp [run]

/-- The character ahead, if the stream is not at its end. -/
def lookahead (s : σ) : Option Char := (ahead s).head?.map Cell.char

/-- Whether no character is ahead. -/
def isAtEnd (s : σ) : Bool := (lookahead s).isNone

/-- Whether a given character is ahead. -/
def isAt (c : Char) (s : σ) : Bool := lookahead s == some c

/-- Whether white space is ahead. The end of the stream is not white space. -/
def isAtWhiteSpace (s : σ) : Bool := (lookahead s).any Unicode.isWhiteSpace

/-- Skips the white space ahead. -/
def skipWhiteSpace (s : σ) : σ :=
  run (List.replicate ((ahead s).takeWhile Cell.isWhiteSpace).length .skip) s

end CharStream

open CharStream in
/-- Streams ahead of which a consuming move drops one cell and marking changes nothing. -/
class LawfulCharStream (σ : Type) [CharStream σ] : Prop where
  ahead_move : ∀ (m : Move) (s : σ),
    ahead (move m s) = if m.consumes then (ahead s).tail else ahead s

namespace CharStream

variable {σ : Type} [CharStream σ] [LawfulCharStream σ]

theorem ahead_run (ms : List Move) (s : σ) : ahead (run ms s) = (ahead s).drop (Move.steps ms) := by
  induction ms generalizing s with
  | nil => simp
  | cons m ms ih =>
    rw [run_cons, ih, LawfulCharStream.ahead_move]
    cases m <;> simp [Move.consumes, ← List.drop_one, Nat.add_comm]

theorem ahead_skipWhiteSpace (s : σ) :
    ahead (skipWhiteSpace s) = (ahead s).dropWhile Cell.isWhiteSpace := by
  have hd (l : List Cell) :
      l.drop (l.takeWhile Cell.isWhiteSpace).length = l.dropWhile Cell.isWhiteSpace := by
    induction l with
    | nil => rfl
    | cons c l ih => by_cases h : c.isWhiteSpace <;> simp [h, ih]
  rw [skipWhiteSpace, ahead_run, Move.steps_replicate_skip, hd]

end CharStream

end ScssTokens

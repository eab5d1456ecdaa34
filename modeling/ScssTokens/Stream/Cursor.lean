import ScssTokens.Stream.Basic
import ScssTokens.Token.Span

/-!
# Cursors over a source text

A cursor is a stream over a text that is held in memory. It keeps three offsets into the text: the
place where it stands, the start of the token, and the mark that ends the token.

```text
  token start      mark           position
       |             |                |
  ...  [ token text  ]  looked at     ...
```

Until the first advance, skipping takes the token start along. A token without a mark ends where
the cursor stands.

## Main definitions

* `Cursor` — the stream, `Cursor.atOffset` — a fresh one at a place of a text.
* `Cursor.tokenSpan` — the extent of the token so far.
* `Cursor.slice` — the text that a span covers.
* `Cursor.Placed` — the cursor's position and column are those of its place in the text.
-/

namespace ScssTokens

/-- A stream over a text in memory, with the offsets of its token. -/
structure Cursor where
  /-- The whole text. -/
  source : Text
  /-- The text from the position on. -/
  rest : Text
  /-- The offset of the character ahead. -/
  position : Nat
  /-- The column of the character ahead. -/
  column : Column
  /-- The offset at which the token starts. -/
  tokenStart : Nat
  /-- The offset that was marked last. -/
  mark : Option Nat
  /-- Whether an advance has been made. -/
  begun : Bool
  deriving DecidableEq, Repr

namespace Cursor

/-- A fresh cursor at an offset of a text. An offset past the end places it at the end. -/
def atOffset (source : Text) (offset : Nat) : Cursor :=
  let before := source.takeBytes offset
  { source, rest := source.dropBytes offset, position := before.size,
    column := Column.ofText before, tokenStart := before.size, mark := none, begun := false }

/-- A fresh cursor at the start of a text. -/
def ofText (source : Text) : Cursor := atOffset source 0

/-- The cursor past the character ahead. At the end it stays. -/
def next (c : Cursor) : Cursor :=
  match c.rest with
  | [] => c
  | ch :: rest =>
    { c with rest, position := c.position + ch.utf8Size, column := Column.after ch c.column }

/-- Makes a move. -/
def move : Move → Cursor → Cursor
  | .advance, c => { c.next with begun := true }
  | .skip, c => { c.next with tokenStart := if c.begun then c.tokenStart else c.next.position }
  | .markEnd, c => { c with mark := some c.position }

instance : CharStream Cursor where
  ahead c := Cell.ofText c.column c.rest
  move := move

/-- The extent of the token so far. -/
def tokenSpan (c : Cursor) : Span := ⟨c.tokenStart, c.mark.getD c.position⟩

/-- The text that a span covers; empty unless the span lies between two boundaries. -/
def slice (c : Cursor) (s : Span) : Text := (c.source.slice? s.start s.stop).getD []

/-! ## What a move leaves alone -/

@[simp] theorem ahead_eq (c : Cursor) : CharStream.ahead c = Cell.ofText c.column c.rest := rfl

@[simp] theorem move_eq (m : Move) (c : Cursor) : CharStream.move m c = c.move m := rfl

@[simp] theorem source_next (c : Cursor) : c.next.source = c.source := by
  unfold next; split <;> rfl

@[simp] theorem rest_next (c : Cursor) : c.next.rest = c.rest.tail := by
  unfold next; split <;> simp_all

@[simp] theorem mark_next (c : Cursor) : c.next.mark = c.mark := by
  unfold next; split <;> rfl

@[simp] theorem begun_next (c : Cursor) : c.next.begun = c.begun := by
  unfold next; split <;> rfl

@[simp] theorem source_move (m : Move) (c : Cursor) : (c.move m).source = c.source := by
  cases m <;> simp [move]

theorem ahead_next (c : Cursor) :
    Cell.ofText c.next.column c.next.rest = (Cell.ofText c.column c.rest).tail := by
  unfold next; split <;> simp_all

instance : LawfulCharStream Cursor where
  ahead_move m c := by
    cases m with
    | advance => exact ahead_next c
    | skip => exact ahead_next c
    | markEnd => rfl

/-! ## Places -/

/-- The cursor stands at a place of its text: its position is the offset of that place, and its
column is the one that follows the text before. -/
def Placed (c : Cursor) : Prop :=
  ∃ before, c.source = before ++ c.rest ∧ c.position = before.size ∧
    c.column = Column.ofText before

theorem placed_atOffset (source : Text) (offset : Nat) : (atOffset source offset).Placed :=
  ⟨source.takeBytes offset, (source.takeBytes_append_dropBytes offset).symm, rfl, rfl⟩

theorem Placed.next {c : Cursor} (h : c.Placed) : c.next.Placed := by
  obtain ⟨before, hs, hp, hk⟩ := h
  unfold Cursor.next
  split
  · exact ⟨before, hs, hp, hk⟩
  · rename_i ch rest hr
    exact ⟨before ++ [ch], by simp [hs, hr], by simp [hp], by simp [hk, Column.ofText_concat]⟩

theorem Placed.move {c : Cursor} (h : c.Placed) (m : Move) : (c.move m).Placed := by
  cases m with
  | advance => exact h.next
  | skip => exact h.next
  | markEnd => exact h

theorem Placed.run {c : Cursor} (h : c.Placed) (ms : List Move) : (CharStream.run ms c).Placed := by
  induction ms generalizing c with
  | nil => exact h
  | cons m ms ih => exact ih (h.move m)

/-- A cursor at a place of its text has there what a fresh cursor has. -/
theorem Placed.atOffset_position {c : Cursor} (h : c.Placed) :
    (atOffset c.source c.position).rest = c.rest ∧
      (atOffset c.source c.position).position = c.position ∧
      (atOffset c.source c.position).column = c.column := by
  obtain ⟨before, hs, hp, hk⟩ := h
  simp [atOffset, hs, hp, hk]

end Cursor

end ScssTokens

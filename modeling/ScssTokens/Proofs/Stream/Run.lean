import ScssTokens.Stream.Cursor

/-!
# What a list of moves does to a cursor

A cursor that makes moves in turn ends at a place that depends on the moves and the text ahead
alone. Two counts of characters describe what becomes of its token: how far the start is taken
along, and where the last mark falls.

## Main definitions

* `Move.lead` — the characters skipped before the first advance.
* `Move.lastMark` — the characters consumed before the last mark.
* `Cursor.Aligned` — until the first advance the token starts where the cursor stands.

## Main statements

* `Cursor.position_run`, `Cursor.column_run`, `Cursor.mark_run`, `Cursor.tokenStart_run` — the
  fields of a cursor after a list of moves.
* `Cursor.tokenSpan_run_atOffset` — the token of a fresh cursor after a list of moves.
-/

namespace ScssTokens

namespace Move

/-- How many characters a list of moves skips before its first advance. -/
def lead : List Move → Nat
  | [] => 0
  | .advance :: _ => 0
  | .skip :: ms => lead ms + 1
  | .markEnd :: ms => lead ms

/-- How many characters a list of moves consumes before its last mark, if it has one. -/
def lastMark : List Move → Option Nat
  | [] => none
  | .markEnd :: ms => some ((lastMark ms).getD 0)
  | .advance :: ms => (lastMark ms).map (· + 1)
  | .skip :: ms => (lastMark ms).map (· + 1)

theorem lead_of_no_skip {ms : List Move} (h : .skip ∉ ms) : lead ms = 0 := by
  induction ms with
  | nil => rfl
  | cons m ms ih =>
    have hms : .skip ∉ ms := by
      intro hm
      exact h (List.mem_cons_of_mem m hm)
    cases m with
    | advance => rfl
    | skip => exact absurd List.mem_cons_self h
    | markEnd => exact ih hms

theorem lead_skips_append (n : Nat) (ms : List Move) :
    lead (List.replicate n .skip ++ ms) = n + lead ms := by
  induction n with
  | zero => simp
  | succ n ih =>
    rw [List.replicate_succ, List.cons_append, lead, ih]
    omega

/-- The characters skipped first are among those consumed. -/
theorem lead_le_steps (ms : List Move) : lead ms ≤ steps ms := by
  induction ms with
  | nil => exact Nat.le_refl _
  | cons m ms ih => cases m <;> simp [lead, ih]

theorem lastMark_append (ms ns : List Move) :
    lastMark (ms ++ ns) = ((lastMark ns).map (steps ms + ·)).or (lastMark ms) := by
  induction ms with
  | nil => cases h : lastMark ns <;> simp [lastMark, h]
  | cons m ms ih =>
    cases m <;> cases h : lastMark ns <;>
      simp [lastMark, ih, h, Nat.add_right_comm]

theorem isSome_lastMark {ms : List Move} : (lastMark ms).isSome ↔ .markEnd ∈ ms := by
  induction ms with
  | nil => simp [lastMark]
  | cons m ms ih => cases m <;> simp [lastMark, ih]

@[simp] theorem lastMark_skips (n : Nat) : lastMark (List.replicate n .skip) = none := by
  rw [← Option.not_isSome_iff_eq_none, isSome_lastMark]
  simp [List.mem_replicate]

end Move

/-! ## Runs of characters -/

theorem take_length_takeWhile {α : Type} (p : α → Bool) (l : List α) :
    l.take (l.takeWhile p).length = l.takeWhile p := by
  have h : (l.takeWhile p ++ l.dropWhile p).take (l.takeWhile p).length = l.takeWhile p :=
    List.take_left
  rwa [List.takeWhile_append_dropWhile] at h

theorem drop_length_takeWhile {α : Type} (p : α → Bool) (l : List α) :
    l.drop (l.takeWhile p).length = l.dropWhile p := by
  have h : (l.takeWhile p ++ l.dropWhile p).drop (l.takeWhile p).length = l.dropWhile p :=
    List.drop_left
  rwa [List.takeWhile_append_dropWhile] at h

/-- A run is empty where the first element is not of its class. -/
theorem takeWhile_eq_nil_iff_head? {α : Type} {p : α → Bool} {l : List α} :
    l.takeWhile p = [] ↔ l.head?.any p = false := by
  cases l <;> grind [List.takeWhile_nil, List.takeWhile_cons]

/-- A run goes on to the first element that is not of its class. -/
theorem takeWhile_append_of_stop {α : Type} {p : α → Bool} {l r : List α} (hl : ∀ a ∈ l, p a)
    (hr : r.head?.any p = false) : (l ++ r).takeWhile p = l := by
  rw [List.takeWhile_append_of_pos hl, takeWhile_eq_nil_iff_head?.2 hr, List.append_nil]

theorem dropWhile_append_of_stop {α : Type} {p : α → Bool} {l r : List α} (hl : ∀ a ∈ l, p a)
    (hr : r.head?.any p = false) : (l ++ r).dropWhile p = r := by
  have h := List.takeWhile_append_dropWhile (p := p) (l := l ++ r)
  rw [takeWhile_append_of_stop hl hr] at h
  exact List.append_cancel_left h

/-- What comes after a run is not of its class. -/
theorem any_head?_dropWhile {α : Type} (p : α → Bool) (l : List α) :
    (l.dropWhile p).head?.any p = false := by
  induction l with
  | nil => rfl
  | cons a l ih =>
    cases ha : p a with
    | true => rwa [List.dropWhile_cons_of_pos ha]
    | false => simp [ha]

namespace Cell

theorem length_takeWhile_ofText (p : Char → Bool) (k : Column) (t : Text) :
    ((ofText k t).takeWhile fun c => p c.char).length = (t.takeWhile p).length := by
  induction t generalizing k with
  | nil => rfl
  | cons c t ih => by_cases h : p c <;> simp [h, ih]

/-- The cells past a run of characters are those of the text past it. -/
theorem dropWhile_ofText (p : Char → Bool) (k : Column) (t : Text) :
    (ofText k t).dropWhile (fun c => p c.char) =
      ofText (Column.afterText k (t.takeWhile p)) (t.dropWhile p) := by
  induction t generalizing k with
  | nil => rfl
  | cons c t ih => by_cases h : p c <;> simp [h, ih]

theorem dropWhile_isWhiteSpace_ofText (k : Column) (t : Text) :
    (ofText k t).dropWhile isWhiteSpace =
      ofText (Column.afterText k (t.takeWhile Unicode.isWhiteSpace))
        (t.dropWhile Unicode.isWhiteSpace) :=
  dropWhile_ofText _ k t

theorem takeWhile_isWhiteSpace_eq_nil (k : Column) (t : Text) :
    (ofText k t).takeWhile isWhiteSpace = [] ↔
      t.head?.any Unicode.isWhiteSpace = false := by
  cases t with
  | nil => simp
  | cons c t => by_cases h : Unicode.isWhiteSpace c <;> simp [isWhiteSpace, h]

end Cell

theorem Text.size_take_succ (t : Text) (n : Nat) :
    Text.size (t.take (n + 1)) = Text.size (t.take 1) + Text.size (t.tail.take n) := by
  cases t <;> simp

theorem Column.afterText_take_succ (k : Column) (t : Text) (n : Nat) :
    afterText k (t.take (n + 1)) = afterText (afterText k (t.take 1)) (t.tail.take n) := by
  cases t <;> simp

namespace Cursor

open CharStream

theorem position_next (c : Cursor) : c.next.position = c.position + Text.size (c.rest.take 1) := by
  unfold next
  split <;> simp_all

@[simp] theorem tokenStart_next (c : Cursor) : c.next.tokenStart = c.tokenStart := by
  unfold next
  split <;> rfl

theorem column_next (c : Cursor) : c.next.column = Column.afterText c.column (c.rest.take 1) := by
  unfold next
  split <;> simp_all

/-! ## The place -/

theorem rest_run (ms : List Move) (c : Cursor) : (run ms c).rest = c.rest.drop (Move.steps ms) := by
  induction ms generalizing c with
  | nil => simp
  | cons m ms ih =>
    rw [run_cons, ih]
    cases m <;> simp [move, ← List.drop_one, Nat.add_comm]

theorem source_run (ms : List Move) (c : Cursor) : (run ms c).source = c.source := by
  induction ms generalizing c with
  | nil => rfl
  | cons m ms ih => rw [run_cons, ih, move_eq, source_move]

theorem position_run (ms : List Move) (c : Cursor) :
    (run ms c).position = c.position + Text.size (c.rest.take (Move.steps ms)) := by
  induction ms generalizing c with
  | nil => simp
  | cons m ms ih =>
    rw [run_cons, ih]
    cases m with
    | advance =>
      simp [move, position_next, Text.size_take_succ c.rest (Move.steps ms), Nat.add_assoc]
    | skip => simp [move, position_next, Text.size_take_succ c.rest (Move.steps ms), Nat.add_assoc]
    | markEnd => simp [move]

theorem column_run (ms : List Move) (c : Cursor) :
    (run ms c).column = Column.afterText c.column (c.rest.take (Move.steps ms)) := by
  induction ms generalizing c with
  | nil => simp
  | cons m ms ih =>
    rw [run_cons, ih]
    cases m with
    | advance => simp [move, column_next, Column.afterText_take_succ _ c.rest (Move.steps ms)]
    | skip => simp [move, column_next, Column.afterText_take_succ _ c.rest (Move.steps ms)]
    | markEnd => simp [move]

/-! ## The token -/

theorem mark_run (ms : List Move) (c : Cursor) :
    (run ms c).mark =
      ((Move.lastMark ms).map fun n => c.position + Text.size (c.rest.take n)).or c.mark := by
  induction ms generalizing c with
  | nil => simp [Move.lastMark]
  | cons m ms ih =>
    rw [run_cons, ih]
    cases h : Move.lastMark ms with
    | none => cases m <;> simp [move, Move.lastMark, h]
    | some n =>
      cases m <;>
        simp [move, Move.lastMark, h, position_next, Text.size_take_succ c.rest n, Nat.add_assoc]

theorem begun_run (ms : List Move) (c : Cursor) :
    (run ms c).begun = (c.begun || decide (.advance ∈ ms)) := by
  induction ms generalizing c with
  | nil => simp
  | cons m ms ih =>
    rw [run_cons, ih]
    cases m <;> simp [move]

/-- Until the first advance the token starts where the cursor stands. -/
def Aligned (c : Cursor) : Prop := c.begun = false → c.tokenStart = c.position

theorem aligned_atOffset (source : Text) (offset : Nat) : (atOffset source offset).Aligned :=
  fun _ => rfl

theorem Aligned.move {c : Cursor} (h : c.Aligned) (m : Move) : (c.move m).Aligned := by
  cases m with
  | advance =>
    intro hb
    exact absurd hb (by simp [Cursor.move])
  | skip =>
    intro hb
    have hb' : c.begun = false := by simpa [Cursor.move] using hb
    simp [Cursor.move, hb']
  | markEnd => exact h

theorem Aligned.run {c : Cursor} (h : c.Aligned) (ms : List Move) :
    (CharStream.run ms c).Aligned := by
  induction ms generalizing c with
  | nil => exact h
  | cons m ms ih => exact ih (h.move m)

theorem tokenStart_run (ms : List Move) {c : Cursor} (h : c.Aligned) :
    (run ms c).tokenStart =
      if c.begun then c.tokenStart else c.position + Text.size (c.rest.take (Move.lead ms)) := by
  induction ms generalizing c with
  | nil =>
    cases hb : c.begun with
    | false => simpa [Move.lead] using h hb
    | true => simp
  | cons m ms ih =>
    rw [run_cons, move_eq, ih (h.move m)]
    cases hb : c.begun with
    | true => cases m <;> simp [move, hb]
    | false =>
      cases m with
      | advance => simp [move, Move.lead, h hb]
      | skip =>
        simp [move, Move.lead, hb, position_next, Text.size_take_succ c.rest (Move.lead ms),
          Nat.add_assoc]
      | markEnd => simp [move, Move.lead, hb]

/-- The token of a fresh cursor after a list of moves, from the counts of characters that lie before
its start and its end. -/
theorem tokenSpan_run_atOffset (ms : List Move) (source : Text) (offset : Nat) :
    (run ms (atOffset source offset)).tokenSpan =
      ⟨Text.size (source.takeBytes offset) +
          Text.size ((source.dropBytes offset).take (Move.lead ms)),
        Text.size (source.takeBytes offset) +
          Text.size ((source.dropBytes offset).take
            ((Move.lastMark ms).getD (Move.steps ms)))⟩ := by
  rw [tokenSpan, tokenStart_run ms (aligned_atOffset source offset), mark_run, position_run]
  cases Move.lastMark ms <;> rfl

end Cursor

end ScssTokens

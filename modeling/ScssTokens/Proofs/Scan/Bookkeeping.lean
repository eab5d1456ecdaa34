import ScssTokens.Proofs.Scan.History
import ScssTokens.Proofs.Text.Search

/-!
# What a cursor keeps account of

A cursor is told nothing but to consume, to skip and to mark, and it goes by one character at a
time. After any sequence of actions its fields are what one would work out afterwards, from the text
and from the moves made since the cursor was fresh: the position from the number of characters
consumed, the column from the text before the position, the start of the token from the skips before
the first advance, and its end from the last mark.

## Main definitions

* `Cursor.Accounts` — the fields of a cursor by the text and by the moves made.

## Main statements

* `Cursor.accounts_run` — moves made on a fresh cursor keep the account.
* `Cursor.accounts_actAll` — so does any sequence of actions.
-/

namespace ScssTokens

namespace Move

/-- The moves before the first advance. -/
def early (ms : List Move) : List Move := ms.takeWhile (· ≠ .advance)

/-- The characters skipped first are those consumed before the first advance. -/
theorem lead_eq_steps_early (ms : List Move) : lead ms = steps (early ms) := by
  induction ms with
  | nil => rfl
  | cons m ms ih => cases m <;> simp_all [lead, early]

theorem advance_not_mem_early (ms : List Move) : .advance ∉ early ms := by
  intro h
  have hne := List.all_eq_true.1 List.all_takeWhile _ h
  simp at hne

/-- Marks consume nothing. -/
theorem steps_eq_zero {ms : List Move} (ha : .advance ∉ ms) (hs : .skip ∉ ms) : steps ms = 0 := by
  rw [steps, List.countP_eq_zero]
  intro m hm hc
  cases m with
  | advance => exact ha hm
  | skip => exact hs hm
  | markEnd => cases hc

theorem lead_of_early_eq {ms pre post : List Move} (h : early ms = pre ++ .skip :: post)
    (hpost : .skip ∉ post) : lead ms = steps (pre ++ [.skip]) := by
  have hadvance : .advance ∉ post := fun ha => advance_not_mem_early ms (by simp [h, ha])
  rw [lead_eq_steps_early, h, List.append_cons, steps_append, steps_eq_zero hadvance hpost]
  rfl

theorem lead_of_no_early_skip {ms : List Move} (h : .skip ∉ early ms) : lead ms = 0 := by
  rw [lead_eq_steps_early, steps_eq_zero (advance_not_mem_early ms) h]

theorem lastMark_of_last {pre post : List Move} (h : .markEnd ∉ post) :
    lastMark (pre ++ .markEnd :: post) = some (steps pre) := by
  have hpost : lastMark post = none := by
    rwa [← Option.not_isSome_iff_eq_none, isSome_lastMark]
  simp [lastMark_append, lastMark, hpost]

end Move

namespace Cursor

open CharStream

/-- The number of characters up to the place that is reached from an offset by some moves, each of
which goes on by one if it consumes. Past the end it counts on. -/
def place (source : Text) (offset : Nat) (ms : List Move) : Nat :=
  (source.takeBytes offset).length + Move.steps ms

/-- The fields of a cursor, worked out from its text and from the moves made on it since it was made
at an offset. The search for a newline among bytes is a parameter. -/
structure Accounts (find : UInt8 → List UInt8 → Option Nat) (source : Text) (offset : Nat)
    (ms : List Move) (c : Cursor) : Prop where
  source_eq : c.source = source
  /-- The position is that of the place reached, and at the end it stays. -/
  position : c.position = Text.size (source.take (place source offset ms))
  boundary : source.IsBoundary c.position
  lookahead : lookahead c = source[place source offset ms]?
  /-- The column is the one that a fresh cursor has at the position. -/
  column_fresh : c.column = (atOffset source c.position).column
  column_search : c.column = Column.bySearch find source c.position
  /-- The column counts the characters from the last newline to the position, up to the limit. -/
  column_line : ∃ lines line, source.take (place source offset ms) = lines ++ line ∧
    (lines = [] ∨ lines.getLast? = some '\n') ∧ '\n' ∉ line ∧
    c.column.toNat = min line.length Column.limit
  /-- The token starts at the position just after the last skip before the first advance. -/
  start_of_skip : ∀ pre post, Move.early ms = pre ++ .skip :: post → .skip ∉ post →
    c.tokenStart = (run (pre ++ [.skip]) (atOffset source offset)).position
  start_of_no_skip : .skip ∉ Move.early ms → c.tokenStart = (atOffset source offset).position
  /-- The token ends at the position of the last mark. -/
  mark_of_mark : ∀ pre post, ms = pre ++ .markEnd :: post → .markEnd ∉ post →
    c.mark = some (run pre (atOffset source offset)).position
  mark_of_no_mark : .markEnd ∉ ms → c.mark = none

/-! ## Fresh cursors and the place they reach -/

/-- A fresh cursor at a boundary stands there, and past the end it stands at the end. -/
theorem position_atOffset {source : Text} {offset : Nat}
    (h : source.IsBoundary (min offset source.size)) :
    (atOffset source offset).position = min offset source.size := by
  by_cases hle : offset ≤ source.size
  · rw [Nat.min_eq_left hle] at h ⊢
    exact h
  · have hsize : source.size ≤ offset := by omega
    rw [Nat.min_eq_right hsize]
    exact congrArg Text.size (Text.takeBytes_of_size_le hsize)

/-- The characters up to a place past an offset are those before the offset and the next ones. -/
theorem take_place (source : Text) (offset : Nat) (ms : List Move) :
    source.take (place source offset ms) =
      source.takeBytes offset ++ (source.dropBytes offset).take (Move.steps ms) := by
  have h : (source.takeBytes offset ++ source.dropBytes offset).take (place source offset ms) =
      source.takeBytes offset ++ (source.dropBytes offset).take (Move.steps ms) :=
    List.take_length_add_append _
  rwa [Text.takeBytes_append_dropBytes] at h

theorem getElem?_place (source : Text) (offset : Nat) (ms : List Move) :
    source[place source offset ms]? = (source.dropBytes offset)[Move.steps ms]? := by
  have h : (source.takeBytes offset ++ source.dropBytes offset)[place source offset ms]? =
      (source.dropBytes offset)[Move.steps ms]? := by
    rw [place, List.getElem?_append_right (Nat.le_add_right _ _), Nat.add_sub_cancel_left]
  rwa [Text.takeBytes_append_dropBytes] at h

section

variable (source : Text) (offset : Nat) (ms : List Move)

theorem position_run_atOffset :
    (run ms (atOffset source offset)).position =
      Text.size (source.take (place source offset ms)) := by
  rw [position_run, take_place, Text.size_append]
  rfl

theorem column_run_atOffset :
    (run ms (atOffset source offset)).column =
      Column.ofText (source.take (place source offset ms)) := by
  rw [column_run, take_place, Column.ofText_append]
  rfl

theorem lookahead_run_atOffset :
    lookahead (run ms (atOffset source offset)) = source[place source offset ms]? := by
  rw [getElem?_place, lookahead, ← List.head?_map, ahead_eq, Cell.map_char_ofText, rest_run,
    List.head?_drop]
  rfl

end

/-! ## Accounts -/

/-- Moves made on a fresh cursor keep the account. -/
theorem accounts_run {find : UInt8 → List UInt8 → Option Nat} (hfind : SearchesBack find)
    (source : Text) (offset : Nat) (ms : List Move) :
    (run ms (atOffset source offset)).Accounts find source offset ms := by
  have hposition := position_run_atOffset source offset ms
  have hcolumn := column_run_atOffset source offset ms
  have hsource : source = source.take (place source offset ms) ++
      source.drop (place source offset ms) := (List.take_append_drop _ _).symm
  have hstart := tokenStart_run ms (aligned_atOffset source offset)
  have hmark := mark_run ms (atOffset source offset)
  refine {
    source_eq := source_run ms _
    position := hposition
    boundary := ?boundary
    lookahead := lookahead_run_atOffset source offset ms
    column_fresh := ?column_fresh
    column_search := ?column_search
    column_line := ?column_line
    start_of_skip := ?start_of_skip
    start_of_no_skip := ?start_of_no_skip
    mark_of_mark := ?mark_of_mark
    mark_of_no_mark := ?mark_of_no_mark }
  case boundary => exact Text.isBoundary_iff.2 ⟨_, _, hsource, hposition.symm⟩
  case column_fresh =>
    have hplaced := (placed_atOffset source offset).run ms
    have hfresh := hplaced.atOffset_position.2.2
    rw [source_run] at hfresh
    exact hfresh.symm
  case column_search =>
    have hsearch := Column.bySearch_eq hfind (source.take (place source offset ms))
      (source.drop (place source offset ms))
    rw [← hsource, ← hposition, ← hcolumn] at hsearch
    exact hsearch.symm
  case column_line =>
    obtain ⟨lines, hcut, hlines, hline⟩ :=
      Column.exists_lines (source.take (place source offset ms))
    refine ⟨lines, _, hcut, ?_, hline, by rw [hcolumn, Column.ofText, Column.toNat_ofCount]⟩
    obtain hnil | ⟨l, hl⟩ := hlines
    · exact .inl hnil
    · exact .inr (by simp [hl])
  case start_of_skip =>
    intro pre post hearly hpost
    rw [hstart, Move.lead_of_early_eq hearly hpost, position_run]
    rfl
  case start_of_no_skip =>
    intro hskip
    rw [hstart, Move.lead_of_no_early_skip hskip, List.take_zero]
    rfl
  case mark_of_mark =>
    rintro pre post rfl hpost
    rw [hmark, Move.lastMark_of_last hpost, position_run]
    rfl
  case mark_of_no_mark =>
    intro hnone
    rw [hmark, Option.not_isSome_iff_eq_none.1 (mt Move.isSome_lastMark.1 hnone)]
    rfl

/-- Any sequence of actions on a cursor that was made at a boundary of a text, or past its end,
keeps the account. -/
theorem accounts_actAll {find : UInt8 → List UInt8 → Option Nat} (hfind : SearchesBack find)
    {source : Text} {offset : Nat} (hoffset : source.IsBoundary (min offset source.size))
    (as : List Action) :
    let fresh := atOffset source offset
    fresh.position = min offset source.size ∧
      (actAll as fresh).Accounts find source offset (history as fresh) := by
  intro fresh
  refine ⟨position_atOffset hoffset, ?_⟩
  rw [actAll_eq_run]
  exact accounts_run hfind source offset _

/-- Over two lines, from the end of the first: a newline and a space are skipped, one letter is a
token, and the next is skipped too late to move the start. -/
theorem accounts_actAll_letters :
    let source : Text := ['é', '\n', ' ', 'b', 'c']
    let as : List Action :=
      [.move .skip, .skipWhiteSpace, .move .advance, .move .markEnd, .move .skip]
    let c := actAll as (atOffset source 2)
    SearchesBack lastIndexOf? ∧ source.IsBoundary (min 2 source.size) ∧
      history as (atOffset source 2) = [.skip, .skip, .advance, .markEnd, .skip] ∧
      c.tokenStart = 4 ∧ c.mark = some 5 ∧ c.position = 6 ∧
      c.column = Column.bySearch lastIndexOf? source 6 ∧ c.column = 3 := by
  intro source as c
  have hboundary : source.IsBoundary (min 2 source.size) := by decide
  have hhistory : history as (atOffset source 2) = [.skip, .skip, .advance, .markEnd, .skip] := by
    decide
  obtain ⟨-, h⟩ := accounts_actAll searchesBack_lastIndexOf? hboundary as
  have hposition : c.position = 6 := h.position.trans (by rw [hhistory]; decide)
  have hstart : c.tokenStart = 4 := h.start_of_skip [.skip] [] (by rw [hhistory]; rfl) (by simp)
  have hmark : c.mark = some 5 :=
    h.mark_of_mark [.skip, .skip, .advance] [.skip] (by rw [hhistory]; rfl) (by simp)
  have hcolumn : c.column = Column.bySearch lastIndexOf? source 6 := hposition ▸ h.column_search
  exact ⟨searchesBack_lastIndexOf?, hboundary, hhistory, hstart, hmark, hposition, hcolumn,
    hcolumn.trans (by decide)⟩

end Cursor

end ScssTokens

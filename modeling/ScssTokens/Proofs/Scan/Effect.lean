import ScssTokens.Proofs.Decision.Shape
import ScssTokens.Proofs.Scan.History

/-!
# Scans without memory

What a scan makes of a cursor is an effect that is known from the text ahead, the column and the
candidates. Nothing else about the cursor has a say in it: not the text before, not the token so far
and not the scans before this one.

## Main definitions

* `Cursor.Effect` — what a scan does, measured from where the cursor stands.
* `Cursor.Effect.on` — the cursor after an effect.
* `Cursor.effect` — the effect of a scan from the text ahead, the column and the candidates.

## Main statements

* `Cursor.scan_eq_on` — a scan is its effect.
* `Cursor.scan_memoryless` — two cursors in use with the same text ahead and the same column.
-/

namespace ScssTokens.Cursor

open CharStream

attribute [ext] Cursor

/-- What a scan does to a cursor, measured from where the cursor stands. -/
structure Effect where
  /-- The kind of the token found, if any. -/
  kind : Option Kind
  /-- The bytes consumed. -/
  moved : Nat
  /-- The column reached. -/
  column : Column
  /-- Whether an advance was made. -/
  advanced : Bool
  /-- The bytes before the last mark, if a mark was made. -/
  marked : Option Nat
  /-- The bytes skipped before the first advance. -/
  skipped : Nat
  deriving DecidableEq, Repr

/-- The kind found and the cursor after an effect. The token start is taken along unless an advance
was made before, and a mark made before stays unless a new one is made. -/
def Effect.on (e : Effect) (c : Cursor) : Option Kind × Cursor :=
  (e.kind,
    { source := c.source
      rest := c.rest.dropBytes e.moved
      position := c.position + e.moved
      column := e.column
      tokenStart := if c.begun then c.tokenStart else c.position + e.skipped
      mark := (e.marked.map (c.position + ·)).or c.mark
      begun := c.begun || e.advanced })

/-- The effect of a scan before a text that starts at column `k`. -/
def effect (V : Candidates) (text : Text) (k : Column) : Effect :=
  let d := Decision.ofCells V (Cell.ofText k text)
  { kind := d.kind
    moved := Text.size (text.take (Move.steps d.moves))
    column := Column.afterText k (text.take (Move.steps d.moves))
    advanced := decide (.advance ∈ d.moves)
    marked := (Move.lastMark d.moves).map fun n => Text.size (text.take n)
    skipped := Text.size (text.take (Move.lead d.moves)) }

/-- A scan is its effect. -/
theorem scan_eq_on {c : Cursor} (h : c.Aligned) (V : Candidates) :
    scan V c = (effect V c.rest c.column).on c := by
  let ms := (Decision.ofCells V (Cell.ofText c.column c.rest)).moves
  have hrest : c.rest.drop (Move.steps ms) =
      c.rest.dropBytes (Text.size (c.rest.take (Move.steps ms))) := by
    have hd := Text.dropBytes_size_append (c.rest.take (Move.steps ms))
      (c.rest.drop (Move.steps ms))
    rw [List.take_append_drop] at hd
    exact hd.symm
  have hmark : (run ms c).mark =
      ((effect V c.rest c.column).marked.map (c.position + ·)).or c.mark := by
    rw [mark_run, effect, Option.map_map]
    rfl
  have hcursor : run ms c = ((effect V c.rest c.column).on c).2 := by
    apply Cursor.ext
    · exact source_run ms c
    · exact (rest_run ms c).trans hrest
    · exact position_run ms c
    · exact column_run ms c
    · exact tokenStart_run ms h
    · exact hmark
    · exact begun_run ms c
  exact Prod.ext rfl hcursor

/-- A scan that finds a token marks its end. -/
theorem isSome_marked_effect {V : Candidates} {text : Text} {k : Column}
    (h : (effect V text k).kind.isSome) : (effect V text k).marked.isSome := by
  have hmark := Decision.marked_ofCells h
  rw [effect, Option.isSome_map, Move.isSome_lastMark]
  exact hmark

/-- What a scan skips is the whitespace ahead, except during error recovery. -/
theorem skipped_effect (V : Candidates) (text : Text) (k : Column) :
    (effect V text k).skipped =
      Text.size (if V.inRecovery then [] else text.takeWhile Unicode.isWhiteSpace) := by
  have hlead : (effect V text k).skipped = Text.size (text.take
      (if V.inRecovery then 0 else (text.takeWhile Unicode.isWhiteSpace).length)) := by
    rw [effect, Decision.lead_ofCells, ← Cell.length_takeWhile_ofText _ k]
    rfl
  rw [hlead]
  split
  · simp
  · rw [take_length_takeWhile]

/-- Two cursors in use, over one text or over two, are scanned with the same effect if the text
ahead and the column agree. A fresh cursor at the same place finds the same. -/
theorem scan_memoryless {c d : Cursor} (hc : c.Reachable) (hd : d.Reachable)
    (hrest : c.rest = d.rest) (hcolumn : c.column = d.column) (V : Candidates) :
    ∃ e : Effect, scan V c = e.on c ∧ scan V d = e.on d ∧
      (e.kind.isSome → e.marked.isSome) ∧
      e.skipped =
        Text.size (if V.inRecovery then [] else c.rest.takeWhile Unicode.isWhiteSpace) ∧
      (scan V (atOffset c.source c.position)).1 = (scan V c).1 ∧
      ((scan V c).1.isSome →
        (scan V (atOffset c.source c.position)).2.mark = (scan V c).2.mark) := by
  have hscan := scan_eq_on hc.aligned V
  have hfresh := scan_eq_on (aligned_atOffset c.source c.position) V
  obtain ⟨hr, hp, hk⟩ := hc.placed.atOffset_position
  rw [hr, hk] at hfresh
  refine ⟨effect V c.rest c.column, hscan, ?_, isSome_marked_effect, skipped_effect _ _ _, ?_, ?_⟩
  · rw [hrest, hcolumn]
    exact scan_eq_on hd.aligned V
  · rw [hfresh, hscan]
    rfl
  · intro hkind
    rw [hscan] at hkind
    obtain ⟨n, hn⟩ := Option.isSome_iff_exists.1 (isSome_marked_effect hkind)
    rw [hfresh, hscan]
    simp [Effect.on, hn, hp]

/-- A cursor past a parenthesis and one past a declined scan see the same value. -/
theorem scan_memoryless_value :
    let V := Candidates.ofKind .applyValue
    let c := (atOffset ['(', 'a', ';'] 0).move .advance
    let d := (scan (.ofKind .pseudoClassColon) (atOffset [' ', 'a', ';'] 0)).2
    c.Reachable ∧ d.Reachable ∧ c ≠ d ∧
      ∃ e : Effect, scan V c = e.on c ∧ scan V d = e.on d ∧ e.kind = some .applyValue := by
  intro V c d
  have hc : c.Reachable := (Reachable.atOffset _ 0).act (.move .advance)
  have hd : d.Reachable := (Reachable.atOffset _ 0).act (.scan _)
  obtain ⟨e, hec, hed, -⟩ := scan_memoryless hc hd (by decide) (by decide) V
  have hkind : e.kind = some .applyValue := (congrArg Prod.fst hec).symm.trans (by decide)
  exact ⟨hc, hd, by decide, e, hec, hed, hkind⟩

end ScssTokens.Cursor

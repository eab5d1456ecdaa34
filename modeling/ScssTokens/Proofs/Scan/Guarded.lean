import ScssTokens.Proofs.Decision.Shape
import ScssTokens.Proofs.Scan.History

/-!
# Guarded use of a cursor

Skipping takes the start of a token along until the first advance, and a mark stays where it was
made. A mark that is made early and skipped past would leave a token that ends before it starts.
Two guards rule this out: nothing is skipped between a mark and the first advance, and before the
first advance no mark is made where whitespace is ahead.

A host can keep to these guards by looking at the cursor. Scans need no guard. The invariant behind
this is that before the first advance a marked cursor has no whitespace ahead, so a scan that starts
there skips nothing.

## Main definitions

* `Cursor.Permits` — the guard of a move.
* `Cursor.Guarded` — the cursors in use on which every action was permitted.
* `Cursor.Ordered` — the order of the offsets of a cursor, with what keeps it.

## Main statements

* `Cursor.Ordered.run` — permitted moves keep the order.
* `Cursor.Ordered.permitsAll_scan` — a scan makes permitted moves only.
* `Cursor.Guarded.tokenSpan_valid` — the token so far is a piece of the text.
-/

namespace ScssTokens.Cursor

open CharStream

/-! ## Guards -/

/-- Whether a move may be made: a character is skipped only while there is no mark or once there was
an advance, and a mark is made only once there was an advance or where no whitespace is ahead. -/
def Permits (c : Cursor) : Move → Prop
  | .advance => True
  | .skip => c.mark = none ∨ c.begun = true
  | .markEnd => c.begun = true ∨ isAtWhiteSpace c = false

instance (c : Cursor) : (m : Move) → Decidable (c.Permits m)
  | .advance => inferInstanceAs (Decidable True)
  | .skip => inferInstanceAs (Decidable (c.mark = none ∨ c.begun = true))
  | .markEnd => inferInstanceAs (Decidable (c.begun = true ∨ isAtWhiteSpace c = false))

/-- Whether moves may be made in turn. -/
def PermitsAll (c : Cursor) : List Move → Prop
  | [] => True
  | m :: ms => c.Permits m ∧ (c.move m).PermitsAll ms

/-- Whether an action may be done. Whitespace is skipped where a character may be, and a scan may
always be made. -/
def Action.PermittedOn : Action → Cursor → Prop
  | move m, c => c.Permits m
  | skipWhiteSpace, c => c.Permits .skip
  | scan _, _ => True

/-- The cursors in use: made at an offset of a text, with permitted actions since. -/
inductive Guarded : Cursor → Prop where
  | atOffset (source : Text) (offset : Nat) : Guarded (atOffset source offset)
  | act {c : Cursor} (h : Guarded c) (a : Action) (ha : a.PermittedOn c) : Guarded (a.act c)

theorem permitsAll_append {c : Cursor} {ms ns : List Move} :
    c.PermitsAll (ms ++ ns) ↔ c.PermitsAll ms ∧ (CharStream.run ms c).PermitsAll ns := by
  induction ms generalizing c with
  | nil => simp [PermitsAll]
  | cons m ms ih => simp [PermitsAll, ih, and_assoc]

/-- Skipping neither marks nor begins a token, so one may go on skipping. -/
theorem permitsAll_skips {c : Cursor} (h : c.Permits .skip) (n : Nat) :
    c.PermitsAll (List.replicate n .skip) := by
  induction n generalizing c with
  | zero => trivial
  | succ n ih => exact ⟨h, ih (by simpa [Permits, Cursor.move] using h)⟩

/-- Where a mark may be made, any moves may be made that skip nothing: as long as none of them
advances, what is ahead stays. -/
theorem permitsAll_of_no_skip {c : Cursor} {ms : List Move} (hms : .skip ∉ ms)
    (h : c.Permits .markEnd) : c.PermitsAll ms := by
  induction ms generalizing c with
  | nil => trivial
  | cons m ms ih =>
    have hms' : .skip ∉ ms := fun hm => hms (List.mem_cons_of_mem m hm)
    cases m with
    | advance => exact ⟨trivial, ih hms' (.inl rfl)⟩
    | skip => exact absurd List.mem_cons_self hms
    | markEnd => exact ⟨h, ih hms' h⟩

/-! ## The order of the offsets -/

/-- The offsets of a cursor in their order: the start of the token, its end if it is marked, and the
position. Before the first advance a cursor with a mark has no whitespace ahead. -/
structure Ordered (c : Cursor) : Prop where
  placed : c.Placed
  aligned : c.Aligned
  boundary_start : c.source.IsBoundary c.tokenStart
  start_le_position : c.tokenStart ≤ c.position
  boundary_mark : ∀ n ∈ c.mark, c.source.IsBoundary n
  start_le_mark : ∀ n ∈ c.mark, c.tokenStart ≤ n
  mark_le_position : ∀ n ∈ c.mark, n ≤ c.position
  early : c.begun = false → c.mark.isSome → isAtWhiteSpace c = false

theorem Placed.boundary_position {c : Cursor} (h : c.Placed) : c.source.IsBoundary c.position := by
  obtain ⟨before, hs, hp, -⟩ := h
  exact Text.isBoundary_iff.2 ⟨before, c.rest, hs, hp.symm⟩

theorem position_le_next (c : Cursor) : c.position ≤ c.next.position := by
  rw [position_next]
  exact Nat.le_add_right _ _

theorem ordered_atOffset (source : Text) (offset : Nat) : (atOffset source offset).Ordered where
  placed := placed_atOffset source offset
  aligned := aligned_atOffset source offset
  boundary_start := (placed_atOffset source offset).boundary_position
  start_le_position := Nat.le_refl _
  boundary_mark := by rintro n ⟨⟩
  start_le_mark := by rintro n ⟨⟩
  mark_le_position := by rintro n ⟨⟩
  early := by rintro - ⟨⟩

theorem Ordered.advance {c : Cursor} (h : c.Ordered) : (c.move .advance).Ordered where
  placed := h.placed.move .advance
  aligned := h.aligned.move .advance
  boundary_start := by simpa [Cursor.move] using h.boundary_start
  start_le_position := by
    simpa [Cursor.move] using Nat.le_trans h.start_le_position c.position_le_next
  boundary_mark := by simpa [Cursor.move] using h.boundary_mark
  start_le_mark := by simpa [Cursor.move] using h.start_le_mark
  mark_le_position n hn := by
    have hn' : n ∈ c.mark := by simpa [Cursor.move] using hn
    exact Nat.le_trans (h.mark_le_position n hn') c.position_le_next
  early hbegun := by simp [Cursor.move] at hbegun

theorem Ordered.skip {c : Cursor} (h : c.Ordered) (hc : c.Permits .skip) :
    (c.move .skip).Ordered := by
  have hplaced := h.placed.move .skip
  have haligned := h.aligned.move .skip
  cases hb : c.begun with
  | true =>
    -- the start stays behind, so skipping does what an advance does
    have hadvance : c.move .skip = c.move .advance := by simp [Cursor.move, hb]
    rw [hadvance]
    exact h.advance
  | false =>
    have hmark : c.mark = none := hc.resolve_right (by simp [hb])
    have hstart : (c.move .skip).tokenStart = (c.move .skip).position :=
      haligned (by simp [Cursor.move, hb])
    have hnone : (c.move .skip).mark = none := by simp [Cursor.move, hmark]
    exact {
      placed := hplaced
      aligned := haligned
      boundary_start := hstart ▸ hplaced.boundary_position
      start_le_position := Nat.le_of_eq hstart
      boundary_mark := by simp [hnone]
      start_le_mark := by simp [hnone]
      mark_le_position := by simp [hnone]
      early := by simp [hnone] }

theorem Ordered.markEnd {c : Cursor} (h : c.Ordered) (hc : c.Permits .markEnd) :
    (c.move .markEnd).Ordered where
  placed := h.placed.move .markEnd
  aligned := h.aligned.move .markEnd
  boundary_start := h.boundary_start
  start_le_position := h.start_le_position
  boundary_mark := by
    rintro n ⟨⟩
    exact h.placed.boundary_position
  start_le_mark := by
    rintro n ⟨⟩
    exact h.start_le_position
  mark_le_position := by
    rintro n ⟨⟩
    exact Nat.le_refl _
  early hbegun _ := hc.resolve_left (by simpa [Cursor.move] using hbegun)

/-- A permitted move keeps the order. -/
theorem Ordered.move {c : Cursor} (h : c.Ordered) {m : Move} (hm : c.Permits m) :
    (c.move m).Ordered := by
  cases m with
  | advance => exact h.advance
  | skip => exact h.skip hm
  | markEnd => exact h.markEnd hm

/-- Permitted moves in turn keep the order. -/
theorem Ordered.run {c : Cursor} (h : c.Ordered) {ms : List Move} (hms : c.PermitsAll ms) :
    (CharStream.run ms c).Ordered := by
  induction ms generalizing c with
  | nil => exact h
  | cons m ms ih => exact ih (h.move hms.1) hms.2

/-! ## Scans -/

theorem isAtWhiteSpace_eq (c : Cursor) :
    isAtWhiteSpace c = (ahead c).head?.any Cell.isWhiteSpace := by
  rw [isAtWhiteSpace, lookahead, Option.any_map]
  rfl

theorem isAtWhiteSpace_skipWhiteSpace (c : Cursor) :
    isAtWhiteSpace (CharStream.skipWhiteSpace c) = false := by
  rw [isAtWhiteSpace_eq, ahead_skipWhiteSpace]
  exact any_head?_dropWhile Cell.isWhiteSpace (ahead c)

/-- Where whitespace is ahead it may be skipped, since no mark was made there too early. -/
theorem Ordered.permitsAll_space {c : Cursor} (h : c.Ordered) :
    c.PermitsAll (List.replicate ((ahead c).takeWhile Cell.isWhiteSpace).length .skip) := by
  cases hw : isAtWhiteSpace c with
  | true =>
    apply permitsAll_skips
    cases hb : c.begun with
    | true => exact .inr hb
    | false =>
      refine .inl (Option.not_isSome_iff_eq_none.1 ?_)
      intro hmark
      rw [h.early hb hmark] at hw
      cases hw
  | false =>
    rw [isAtWhiteSpace_eq] at hw
    rw [takeWhile_eq_nil_iff_head?.2 hw]
    trivial

/-- A scan makes permitted moves only. -/
theorem Ordered.permitsAll_scan {c : Cursor} (h : c.Ordered) (V : Candidates) :
    c.PermitsAll (Decision.ofCells V (ahead c)).moves := by
  cases hr : V.inRecovery with
  | true =>
    rw [Decision.ofCells_of_recovery hr]
    trivial
  | false =>
    obtain ⟨w, hw, hmoves⟩ := Decision.moves_ofCells (ahead c) hr
    rw [hmoves, permitsAll_append]
    exact ⟨h.permitsAll_space, permitsAll_of_no_skip hw (.inr (isAtWhiteSpace_skipWhiteSpace c))⟩

theorem Ordered.act {c : Cursor} (h : c.Ordered) {a : Action} (ha : a.PermittedOn c) :
    (a.act c).Ordered := by
  cases a with
  | move m => exact h.move ha
  | skipWhiteSpace => exact h.run (permitsAll_skips ha _)
  | scan V => exact h.run (h.permitsAll_scan V)

theorem Guarded.ordered {c : Cursor} (h : c.Guarded) : c.Ordered := by
  induction h with
  | atOffset source offset => exact ordered_atOffset source offset
  | act _ _ ha ih => exact ih.act ha

/-! ## The token so far -/

theorem Ordered.start_le_stop {c : Cursor} (h : c.Ordered) :
    c.tokenSpan.start ≤ c.tokenSpan.stop := by
  cases hm : c.mark with
  | none => simpa [tokenSpan, hm] using h.start_le_position
  | some n => simpa [tokenSpan, hm] using h.start_le_mark n hm

theorem Ordered.stop_le_position {c : Cursor} (h : c.Ordered) :
    c.tokenSpan.stop ≤ c.position := by
  cases hm : c.mark with
  | none => simp [tokenSpan, hm]
  | some n => simpa [tokenSpan, hm] using h.mark_le_position n hm

theorem Ordered.boundary_stop {c : Cursor} (h : c.Ordered) :
    c.source.IsBoundary c.tokenSpan.stop := by
  cases hm : c.mark with
  | none => simpa [tokenSpan, hm] using h.placed.boundary_position
  | some n => simpa [tokenSpan, hm] using h.boundary_mark n hm

theorem isBoundary_size (t : Text) : t.IsBoundary t.size :=
  Text.isBoundary_iff.2 ⟨t, [], by simp, rfl⟩

/-- The token of a guarded cursor is a piece of its text: it starts at a boundary, ends at one that
is not before its start and not beyond the position, and its slice is what lies between the two. -/
theorem Guarded.tokenSpan_valid {c : Cursor} (h : c.Guarded) :
    (c.tokenSpan.start ≤ c.tokenSpan.stop ∧ c.tokenSpan.stop ≤ c.position ∧
      c.position ≤ c.source.size) ∧
    (c.source.IsBoundary c.tokenSpan.start ∧ c.source.IsBoundary c.tokenSpan.stop ∧
      c.source.IsBoundary c.position ∧ c.source.IsBoundary c.source.size) ∧
    c.tokenSpan.start + c.tokenSpan.length = c.tokenSpan.stop ∧
    ∃ before after, c.source = before ++ (c.slice c.tokenSpan ++ after) ∧
      Text.size before = c.tokenSpan.start ∧
      Text.size before + Text.size (c.slice c.tokenSpan) = c.tokenSpan.stop := by
  have ho := h.ordered
  have hposition := ho.placed.boundary_position
  refine ⟨⟨ho.start_le_stop, ho.stop_le_position, hposition.le_size⟩,
    ⟨ho.boundary_start, ho.boundary_stop, hposition, isBoundary_size _⟩, ?_, ?_⟩
  · exact Nat.add_sub_cancel' ho.start_le_stop
  · have hslice :
        c.source.slice? c.tokenSpan.start c.tokenSpan.stop = some (c.slice c.tokenSpan) := by
      have hvalid : c.tokenSpan.start ≤ c.tokenSpan.stop ∧ c.source.IsBoundary c.tokenSpan.start ∧
          c.source.IsBoundary c.tokenSpan.stop :=
        ⟨ho.start_le_stop, ho.boundary_start, ho.boundary_stop⟩
      rw [slice, Text.slice?, if_pos hvalid]
      rfl
    exact Text.slice?_eq_some_iff.1 hslice

/-- A mark at the start, an advance over `a`, skipped whitespace and a scan that ends after `é`. -/
theorem Guarded.tokenSpan_valid_value :
    let c₁ := (Action.scan (.ofKind .noWhitespace)).act (Cursor.atOffset ['a', ' ', 'é', ';'] 0)
    let c₂ := Action.skipWhiteSpace.act ((Action.move .advance).act c₁)
    let c := (Action.scan (.ofKind .applyValue)).act c₂
    c.Guarded ∧ c.tokenSpan = ⟨0, 4⟩ ∧ c.slice c.tokenSpan = ['a', ' ', 'é'] ∧
      c.tokenSpan.start ≤ c.tokenSpan.stop ∧ c.tokenSpan.stop ≤ c.position := by
  intro c₁ c₂ c
  have h₁ : c₁.Guarded := (Guarded.atOffset _ 0).act _ trivial
  have h₂ : c₂.Guarded := (h₁.act (.move .advance) trivial).act .skipWhiteSpace (.inr rfl)
  have h : c.Guarded := h₂.act _ trivial
  obtain ⟨⟨hstart, hstop, -⟩, -⟩ := h.tokenSpan_valid
  exact ⟨h, by decide +kernel, by decide +kernel, hstart, hstop⟩

/-- Skipping past an early mark is what the guards exclude. -/
example :
    let c := (Cursor.atOffset [' '] 0).move .markEnd
    ¬ c.Permits .skip ∧ (c.move .skip).tokenSpan = ⟨1, 0⟩ := by
  decide

end ScssTokens.Cursor

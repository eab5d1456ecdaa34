import ScssTokens.Proofs.Decision.Shape
import ScssTokens.Scan

/-!
# The extent of a token

A scan of a text finds the token of a decision at the offsets that the decision's moves reach.
Where the token lies is therefore known from two counts of characters, and two decisions with the
same kind and the same counts find the same token. Nothing but the whitespace ahead lies before the
start, so a scan comes down to what the rules past the whitespace find.

## Main definitions

* `Decision.extent` — the kind of a decision's token with its two counts.
* `Decision.found` — the kind of its token with the characters, for a decision past the whitespace.
* `Token.past`, `Token.spelled` — the token of an extent, or of some characters, in a text.
* `Candidates.IgnoresSpace` — the sets for which it does not matter whether whitespace is ahead.

## Main statements

* `scanAt_eq_extent` — a scan of a text by the extent of its decision.
* `Decision.extent_of_not_space` — a mark after the whitespace leaves the extent of a later token
  alone.
* `scanAt_append_eq_some_iff` — a scan finds what the rules past some whitespace find.
-/

namespace ScssTokens

/-- The token past a place of a text, from a kind and the counts of characters before its start and
before its end. -/
def Token.past (base : Nat) (text : Text) (e : Kind × Nat × Nat) : Token :=
  ⟨e.1, base + Text.size (text.take e.2.1), base + Text.size (text.take e.2.2)⟩

/-- The token past a text, from its kind and its characters. -/
def Token.spelled (before : Text) (e : Kind × Text) : Token :=
  ⟨e.1, Text.size before, Text.size (before ++ e.2)⟩

/-- Neither of the candidates that ask whether whitespace stands ahead is in the set. -/
def Candidates.IgnoresSpace (V : Candidates) : Prop :=
  V.accepts .noWhitespace = false ∧ V.accepts .descendantCombinator = false

namespace Decision

/-- The kind of a decision's token, with the counts of characters before its start and its end. -/
def extent (d : Decision) : Option (Kind × Nat × Nat) :=
  d.kind.map fun k => (k, Move.lead d.moves, (Move.lastMark d.moves).getD (Move.steps d.moves))

/-- The kind of the token that a decision past some whitespace finds in the text there, with the
characters of the token. -/
def found (d : Decision) (body : Text) : Option (Kind × Text) :=
  d.kind.map fun k => (k, body.take ((Move.lastMark d.moves).getD 0))

@[simp] theorem found_decline (body : Text) : decline.found body = none := rfl

@[simp] theorem found_after_decline (ms : List Move) (body : Text) :
    (after ms decline).found body = none := rfl

@[simp] theorem found_accept (k : Kind) (body : Text) : (accept k).found body = some (k, []) := rfl

@[simp] theorem extent_decline : decline.extent = none := rfl

theorem extent_eq_none_iff {d : Decision} : d.extent = none ↔ d.kind = none :=
  Option.map_eq_none_iff

/-- The end in the extent of a token is the last mark. -/
theorem of_extent_ofCells {V : Candidates} {cells : List Cell} {k : Kind} {start stop : Nat}
    (h : (ofCells V cells).extent = some (k, start, stop)) :
    (ofCells V cells).kind = some k ∧ Move.lead (ofCells V cells).moves = start ∧
      Move.lastMark (ofCells V cells).moves = some stop := by
  obtain ⟨j, hj, he⟩ := Option.map_eq_some_iff.1 h
  obtain ⟨rfl, rfl, rfl⟩ : j = k ∧ _ = start ∧ _ = stop := by simpa using he
  obtain ⟨n, hn⟩ := Option.isSome_iff_exists.1
    (Move.isSome_lastMark.2 (marked_ofCells (Option.isSome_of_eq_some hj)))
  exact ⟨hj, rfl, by rw [hn, Option.getD_some]⟩

/-- Where the absence of whitespace is no token, the rules past the whitespace decide on the
extent. -/
theorem extent_ofCells {V : Candidates} {cells : List Cell} (hr : V.inRecovery = false)
    (hn : cells.takeWhile Cell.isWhiteSpace = [] → V.accepts .noWhitespace = false) :
    let space := cells.takeWhile Cell.isWhiteSpace
    let spaced := !space.isEmpty && V.accepts .descendantCombinator
    let d := ofBody V spaced (cells.drop space.length)
    (ofCells V cells).extent =
      d.kind.map fun k => (k, space.length, space.length + (Move.lastMark d.moves).getD 0) := by
  intro space spaced d
  have hcells : ofCells V cells = after (overSpace spaced space) d := ofCells_of_ahead hr hn
  have hlead := lead_ofCells V cells
  rw [hr, if_neg Bool.false_ne_true] at hlead
  cases hk : d.kind with
  | none => simp [hcells, extent, hk]
  | some k =>
    have hsome : (ofCells V cells).kind = some k := by rw [hcells, kind_after, hk]
    have hmarked := marked_ofCells (Option.isSome_of_eq_some hsome)
    rw [extent, hsome, hlead]
    rw [hcells] at hmarked ⊢
    rw [lastMark_after_overSpace hmarked]
    rfl

/-- Where the rule for whitespace does not apply, the later rules decide on the extent. -/
theorem extent_of_not_space {V : Candidates} {cells : List Cell} (hr : V.inRecovery = false)
    (hn : cells.takeWhile Cell.isWhiteSpace = [] → V.accepts .noWhitespace = false)
    (hs : given (!(cells.takeWhile Cell.isWhiteSpace).isEmpty && V.accepts .descendantCombinator)
      ofSpace? (cells.drop (cells.takeWhile Cell.isWhiteSpace).length) = none) :
    (ofCells V cells).extent =
      let n := (cells.takeWhile Cell.isWhiteSpace).length
      let d := (ofInk V (cells.drop n)).getD decline
      d.kind.map fun k => (k, n, n + (Move.lastMark d.moves).getD 0) := by
  rw [extent_ofCells hr hn, ofBody_of_not_space hs]

/-- Where no candidate asks for whitespace, the rules past it decide on the extent. -/
theorem extent_of_ignoresSpace {V : Candidates} (hr : V.inRecovery = false) (hV : V.IgnoresSpace)
    (cells : List Cell) :
    (ofCells V cells).extent =
      let n := (cells.takeWhile Cell.isWhiteSpace).length
      let d := (ofInk V (cells.drop n)).getD decline
      d.kind.map fun k => (k, n, n + (Move.lastMark d.moves).getD 0) :=
  extent_of_not_space hr (fun _ => hV.1) (by simp [hV.2])

end Decision

/-- A scan of a text finds the token that the decision for the text ahead is about. -/
theorem scanAt_eq_extent (source : Text) (offset : Nat) (V : Candidates) :
    scanAt source offset V =
      (Decision.ofCells V (Cell.ofText (Column.ofText (source.takeBytes offset))
        (source.dropBytes offset))).extent.map
        (Token.past (Text.size (source.takeBytes offset)) (source.dropBytes offset)) := by
  rw [Decision.extent, Option.map_map, scanAt]
  simp only [CharStream.scan, Cursor.tokenSpan_run_atOffset]
  rfl

/-- A scan of a text past another finds the token that the decision there is about. -/
theorem scanAt_append_eq_extent (before text : Text) (V : Candidates) :
    scanAt (before ++ text) before.size V =
      (Decision.ofCells V (Cell.ofText (Column.ofText before) text)).extent.map
        (Token.past before.size text) := by
  rw [scanAt_eq_extent, Text.takeBytes_size_append, Text.dropBytes_size_append]

/-- A scan of a text past another reads the whitespace there, and the rules past the whitespace say
what it finds. -/
theorem scanAt_append_eq_found {V : Candidates} (hr : V.inRecovery = false) (before : Text)
    {space body : Text} (hblank : ∀ c ∈ space, Unicode.isWhiteSpace c)
    (hink : body.head?.any Unicode.isWhiteSpace = false)
    (hn : space = [] → V.accepts .noWhitespace = false) :
    let spaced := !space.isEmpty && V.accepts .descendantCombinator
    let past := before ++ space
    scanAt (before ++ (space ++ body)) before.size V =
      ((Decision.ofBody V spaced (Cell.ofText (Column.ofText past) body)).found body).map
        (Token.spelled past) := by
  intro spaced past
  let cells := Cell.ofText (Column.ofText before) (space ++ body)
  have hlength : (cells.takeWhile Cell.isWhiteSpace).length = space.length := by
    rw [← takeWhile_append_of_stop hblank hink]
    exact Cell.length_takeWhile_ofText Unicode.isWhiteSpace _ _
  have hempty : (cells.takeWhile Cell.isWhiteSpace).isEmpty = space.isEmpty := by
    rw [Bool.eq_iff_iff, List.isEmpty_iff_length_eq_zero, hlength, List.isEmpty_iff_length_eq_zero]
  have hbody : cells.drop space.length = Cell.ofText (Column.ofText past) body := by
    rw [← hlength, drop_length_takeWhile, Cell.dropWhile_isWhiteSpace_ofText,
      takeWhile_append_of_stop hblank hink, dropWhile_append_of_stop hblank hink,
      Column.ofText_append]
  have hnone : cells.takeWhile Cell.isWhiteSpace = [] → V.accepts .noWhitespace = false :=
    fun h => hn (List.isEmpty_iff.1 (hempty ▸ List.isEmpty_iff.2 h))
  have hpast (k : Kind) (n : Nat) :
      Token.past before.size (space ++ body) (k, space.length, space.length + n) =
        Token.spelled past (k, body.take n) := by
    simp [Token.past, Token.spelled, past, List.take_length_add_append]
  rw [scanAt_append_eq_extent, Decision.extent_ofCells hr hnone, hlength, hbody, hempty,
    Decision.found, Option.map_map, Option.map_map]
  exact congrArg (Option.map · _) (funext fun k => hpast k _)

/-- Where no candidate asks for whitespace, the rules past it say what a scan finds however much of
it is ahead. -/
theorem scanAt_append_of_ignoresSpace {V : Candidates} (hr : V.inRecovery = false)
    (hV : V.IgnoresSpace) (before : Text) {space body : Text}
    (hblank : ∀ c ∈ space, Unicode.isWhiteSpace c)
    (hink : body.head?.any Unicode.isWhiteSpace = false) :
    let past := before ++ space
    scanAt (before ++ (space ++ body)) before.size V =
      ((Decision.ofBody V false (Cell.ofText (Column.ofText past) body)).found body).map
        (Token.spelled past) := by
  rw [scanAt_append_eq_found hr before hblank hink fun _ => hV.1, hV.2, Bool.and_false]

/-- A scan of a text past another finds a token where the text divides into whitespace and a body in
which the rules past the whitespace find it. -/
theorem scanAt_append_eq_some_iff {V : Candidates} (hr : V.inRecovery = false)
    (hn : V.accepts .noWhitespace = false) {before text : Text} {t : Token} :
    scanAt (before ++ text) before.size V = some t ↔
      ∃ space body e, text = space ++ body ∧ (∀ c ∈ space, Unicode.isWhiteSpace c) ∧
        body.head?.any Unicode.isWhiteSpace = false ∧
        (Decision.ofBody V (!space.isEmpty && V.accepts .descendantCombinator)
          (Cell.ofText (Column.ofText (before ++ space)) body)).found body = some e ∧
        t = Token.spelled (before ++ space) e := by
  constructor
  · intro h
    have hblank : ∀ c ∈ text.takeWhile Unicode.isWhiteSpace, Unicode.isWhiteSpace c :=
      List.all_eq_true.1 List.all_takeWhile
    have hink := any_head?_dropWhile Unicode.isWhiteSpace text
    have htext := (List.takeWhile_append_dropWhile (p := Unicode.isWhiteSpace) (l := text)).symm
    rw [htext, scanAt_append_eq_found hr before hblank hink fun _ => hn] at h
    obtain ⟨e, he, ht⟩ := Option.map_eq_some_iff.1 h
    exact ⟨_, _, e, htext, hblank, hink, he, ht.symm⟩
  · rintro ⟨space, body, e, rfl, hblank, hink, he, rfl⟩
    rw [scanAt_append_eq_found hr before hblank hink fun _ => hn, he]
    rfl

theorem accepts_of_scanAt {source : Text} {offset : Nat} {V : Candidates} {t : Token}
    (h : scanAt source offset V = some t) : V.accepts t.kind := by
  obtain ⟨k, hk, rfl⟩ := Option.map_eq_some_iff.1 h
  exact Decision.accepts_of_kind_ofCells hk

end ScssTokens

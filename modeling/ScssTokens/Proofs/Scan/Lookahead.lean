import ScssTokens.Proofs.Decision.Anatomy
import ScssTokens.Proofs.Scan.Priority
import ScssTokens.Proofs.Segment.End

/-!
# What is looked at beyond a token

A scan that finds a token may stand further on than the token ends. What lies between was looked at
only, and the anatomy of the token says what it is: nothing for a value and where no whitespace is,
nothing before the first character of a selector, the text up to the brace of a block for a colon
and for whitespace before one, the dots after the name of a variable, the `#` of an interpolation
after a segment.

```text
  before   space [ lexeme ] look   rest
                          |        |
                      last mark    position
```

The anatomy speaks of the token's own characters as well, so a last mark in another place would not
fit it. A segment may hold quotes that are escaped; its end is the first place at which one may end.

## Main statements

* `Decision.isSegmentEnd_of_extent` — a segment that any candidates find ends at the first end.
* `scan_lookahead` — the parts of the text around a token up to where its scan stands.
-/

namespace ScssTokens

open Decision

/-! ## Segments -/

/-- A group that has a kind of segment has nothing else. -/
theorem Candidates.eq_ofKind_of_responsible {V G : Candidates} {text : Text} {q : Quote}
    (hG : G ∈ V.responsible text) (hq : G.accepts q.segmentKind) : G = .ofKind q.segmentKind := by
  have hvariable : (V ∩ anyVariable).accepts q.segmentKind = false := by
    cases q <;> simp [Quote.segmentKind]
  have hkind (k : Kind) (hk : (ofKind k).accepts q.segmentKind) :
      ofKind k = ofKind q.segmentKind := by
    have heq : k = q.segmentKind := by simpa using hk
    rw [heq]
  grind [responsible]

/-- A segment ends at the first place from its start on at which one may end, whatever the other
candidates were. -/
theorem Decision.isSegmentEnd_of_extent {V : Candidates} {q : Quote} {k : Column} {t : Text}
    {start stop : Nat}
    (h : (ofCells V (Cell.ofText k t)).extent = some (q.segmentKind, start, stop)) :
    IsSegmentEnd q (Cell.ofText k t) start stop := by
  obtain ⟨G, hG, hq, hextent⟩ := exists_responsible h
  rw [Candidates.eq_ofKind_of_responsible hG hq, extent_ofCells_segment] at hextent
  obtain ⟨hsegment, hparts⟩ := Option.ite_none_right_eq_some.1 hextent
  obtain ⟨rfl, rfl⟩ : _ = start ∧ _ = stop := by simpa using hparts
  obtain ⟨e, hend, -⟩ := isSegment_drop_iff.1 hsegment
  rwa [(isSegmentEnd_iff.1 hend).1]

/-! ## Scans -/

/-- The moves of a decision for a token, made past a text, leave a cursor where the decision's parts
say. -/
theorem Cursor.run_of_dissects (before : Text) {text : Text} {d : Decision} {k : Kind}
    {space lexeme look rest : Text} (h : d.Dissects text k space lexeme look rest) :
    let cursor := CharStream.run d.moves (Cursor.atOffset (before ++ text) before.size)
    cursor.rest = rest ∧
      cursor.tokenSpan = ⟨(before ++ space).size, (before ++ space ++ lexeme).size⟩ ∧
      cursor.position = (before ++ space ++ lexeme ++ look).size := by
  have hrest : (Cursor.atOffset (before ++ text) before.size).rest = text :=
    Text.dropBytes_size_append before text
  have hposition : (Cursor.atOffset (before ++ text) before.size).position = before.size :=
    congrArg Text.size (Text.takeBytes_size_append before text)
  refine ⟨?_, ?_, ?_⟩
  · rw [rest_run, hrest, h.drop_steps]
  · rw [tokenSpan_run_atOffset, Text.takeBytes_size_append, Text.dropBytes_size_append,
      h.take_lead, h.take_lastMark, List.append_assoc, Text.size_append before space,
      Text.size_append before (space ++ lexeme)]
  · rw [position_run, hposition, hrest, h.take_steps, ← Text.size_append, List.append_assoc,
      List.append_assoc, List.append_assoc]

/-- Where a scan finds a token, the text ahead of it divides into the whitespace there, the token,
what was looked at beyond it and the rest where the scan stands. What the token and the two parts
after it are made of depends on its kind, and a segment ends at the first place at which it may. -/
theorem scan_lookahead (before text : Text) (V : Candidates) (k : Kind)
    (h : (CharStream.scan V (Cursor.atOffset (before ++ text) before.size)).1 = some k) :
    let cursor := (CharStream.scan V (Cursor.atOffset (before ++ text) before.size)).2
    ∃ space lexeme look, text = space ++ (lexeme ++ (look ++ cursor.rest)) ∧
      cursor.tokenSpan = ⟨(before ++ space).size, (before ++ space ++ lexeme).size⟩ ∧
      cursor.position = (before ++ space ++ lexeme ++ look).size ∧
      space = text.takeWhile Unicode.isWhiteSpace ∧ k.Anatomy space lexeme look cursor.rest ∧
      ∀ q : Quote, k = q.segmentKind →
        IsSegmentEnd q (Cell.ofText (Column.ofText before) text) space.length
          (space ++ lexeme).length := by
  intro cursor
  have hahead : CharStream.ahead (Cursor.atOffset (before ++ text) before.size) =
      Cell.ofText (Column.ofText before) text := by
    simp [Cursor.atOffset]
  have hcursor : cursor = CharStream.run (ofCells V (Cell.ofText (Column.ofText before) text)).moves
      (Cursor.atOffset (before ++ text) before.size) := by
    rw [← hahead]
    rfl
  have hkind : (ofCells V (Cell.ofText (Column.ofText before) text)).kind = some k := by
    rw [← hahead]
    exact h
  obtain ⟨space, lexeme, look, rest, hd⟩ := exists_dissects hkind
  rw [Cell.map_char_ofText] at hd
  obtain ⟨hrest, hspan, hposition⟩ := Cursor.run_of_dissects before hd
  rw [← hcursor] at hrest hspan hposition
  refine ⟨space, lexeme, look, ?_, hspan, hposition, ?_, ?_, ?_⟩
  · rw [hrest]
    exact hd.text_eq
  · rw [hd.text_eq, takeWhile_append_of_stop hd.blank hd.ink]
  · rw [hrest]
    exact hd.anatomy
  · rintro q rfl
    have hextent : (ofCells V (Cell.ofText (Column.ofText before) text)).extent =
        some (q.segmentKind, space.length, (space ++ lexeme).length) := by
      rw [extent, hkind, hd.lead, hd.lastMark, List.length_append]
      rfl
    exact isSegmentEnd_of_extent hextent

/-- The scan for a segment with an escaped quote stands past the `#` of the interpolation. -/
theorem scan_lookahead_interpolation :
    let source : Text := ['\'', 'é', '\\', '\'', '#', '{']
    let r := CharStream.scan (.ofKind .singleQuotedSegment) (Cursor.atOffset source 1)
    r.1 = some .singleQuotedSegment ∧ r.2.tokenSpan = ⟨1, 5⟩ ∧ r.2.position = 6 ∧
      ∃ lexeme look, Kind.Anatomy .singleQuotedSegment [] lexeme look r.2.rest ∧
        lexeme = ['é', '\\', '\''] ∧ look = ['#'] ∧
        IsSegmentEnd .single (Cell.ofText 1 ['é', '\\', '\'', '#', '{']) 0 lexeme.length := by
  intro source r
  have hkind : r.1 = some .singleQuotedSegment := by decide +kernel
  have hspan : r.2.tokenSpan = ⟨1, 5⟩ := by decide +kernel
  have hposition : r.2.position = 6 := by decide +kernel
  have hrest : r.2.rest = ['{'] := by decide +kernel
  obtain ⟨space, lexeme, look, htext, -, -, hspace, hanatomy, hend⟩ :=
    scan_lookahead ['\''] ['é', '\\', '\'', '#', '{'] _ _ hkind
  obtain rfl : space = [] := hspace.trans (by decide)
  obtain rfl : look = ['#'] := by
    obtain ⟨-, ⟨-, hquote⟩ | ⟨hhash, -⟩⟩ := hanatomy
    · exact absurd (hquote.symm.trans (congrArg List.head? hrest)) (by decide)
    · exact hhash
  have hlexeme : lexeme = ['é', '\\', '\''] := by
    have hparts : lexeme ++ (['#'] ++ r.2.rest) = ['é', '\\', '\''] ++ ['#', '{'] := htext.symm
    rw [hrest] at hparts
    exact List.append_cancel_right hparts
  exact ⟨hkind, hspan, hposition, lexeme, ['#'], hanatomy, hlexeme, rfl, hend .single rfl⟩

end ScssTokens

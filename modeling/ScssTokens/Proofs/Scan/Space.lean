import ScssTokens.Proofs.Scan.Extent

/-!
# The whitespace before a token

A decision depends on whitespace ahead in two ways only: whether there is any, which the marker for
its absence and the rule for whitespace want to know, and what comes past it. Taking some of the
whitespace away from the front leaves the rest of the decision as it is, as long as some is left or
neither of the two rules is asked. So a token is found at the same place of a text from everywhere
in the whitespace before it.

## Main statements

* `Decision.ofCells_space_append` — a decision past some of the whitespace ahead.
* `scanAt_space_append` — the same token from both ends of some whitespace.
* `scanAt_within_space` — the same token from all places in a run of whitespace.
-/

namespace ScssTokens

/-- A boundary within a part of a text cuts that part in two. -/
theorem Text.exists_append_of_isBoundary {l m r : Text} {q : Nat}
    (hq : (l ++ (m ++ r)).IsBoundary q) (hl : l.size ≤ q) (hm : q ≤ (l ++ m).size) :
    ∃ u v, m = u ++ v ∧ (l ++ u).size = q := by
  obtain ⟨l', r', e, rfl⟩ := isBoundary_iff.1 hq
  obtain ⟨u, rfl, hu⟩ | ⟨u, rfl, -⟩ := List.append_eq_append_iff.1 e
  · obtain ⟨v, rfl, -⟩ | ⟨v, rfl, -⟩ := List.append_eq_append_iff.1 hu
    · have hv : size v = 0 := by
        simp only [size_append] at hm
        omega
      exact ⟨m, [], by simp, by simp [hv]⟩
    · exact ⟨u, v, rfl, rfl⟩
  · have hu : size u = 0 := by
      simp only [size_append] at hl
      omega
    exact ⟨[], m, rfl, by simp [hu]⟩

namespace Decision

/-- A decision before some whitespace skips it and goes on as a decision past it, if whitespace is
left there or does not matter. -/
theorem ofCells_space_append {V : Candidates} {space cells : List Cell}
    (hr : V.inRecovery = false) (hblank : ∀ c ∈ space, c.isWhiteSpace)
    (h : cells.takeWhile Cell.isWhiteSpace ≠ [] ∨ V.IgnoresSpace) :
    ofCells V (space ++ cells) = after (List.replicate space.length .skip) (ofCells V cells) := by
  have hspace : (space ++ cells).takeWhile Cell.isWhiteSpace =
      space ++ cells.takeWhile Cell.isWhiteSpace :=
    List.takeWhile_append_of_pos hblank
  have hn : cells.takeWhile Cell.isWhiteSpace = [] → V.accepts .noWhitespace = false := by
    intro hnil
    exact (h.resolve_left (absurd hnil)).1
  have hn' : (space ++ cells).takeWhile Cell.isWhiteSpace = [] →
      V.accepts .noWhitespace = false := by
    intro hnil
    rw [hspace, List.append_eq_nil_iff] at hnil
    exact hn hnil.2
  -- the rule for whitespace is asked on both sides or on neither
  have hspaced : (!(space ++ cells.takeWhile Cell.isWhiteSpace).isEmpty &&
        V.accepts .descendantCombinator) =
      (!(cells.takeWhile Cell.isWhiteSpace).isEmpty && V.accepts .descendantCombinator) := by
    obtain h | h := h
    · have hne : space ++ cells.takeWhile Cell.isWhiteSpace ≠ [] :=
        List.append_ne_nil_of_right_ne_nil space h
      rw [List.isEmpty_eq_false_iff.2 h, List.isEmpty_eq_false_iff.2 hne]
    · simp [h.2]
  rw [ofCells_of_ahead hr hn, ofCells_of_ahead hr hn', hspace]
  dsimp only
  rw [hspaced, List.length_append, ← List.drop_drop, List.drop_left]
  simp [after, overSpace, ← List.replicate_append_replicate]

theorem extent_after_skips (n : Nat) (d : Decision) :
    (after (List.replicate n .skip) d).extent =
      d.extent.map fun e => (e.1, n + e.2.1, n + e.2.2) := by
  cases hm : Move.lastMark d.moves <;>
    simp [extent, Move.lead_skips_append, Move.lastMark_append, hm, Function.comp_def]

end Decision

/-- A token lies at the same place if its extent is counted from further on. -/
theorem Token.past_append (base : Nat) (l text : Text) (k : Kind) (m n : Nat) :
    Token.past base (l ++ text) (k, l.length + m, l.length + n) =
      Token.past (base + l.size) text (k, m, n) := by
  simp [Token.past, List.take_length_add_append, Nat.add_assoc]

/-- The same token is found from both ends of some whitespace, if whitespace comes after it or does
not matter. -/
theorem scanAt_space_append (before text : Text) {space : Text} {V : Candidates}
    (hblank : ∀ c ∈ space, Unicode.isWhiteSpace c)
    (h : text.head?.any Unicode.isWhiteSpace ∨ V.IgnoresSpace) :
    scanAt (before ++ (space ++ text)) before.size V =
      scanAt (before ++ (space ++ text)) (before ++ space).size V := by
  have hcells : (Cell.ofText (Column.ofText (before ++ space)) text).takeWhile
      Cell.isWhiteSpace ≠ [] ∨ V.IgnoresSpace := by
    refine h.imp_left fun hspace hnil => ?_
    rw [Cell.takeWhile_isWhiteSpace_eq_nil, hspace] at hnil
    cases hnil
  have hspace : ∀ c ∈ Cell.ofText (Column.ofText before) space, c.isWhiteSpace := by
    intro c hc
    exact hblank c.char (Cell.map_char_ofText (Column.ofText before) space ▸ List.mem_map_of_mem hc)
  have hextent : (Decision.ofCells V (Cell.ofText (Column.ofText before) (space ++ text))).extent =
      (Decision.ofCells V (Cell.ofText (Column.ofText (before ++ space)) text)).extent.map
        fun e => (e.1, space.length + e.2.1, space.length + e.2.2) := by
    cases hr : V.inRecovery with
    | true => simp [Decision.ofCells_of_recovery hr]
    | false =>
      rw [Cell.ofText_append, ← Column.ofText_append,
        Decision.ofCells_space_append hr hspace hcells, Decision.extent_after_skips,
        Cell.length_ofText]
  calc scanAt (before ++ (space ++ text)) before.size V
      = (Decision.ofCells V (Cell.ofText (Column.ofText before) (space ++ text))).extent.map
          (Token.past before.size (space ++ text)) := scanAt_append_eq_extent _ _ _
    _ = (Decision.ofCells V (Cell.ofText (Column.ofText (before ++ space)) text)).extent.map
          (Token.past (before ++ space).size text) := by
        rw [hextent, Option.map_map, Text.size_append]
        congr 1
        funext e
        exact Token.past_append _ _ _ _ _ _
    _ = scanAt (before ++ space ++ text) (before ++ space).size V :=
        (scanAt_append_eq_extent _ _ _).symm
    _ = scanAt (before ++ (space ++ text)) (before ++ space).size V := by rw [List.append_assoc]

/-- The same token is found from all places in a run of whitespace, whether or not the run ends
there, and from its end too unless it matters whether whitespace stands ahead. -/
theorem scanAt_within_space {source space : Text} {p q stop : Nat} (hpq : p < q) (hq : q < stop)
    (hboundary : source.IsBoundary q) (hspace : source.slice? p stop = some space)
    (hblank : ∀ c ∈ space, Unicode.isWhiteSpace c) (V : Candidates) :
    scanAt source p V = scanAt source q V ∧
      (V.IgnoresSpace → scanAt source q V = scanAt source stop V) := by
  obtain ⟨before, after, hsource, rfl, rfl⟩ := Text.slice?_eq_some_iff.1 hspace
  obtain ⟨u, v, rfl, rfl⟩ := Text.exists_append_of_isBoundary (hsource ▸ hboundary)
    (Nat.le_of_lt hpq) (by simpa using Nat.le_of_lt hq)
  obtain ⟨hu, hv⟩ := List.forall_mem_append.1 hblank
  have hne : v ≠ [] := by
    rintro rfl
    simp at hq
  have hhead : (v ++ after).head?.any Unicode.isWhiteSpace := by
    obtain ⟨c, v, rfl⟩ := List.exists_cons_of_ne_nil hne
    simpa using hv c List.mem_cons_self
  have hstart := scanAt_space_append before (v ++ after) hu (V := V) (.inl hhead)
  refine ⟨?_, fun hV => ?_⟩
  · simpa [hsource] using hstart
  · have hstop := scanAt_space_append (before ++ u) after hv (.inr hV)
    simpa [hsource, Nat.add_assoc] using hstop

/-- The combinator before `b` lies at the end of the whitespace, over a line end too, and with no
candidate for whitespace a value is found from its own place as well. -/
theorem scanAt_within_space_selector :
    let source : Text := [' ', '\n', ' ', 'b', ';']
    source.IsBoundary 2 ∧ source.slice? 1 3 = some ['\n', ' '] ∧
      scanAt source 1 (.ofKind .descendantCombinator) = some ⟨.descendantCombinator, 3, 3⟩ ∧
      scanAt source 2 (.ofKind .descendantCombinator) = some ⟨.descendantCombinator, 3, 3⟩ ∧
      scanAt source 2 (.ofKind .applyValue) = some ⟨.applyValue, 3, 4⟩ ∧
      scanAt source 3 (.ofKind .applyValue) = some ⟨.applyValue, 3, 4⟩ := by
  intro source
  have hboundary : source.IsBoundary 2 := by decide
  have hspace : source.slice? 1 3 = some ['\n', ' '] := by decide
  have hblank : ∀ c ∈ ['\n', ' '], Unicode.isWhiteSpace c := List.all_eq_true.1 rfl
  have hsame := scanAt_within_space (by decide : 1 < 2) (by decide : 2 < 3) hboundary hspace hblank
  have hfirst : scanAt source 1 (.ofKind .descendantCombinator) =
      some ⟨.descendantCombinator, 3, 3⟩ := by decide +kernel
  have hlast : scanAt source 3 (.ofKind .applyValue) = some ⟨.applyValue, 3, 4⟩ := by decide
  refine ⟨hboundary, hspace, hfirst, (hsame _).1.symm.trans hfirst, ?_, hlast⟩
  exact ((hsame _).2 ⟨rfl, rfl⟩).trans hlast

end ScssTokens

import ScssTokens.Proofs.Decision.Anatomy
import ScssTokens.Proofs.Decision.OnePass
import ScssTokens.Proofs.Scan.Effect

/-!
# Scans and the text they read

A scan reads the text up to the character ahead of which it stops, and that character too. A host
that edits the text further on need not scan again, since the outcome is the same over every text
with the same characters up to there. A scan that stops at the end of the text is another matter:
the end is a thing to see.

Most kinds of token are found only by what comes after them, so their scans never stop at the end,
and no text that is added there changes such a token.

## Main definitions

* `Cursor.Agree` — two scans with the same outcome.
* `Kind.Delimited` — the kinds of token that end before a character.

## Main statements

* `Cursor.effect_unread` — the effect of a scan and the text past the character where it stops.
* `scan_prefix` — scans of two texts that agree up to the character where the first scan stops.
-/

namespace ScssTokens

namespace Cursor

open CharStream

/-- What a scan does is known from the text up to the character where it stops. -/
theorem effect_unread {V : Candidates} {k : Column} {text post : Text} {ch : Char}
    (h : Move.steps (Decision.ofCells V (Cell.ofText k (text ++ ch :: post))).moves = text.length)
    (post' : Text) : effect V (text ++ ch :: post') k = effect V (text ++ ch :: post) k := by
  have hd : Decision.ofCells V (Cell.ofText k (text ++ ch :: post')) =
      Decision.ofCells V (Cell.ofText k (text ++ ch :: post)) := by
    rw [Cell.ofText_append, Cell.ofText_cons] at h ⊢
    rw [Cell.ofText_append, Cell.ofText_cons]
    exact (Decision.onePass_ofCells V).unread _ _ _ _ (by rw [h, Cell.length_ofText])
  have htake : ∀ n ≤ text.length, (text ++ ch :: post').take n = (text ++ ch :: post).take n := by
    intro n hn
    rw [List.take_append_of_le_length hn, List.take_append_of_le_length hn]
  have hsteps := htake _ (Nat.le_of_eq h)
  have hlead := htake _ (h ▸ Move.lead_le_steps _)
  have hmark : ∀ n ∈ Move.lastMark (Decision.ofCells V (Cell.ofText k (text ++ ch :: post))).moves,
      Text.size ((text ++ ch :: post').take n) = Text.size ((text ++ ch :: post).take n) := by
    intro n hn
    rw [htake n (h ▸ Move.le_steps_of_lastMark hn)]
  rw [effect, effect, hd]
  rw [hsteps, hlead, Option.map_congr hmark]

/-- Two scans have the same outcome: the kind found, the place reached and the token so far. -/
structure Agree (r r' : Option Kind × Cursor) : Prop where
  kind : r'.1 = r.1
  position : r'.2.position = r.2.position
  column : r'.2.column = r.2.column
  tokenStart : r'.2.tokenStart = r.2.tokenStart
  mark : r'.2.mark = r.2.mark

theorem Agree.tokenSpan {r r' : Option Kind × Cursor} (h : Agree r r') :
    r'.2.tokenSpan = r.2.tokenSpan := by
  rw [Cursor.tokenSpan, Cursor.tokenSpan, h.tokenStart, h.mark, h.position]

/-- Over two texts that differ past the character where the scan of the first stops, the outcome is
the same. -/
theorem agree_of_rest {V : Candidates} {before text post : Text} {ch : Char}
    (h : (scan V (atOffset (before ++ (text ++ ch :: post)) before.size)).2.rest = ch :: post)
    (post' : Text) :
    Agree (scan V (atOffset (before ++ (text ++ ch :: post)) before.size))
      (scan V (atOffset (before ++ (text ++ ch :: post')) before.size)) := by
  have hfresh (u : Text) : atOffset (before ++ u) before.size =
      { source := before ++ u, rest := u, position := before.size, column := Column.ofText before,
        tokenStart := before.size, mark := none, begun := false } := by
    simp [atOffset]
  have hscan (u : Text) := scan_eq_on (aligned_atOffset (before ++ u) before.size) V
  have hsteps : Move.steps (Decision.ofCells V
      (Cell.ofText (Column.ofText before) (text ++ ch :: post))).moves = text.length := by
    have hrest : (text ++ ch :: post).drop (Move.steps (Decision.ofCells V
        (Cell.ofText (Column.ofText before) (text ++ ch :: post))).moves) = ch :: post := by
      rw [hfresh] at h
      exact (rest_run _ _).symm.trans h
    have hlength := congrArg List.length hrest
    rw [List.length_drop, List.length_append, List.length_cons] at hlength
    omega
  rw [hscan, hscan, hfresh, hfresh, effect_unread hsteps post']
  exact ⟨rfl, rfl, rfl, rfl, rfl⟩

end Cursor

/-! ## Tokens that end before a character -/

/-- The kinds of token that are found by what comes after them. -/
def Kind.Delimited (k : Kind) : Prop :=
  k = .descendantCombinator ∨ k = .pseudoClassColon ∨ k = .singleQuotedSegment ∨
    k = .doubleQuotedSegment ∨ k = .applyValue

theorem Quote.Closes.rest_ne_nil {q : Quote} {look rest : Text} (h : q.Closes look rest) :
    rest ≠ [] := by
  rintro rfl
  obtain ⟨-, hr⟩ | ⟨-, hr⟩ := h <;> cases hr

theorem BlockAhead.rest_ne_nil {look rest : Text} (h : BlockAhead look rest) : rest ≠ [] := by
  rintro rfl
  cases h.2

/-- The scan for a delimited token does not stop at the end of the text. -/
theorem Kind.Anatomy.rest_ne_nil {k : Kind} {space lexeme look rest : Text}
    (h : k.Anatomy space lexeme look rest) (hk : k.Delimited) : rest ≠ [] := by
  obtain rfl | rfl | rfl | rfl | rfl := hk
  · obtain ⟨-, -, ⟨-, hr⟩ | ⟨t, -, hb⟩⟩ := h
    · rintro rfl
      cases hr
    · exact hb.rest_ne_nil
  · obtain ⟨-, -, hb⟩ := h
    exact hb.rest_ne_nil
  · exact Quote.Closes.rest_ne_nil h.2
  · exact Quote.Closes.rest_ne_nil h.2
  · obtain ⟨-, -, -, hr⟩ := h
    rintro rfl
    cases hr

/-- The scan for a delimited token stops before a character. -/
theorem Cursor.rest_scan_ne_nil {c : Cursor} {V : Candidates} {k : Kind}
    (h : (CharStream.scan V c).1 = some k) (hk : k.Delimited) :
    (CharStream.scan V c).2.rest ≠ [] := by
  obtain ⟨space, lexeme, look, rest, hd⟩ := Decision.exists_dissects h
  rw [Cursor.ahead_eq, Cell.map_char_ofText] at hd
  have hrest : (CharStream.scan V c).2.rest = rest := (Cursor.rest_run _ _).trans hd.drop_steps
  rw [hrest]
  exact hd.anatomy.rest_ne_nil hk

/-! ## The text that a scan reads -/

theorem Cursor.Placed.position_lt_iff {c : Cursor} (h : c.Placed) :
    c.position < c.source.size ↔ c.rest ≠ [] := by
  obtain ⟨before, hs, hp, -⟩ := h
  rw [hs, hp, Text.size_append, ne_eq, ← Text.size_eq_zero]
  omega

/-- Where a scan stops before a character, what it read is the text between the offset and there. -/
theorem exists_read {source : Text} {offset : Nat} (hb : source.IsBoundary offset) {V : Candidates}
    {ch : Char} {post : Text}
    (h : (CharStream.scan V (Cursor.atOffset source offset)).2.rest = ch :: post) :
    ∃ before text, source = before ++ (text ++ ch :: post) ∧ before.size = offset ∧
      (CharStream.scan V (Cursor.atOffset source offset)).2.position =
        Text.size (before ++ text) := by
  let n := Move.steps (Decision.ofCells V
    (CharStream.ahead (Cursor.atOffset source offset))).moves
  have hrest : (source.dropBytes offset).drop n = ch :: post := (Cursor.rest_run _ _).symm.trans h
  refine ⟨source.takeBytes offset, (source.dropBytes offset).take n, ?_, hb, ?_⟩
  · rw [← hrest, List.take_append_drop, source.takeBytes_append_dropBytes]
  · rw [Text.size_append]
    exact Cursor.position_run _ _

/-- The end of the character before which a scan stops, and what the text up to there decides. -/
theorem agree_of_takeBytes {source : Text} {offset : Nat} (hb : source.IsBoundary offset)
    {V : Candidates} {ch : Char} {post : Text}
    (h : (CharStream.scan V (Cursor.atOffset source offset)).2.rest = ch :: post) :
    let r := CharStream.scan V (Cursor.atOffset source offset)
    let stop := r.2.position + ch.utf8Size
    source.IsBoundary stop ∧ ∀ source' : Text, source'.takeBytes stop = source.takeBytes stop →
      Cursor.Agree r (CharStream.scan V (Cursor.atOffset source' offset)) := by
  obtain ⟨before, text, hsource, rfl, hposition⟩ := exists_read hb h
  have hsplit : source = before ++ text ++ [ch] ++ post := by simp [hsource]
  have hstop : (CharStream.scan V (Cursor.atOffset source before.size)).2.position + ch.utf8Size =
      Text.size (before ++ text ++ [ch]) := by
    simp [hposition, Nat.add_assoc]
  dsimp only
  rw [hstop]
  refine ⟨Text.isBoundary_iff.2 ⟨_, post, hsplit, rfl⟩, ?_⟩
  intro source' htake
  have hread : source.takeBytes (Text.size (before ++ text ++ [ch])) = before ++ text ++ [ch] := by
    rw [hsplit, Text.takeBytes_size_append]
  have hsource' := source'.takeBytes_append_dropBytes (Text.size (before ++ text ++ [ch]))
  rw [htake, hread] at hsource'
  simp only [List.append_assoc, List.singleton_append] at hsource'
  rw [hsource] at h ⊢
  rw [← hsource']
  exact Cursor.agree_of_rest h _

theorem Cursor.Agree.scanAt_eq {source source' : Text} {offset : Nat} {V : Candidates}
    (h : Cursor.Agree (CharStream.scan V (Cursor.atOffset source offset))
      (CharStream.scan V (Cursor.atOffset source' offset))) :
    scanAt source' offset V = scanAt source offset V := by
  simp only [scanAt, h.kind, h.tokenSpan]

/-- A scan depends on the text up to the character before which it stops. If there is such a
character, every text that is the same up to its end gives the same outcome: the kind or none, the
place reached and the token so far. There is one whenever a delimited token is found, so no text
added at the end changes that token. -/
theorem scan_prefix (source : Text) (offset : Nat) (V : Candidates)
    (hb : source.IsBoundary offset) :
    let r := CharStream.scan V (Cursor.atOffset source offset)
    (r.2.position < source.size → ∃ ch, CharStream.lookahead r.2 = some ch ∧
      source.IsBoundary (r.2.position + ch.utf8Size) ∧ ∀ source' : Text,
        source'.takeBytes (r.2.position + ch.utf8Size) =
            source.takeBytes (r.2.position + ch.utf8Size) →
          Cursor.Agree r (CharStream.scan V (Cursor.atOffset source' offset))) ∧
    ∀ k, r.1 = some k → k.Delimited → r.2.position < source.size ∧
      ∀ more, scanAt (source ++ more) offset V = scanAt source offset V := by
  intro r
  have hplaced : r.2.Placed := (Cursor.placed_atOffset source offset).run _
  have hsource : r.2.source = source := Cursor.source_run _ _
  have hlt := hplaced.position_lt_iff
  rw [hsource] at hlt
  have hchar : r.2.rest ≠ [] → ∃ ch post, r.2.rest = ch :: post := List.exists_cons_of_ne_nil
  refine ⟨?_, ?_⟩
  · intro hposition
    obtain ⟨ch, post, hrest⟩ := hchar (hlt.1 hposition)
    obtain ⟨hstop, hagree⟩ := agree_of_takeBytes hb hrest
    exact ⟨ch, by simp [CharStream.lookahead, hrest], hstop, hagree⟩
  · intro k hkind hk
    have hne := Cursor.rest_scan_ne_nil hkind hk
    refine ⟨hlt.2 hne, ?_⟩
    intro more
    obtain ⟨ch, post, hrest⟩ := hchar hne
    obtain ⟨hstop, hagree⟩ := agree_of_takeBytes hb hrest
    obtain ⟨l, u, rfl, hl⟩ := Text.isBoundary_iff.1 hstop
    refine (hagree (l ++ u ++ more) ?_).scanAt_eq
    rw [← hl, List.append_assoc, Text.takeBytes_size_append, Text.takeBytes_size_append]

/-- A value is the same whatever follows the character that ends it. -/
theorem scan_prefix_value :
    let V := Candidates.ofKind .applyValue
    let source : Text := ['a', ';', 'b']
    let r := CharStream.scan V (Cursor.atOffset source 0)
    source.IsBoundary 0 ∧ r.1 = some .applyValue ∧ r.2.position = 1 ∧
      Cursor.Agree r (CharStream.scan V (Cursor.atOffset ['a', ';'] 0)) ∧
      ∀ more, scanAt (source ++ more) 0 V = some ⟨.applyValue, 0, 1⟩ := by
  intro V source r
  have hb : source.IsBoundary 0 := by decide
  have hkind : r.1 = some .applyValue := by decide +kernel
  have hposition : r.2.position = 1 := by decide +kernel
  obtain ⟨hsame, hdelimited⟩ := scan_prefix source 0 V hb
  obtain ⟨hlt, hmore⟩ := hdelimited _ hkind (by simp [Kind.Delimited])
  obtain ⟨ch, hch, -, hagree⟩ := hsame hlt
  obtain rfl : ';' = ch := Option.some.inj ((by decide +kernel : _ = some ';').symm.trans hch)
  refine ⟨hb, hkind, hposition, hagree _ (by decide +kernel), fun more => ?_⟩
  exact (hmore more).trans (by decide +kernel)

end ScssTokens

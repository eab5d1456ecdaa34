import ScssTokens.Proofs.Decision.Anatomy
import ScssTokens.Proofs.Scan.Extent

/-!
# Descendant combinators

Whitespace combines two selectors before what starts a selector. Before a colon that is not certain:
the colon belongs to a selector only if a block opens after it before the statement ends, however
far that is. The token is empty and lies before the selector, wherever the search has ended.

## Main definitions

* `OpensBlock` — a text in which a block opens before the statement ends.

## Main statements

* `Decision.blockFollows_ofText` — the search for a block finds one exactly in such texts.
* `scanAt_descendant_iff` — the texts at which whitespace is a descendant combinator.
-/

namespace ScssTokens

/-- A block opens in a text before the statement ends or the block around it closes. -/
def OpensBlock (t : Text) : Prop := ∃ u v, t = u ++ '{' :: v ∧ ';' ∉ u ∧ '}' ∉ u

@[simp] theorem not_opensBlock_nil : ¬ OpensBlock [] := by
  rintro ⟨u, v, h, -, -⟩
  cases u <;> cases h

@[simp] theorem opensBlock_cons {c : Char} {t : Text} :
    OpensBlock (c :: t) ↔ c = '{' ∨ c ≠ ';' ∧ c ≠ '}' ∧ OpensBlock t := by
  constructor
  · rintro ⟨u, v, h, hs, hb⟩
    cases u with
    | nil => exact .inl (List.cons.inj h).1
    | cons a u =>
      obtain ⟨rfl, rfl⟩ := List.cons.inj h
      rw [List.mem_cons, not_or] at hs hb
      exact .inr ⟨Ne.symm hs.1, Ne.symm hb.1, u, v, rfl, hs.2, hb.2⟩
  · rintro (rfl | ⟨hs, hb, u, v, rfl, hsu, hbu⟩)
    · exact ⟨[], t, rfl, List.not_mem_nil, List.not_mem_nil⟩
    · exact ⟨c :: u, v, rfl, by simp [hsu, hs.symm], by simp [hbu, hb.symm]⟩

namespace Decision

/-- The search for a block goes on past every character but a semicolon and the braces. -/
theorem blockFollows_cons {c : Cell} {cells : List Cell} :
    blockFollows (c :: cells) ↔
      c.char = '{' ∨ c.char ≠ ';' ∧ c.char ≠ '}' ∧ blockFollows cells := by
  by_cases hc : endsSearch c.char
  · have hstop : blockFollows (c :: cells) = (c.char == '{') := by simp [blockFollows, hc]
    rw [hstop, beq_iff_eq]
    refine ⟨.inl, ?_⟩
    rintro (hb | ⟨hs, hb, -⟩)
    · exact hb
    · simpa [endsSearch, hs, hb] using hc
  · have hon : blockFollows (c :: cells) = blockFollows cells := by simp [blockFollows, hc]
    rw [hon]
    simp only [endsSearch, Bool.or_eq_true, beq_iff_eq, not_or] at hc
    simp [hc]

/-- The search for a block finds one exactly where one opens. -/
theorem blockFollows_ofText {k : Column} {t : Text} :
    blockFollows (Cell.ofText k t) ↔ OpensBlock t := by
  induction t generalizing k with
  | nil => simp [blockFollows]
  | cons c t ih => rw [Cell.ofText_cons, blockFollows_cons, opensBlock_cons, ih]

instance (t : Text) : Decidable (OpensBlock t) :=
  decidable_of_iff _ (blockFollows_ofText (k := 0))

example : OpensBlock ['b', '{', ';'] ∧ ¬ OpensBlock ['b', ';', '{'] := by decide

/-- With the descendant combinator for the only candidate, the rule for whitespace decides. -/
theorem ofBody_descendant (spaced : Bool) (body : List Cell) :
    ofBody (.ofKind .descendantCombinator) spaced body =
      (given spaced ofSpace? body).getD decline := by
  simp [ofBody]

/-- The characters that a search for a block passes are not in the token. -/
@[simp] theorem found_seekBlock (k : Kind) (cells : List Cell) (body : Text) :
    (after [.advance] (seekBlock k cells)).found body =
      if blockFollows cells then some (k, []) else none := by
  simp only [found, seekBlock, kind_after, moves_after, List.cons_append, List.nil_append,
    Move.lastMark, lastMark_advances]
  split <;> rfl

/-- What the rule for whitespace finds from the character past it. -/
theorem found_ofSpace (k : Column) (c : Char) (t : Text) :
    ((ofSpace? (Cell.ofText k (c :: t))).getD decline).found (c :: t) =
      if startsSelector c ∨ c = ':' ∧ t.head?.any Unicode.isWhiteSpace = false ∧
          blockFollows (Cell.ofText (Column.after c k) t) then
        some (.descendantCombinator, [])
      else none := by
  rw [Cell.ofText_cons, ofSpace?, startsWith_ofText]
  by_cases hs : startsSelector c
  · simp [hs]
  rw [if_neg hs]
  by_cases hc : c = ':'
  · subst hc
    by_cases hw : t.head?.any Unicode.isWhiteSpace <;> simp [hs, hw]
  · simp [hs, hc]

/-- What a scan for descendant combinators finds past the whitespace. -/
theorem found_ofSpace_iff {k : Column} {body : Text} {e : Kind × Text} :
    ((ofSpace? (Cell.ofText k body)).getD decline).found body = some e ↔
      e = (.descendantCombinator, []) ∧
        (body.head?.any startsSelector ∨
          ∃ after, body = ':' :: after ∧ after.head?.any Unicode.isWhiteSpace = false ∧
            OpensBlock after) := by
  cases body with
  | nil => simp [ofSpace?]
  | cons c t =>
    rw [found_ofSpace, Option.ite_none_right_eq_some, blockFollows_ofText]
    grind

end Decision

/-- Whitespace is a descendant combinator exactly before the first character of a selector, and
before a colon that has no whitespace after it and that a block follows. The token is empty and lies
past the whitespace. -/
theorem scanAt_descendant_iff (before text : Text) (t : Token) :
    scanAt (before ++ text) before.size (.ofKind .descendantCombinator) = some t ↔
      ∃ space body, text = space ++ body ∧ space ≠ [] ∧ (∀ c ∈ space, Unicode.isWhiteSpace c) ∧
        body.head?.any Unicode.isWhiteSpace = false ∧
        (body.head?.any (fun c =>
            ['#', '.', '[', '-', '*', '&'].contains c || Unicode.isAlphanumeric c) ∨
          ∃ after, body = ':' :: after ∧ after.head?.any Unicode.isWhiteSpace = false ∧
            OpensBlock after) ∧
        t = ⟨.descendantCombinator, (before ++ space).size, (before ++ space).size⟩ := by
  rw [scanAt_append_eq_some_iff (by simp) rfl]
  simp only [Decision.ofBody_descendant, ← Decision.startsSelector_eq]
  constructor
  · rintro ⟨space, body, e, rfl, hblank, hink, he, rfl⟩
    cases space with
    | nil => cases he
    | cons c space =>
      obtain ⟨rfl, hbody⟩ := Decision.found_ofSpace_iff.1 he
      exact ⟨_, body, rfl, List.cons_ne_nil c space, hblank, hink, hbody, by simp [Token.spelled]⟩
  · rintro ⟨space, body, rfl, hne, hblank, hink, hbody, rfl⟩
    have hspaced : space.isEmpty = false := List.isEmpty_eq_false_iff.2 hne
    refine ⟨space, body, (.descendantCombinator, []), rfl, hblank, hink, ?_, ?_⟩
    · rw [hspaced]
      exact Decision.found_ofSpace_iff.2 ⟨rfl, hbody⟩
    · simp [Token.spelled]

end ScssTokens

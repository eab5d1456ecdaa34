import ScssTokens.Proofs.Scan.Priority
import ScssTokens.Proofs.Scan.Selector

/-!
# Colons of pseudo-classes

A colon opens a pseudo-class if neither whitespace nor a second colon comes directly after it and a
block opens before the statement ends. The token is the colon alone, however far the search for the
block has gone.

The rule for whitespace asks nearly the same of a colon that it finds past the whitespace. The two
rules differ at the first of two colons only, and where both may answer the one for whitespace is
asked first and has the last word.

## Main statements

* `Decision.found_ofColon` — what the rule for a colon finds.
* `isSome_scanAt_descendant_colon`, `isSome_scanAt_pseudoClass_colon` — what the two rules ask of a
  colon.
* `scanAt_pseudoClass_iff` — the texts at which a colon opens a pseudo-class.
-/

namespace ScssTokens

namespace Decision

/-- With the colon of a pseudo-class for the only candidate, the rule for a colon decides. -/
theorem ofBody_pseudoClass (body : List Cell) :
    ofBody (.ofKind .pseudoClassColon) false body = (ofColon? body).getD decline := by
  simp [ofBody]

/-- A mark before the search for a block leaves the characters before it in the token. -/
theorem found_markEnd_seekBlock (k : Kind) (cells : List Cell) (body : Text) :
    (after [.advance] (after [.markEnd] (seekBlock k cells))).found body =
      if blockFollows cells then some (k, body.take 1) else none := by
  simp only [found, seekBlock, kind_after, moves_after, List.cons_append, List.nil_append,
    Move.lastMark, lastMark_advances]
  split <;> rfl

/-- What the rule for a colon finds. -/
theorem found_ofColon (k : Column) (c : Char) (t : Text) :
    ((ofColon? (Cell.ofText k (c :: t))).getD decline).found (c :: t) =
      if c = ':' ∧ t.head?.any (fun c => Unicode.isWhiteSpace c || c == ':') = false ∧
          blockFollows (Cell.ofText (Column.after c k) t) then
        some (.pseudoClassColon, [':'])
      else none := by
  rw [Cell.ofText_cons, ofColon?, startsWith_ofText]
  by_cases hc : c = ':'
  · subst hc
    by_cases hn : t.head?.any fun c => Unicode.isWhiteSpace c || c == ':'
    · simp [hn]
    · simp [hn, found_markEnd_seekBlock]
  · simp [hc]

theorem found_ofColon_iff {k : Column} {body : Text} {e : Kind × Text} :
    ((ofColon? (Cell.ofText k body)).getD decline).found body = some e ↔
      ∃ after, body = ':' :: after ∧
        after.head?.any (fun c => Unicode.isWhiteSpace c || c == ':') = false ∧
        OpensBlock after ∧ e = (.pseudoClassColon, [':']) := by
  cases body with
  | nil => simp [ofColon?]
  | cons c t =>
    rw [found_ofColon, Option.ite_none_right_eq_some, blockFollows_ofText]
    grind

end Decision

/-- Before whitespace that is a candidate itself no group that decides asks for a colon. -/
theorem Candidates.accepts_pseudoClass_eq_false_of_responsible {V G : Candidates} {text : Text}
    (hV : V.accepts .descendantCombinator) (hspace : text.head?.any Unicode.isWhiteSpace)
    (hG : G ∈ V.responsible text) : G.accepts .pseudoClassColon = false := by
  have hcolon (h : text.ink = some ':') : text.ink.any fun c =>
      [':', '#', '.', '[', '-', '*', '&'].contains c || Unicode.isAlphanumeric c := by
    simp [h]
  have hvariable : (V ∩ anyVariable).accepts .pseudoClassColon = false := by simp
  grind [Candidates.responsible, Candidates.accepts_ofKind]

/-! ## Colons past whitespace -/

section

variable (before : Text) {space after : Text}

/-- The rule for whitespace asks of a colon that no whitespace is after it and a block opens. -/
theorem isSome_scanAt_descendant_colon (hne : space ≠ [])
    (hblank : ∀ c ∈ space, Unicode.isWhiteSpace c) :
    (scanAt (before ++ (space ++ ':' :: after)) before.size
      (.ofKind .descendantCombinator)).isSome ↔
        after.head?.any Unicode.isWhiteSpace = false ∧ OpensBlock after := by
  have hink : (':' :: after).head?.any Unicode.isWhiteSpace = false := rfl
  have hspaced : (!space.isEmpty) = true := by simpa using hne
  have hd : (Candidates.ofKind .descendantCombinator).accepts .descendantCombinator = true := rfl
  rw [scanAt_append_eq_found (by simp) before hblank hink fun _ => rfl, Option.isSome_map, hspaced,
    hd, Bool.and_self, Decision.ofBody_descendant, Decision.given_true, Decision.found_ofSpace,
    Option.isSome_ite, Decision.blockFollows_ofText]
  simp [Decision.startsSelector_colon]

/-- The rule for a colon asks besides that no second colon is after it. -/
theorem isSome_scanAt_pseudoClass_colon (hblank : ∀ c ∈ space, Unicode.isWhiteSpace c) :
    (scanAt (before ++ (space ++ ':' :: after)) before.size (.ofKind .pseudoClassColon)).isSome ↔
      after.head?.any (fun c => Unicode.isWhiteSpace c || c == ':') = false ∧ OpensBlock after := by
  have hink : (':' :: after).head?.any Unicode.isWhiteSpace = false := rfl
  rw [scanAt_append_of_ignoresSpace (by simp) ⟨rfl, rfl⟩ before hblank hink, Option.isSome_map,
    Decision.ofBody_pseudoClass, Decision.found_ofColon, Option.isSome_ite,
    Decision.blockFollows_ofText]
  exact and_iff_right rfl

end

/-- A scan for the colon of a pseudo-class finds one where whitespace and such a colon are ahead. -/
theorem scanAt_pseudoClass_eq_some_iff {before text : Text} {t : Token} :
    scanAt (before ++ text) before.size (.ofKind .pseudoClassColon) = some t ↔
      ∃ space after, text = space ++ ':' :: after ∧ (∀ c ∈ space, Unicode.isWhiteSpace c) ∧
        after.head?.any (fun c => Unicode.isWhiteSpace c || c == ':') = false ∧
        OpensBlock after ∧
        t = ⟨.pseudoClassColon, (before ++ space).size, (before ++ space).size + 1⟩ := by
  have hd : (Candidates.ofKind .pseudoClassColon).accepts .descendantCombinator = false := rfl
  have htoken (space : Text) : Token.spelled (before ++ space) (.pseudoClassColon, [':']) =
      ⟨.pseudoClassColon, (before ++ space).size, (before ++ space).size + 1⟩ := by
    rw [Token.spelled, Text.size_append (before ++ space)]
    rfl
  rw [scanAt_append_eq_some_iff (by simp) rfl]
  simp only [hd, Bool.and_false, Decision.ofBody_pseudoClass, Decision.found_ofColon_iff]
  constructor
  · rintro ⟨space, body, e, rfl, hblank, -, ⟨after, rfl, hnext, hopens, rfl⟩, rfl⟩
    exact ⟨space, after, rfl, hblank, hnext, hopens, htoken space⟩
  · rintro ⟨space, after, rfl, hblank, hnext, hopens, rfl⟩
    exact ⟨space, _, _, rfl, hblank, rfl, ⟨after, rfl, hnext, hopens, rfl⟩, (htoken space).symm⟩

/-- A colon opens a pseudo-class exactly if neither whitespace nor a second colon comes after it and
a block opens before the statement ends; the token is the colon, past the whitespace. A colon that
comes after whitespace and is not the first of two is one for the rule for whitespace exactly if it
is one for the rule for a colon. With both for candidates no colon is found before which whitespace
is ahead. -/
theorem scanAt_pseudoClass_iff (before text : Text) :
    (∀ t, scanAt (before ++ text) before.size (.ofKind .pseudoClassColon) = some t ↔
      ∃ space after, text = space ++ ':' :: after ∧ (∀ c ∈ space, Unicode.isWhiteSpace c) ∧
        after.head?.any (fun c => Unicode.isWhiteSpace c || c == ':') = false ∧
        OpensBlock after ∧
        t = ⟨.pseudoClassColon, (before ++ space).size, (before ++ space).size + 1⟩) ∧
      (∀ space after, text = space ++ ':' :: after → space ≠ [] →
        (∀ c ∈ space, Unicode.isWhiteSpace c) → after.head? ≠ some ':' →
          ((scanAt (before ++ text) before.size (.ofKind .descendantCombinator)).isSome ↔
            (scanAt (before ++ text) before.size (.ofKind .pseudoClassColon)).isSome)) ∧
      (text.head?.any Unicode.isWhiteSpace → ∀ V : Candidates, V.accepts .descendantCombinator →
        V.accepts .pseudoClassColon →
          ∀ t ∈ scanAt (before ++ text) before.size V, t.kind ≠ .pseudoClassColon) := by
  refine ⟨fun t => scanAt_pseudoClass_eq_some_iff, ?_, ?_⟩
  · rintro space after rfl hne hblank hnext
    have hsame : after.head?.any (fun c => Unicode.isWhiteSpace c || c == ':') =
        after.head?.any Unicode.isWhiteSpace := by
      cases after with
      | nil => rfl
      | cons c after => grind
    rw [isSome_scanAt_descendant_colon before hne hblank,
      isSome_scanAt_pseudoClass_colon before hblank, hsame]
  · intro hspace V hV _ t ht hkind
    rw [scanAt_append_eq_extent] at ht
    obtain ⟨⟨kind, start, stop⟩, hextent, rfl⟩ := Option.map_eq_some_iff.1 ht
    obtain ⟨G, hG, haccepts, -⟩ := Decision.exists_responsible hextent
    obtain rfl : kind = .pseudoClassColon := hkind
    have hnot := Candidates.accepts_pseudoClass_eq_false_of_responsible hV hspace hG
    exact absurd haccepts (by simp [hnot])

/-- A colon past whitespace is found by each of the two candidates, and not as a colon by both. -/
theorem scanAt_pseudoClass_selector :
    let source : Text := ['a', ' ', ':', 'b', '{']
    let either : Candidates := .ofKind .descendantCombinator ∪ .ofKind .pseudoClassColon
    scanAt source 1 (.ofKind .pseudoClassColon) = some ⟨.pseudoClassColon, 2, 3⟩ ∧
      (scanAt source 1 (.ofKind .descendantCombinator)).isSome ∧
      ∀ t ∈ scanAt source 1 either, t.kind ≠ .pseudoClassColon := by
  intro source either
  obtain ⟨hcolon, hsame, hnever⟩ := scanAt_pseudoClass_iff ['a'] [' ', ':', 'b', '{']
  have hblank : ∀ c ∈ [' '], Unicode.isWhiteSpace c := List.all_eq_true.1 rfl
  have hopens : OpensBlock ['b', '{'] := by decide
  have hfound : scanAt source 1 (.ofKind .pseudoClassColon) = some ⟨.pseudoClassColon, 2, 3⟩ :=
    (hcolon _).2 ⟨[' '], ['b', '{'], rfl, hblank, by decide, hopens, rfl⟩
  have hspace := hsame [' '] ['b', '{'] rfl (by simp) hblank (by decide)
  refine ⟨hfound, hspace.2 (Option.isSome_of_eq_some hfound), ?_⟩
  exact hnever rfl either (by decide) (by decide)

end ScssTokens

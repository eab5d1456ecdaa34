import ScssTokens.Decision.Priority
import ScssTokens.Proofs.Segment.Step
import ScssTokens.Proofs.Stream.Run

/-!
# The shape of decisions

A decision skips the whitespace ahead and nothing after it, a decision for a token marks an end,
and the token is of a kind that the candidates hold. Each rule past the whitespace is looked at once
for this; what holds of all decisions follows from the order of the rules.

## Main definitions

* `Decision.PastSpace` — no skip, and a token of certain kinds.
* `Decision.Tidy` — a mark for every token, too.

## Main statements

* `Decision.moves_ofCells` — the skips come first and cover the whitespace ahead.
* `Decision.lead_ofCells` — how far the start of the token is taken along.
* `Decision.marked_ofCells` — a token has a mark.
* `Decision.accepts_of_kind_ofCells` — a token is of a candidate's kind.
-/

namespace ScssTokens.Decision

/-- Past the whitespace nothing is skipped, and a token is of one of the kinds in question. -/
structure PastSpace (K : Kind → Prop) (d : Decision) : Prop where
  no_skip : .skip ∉ d.moves
  kind : ∀ k ∈ d.kind, K k

/-- Past the whitespace the end of a token is marked. -/
structure Tidy (K : Kind → Prop) (d : Decision) : Prop extends d.PastSpace K where
  marked : d.kind.isSome → .markEnd ∈ d.moves

section

variable {K L : Kind → Prop} {d : Decision} {ms : List Move}

theorem PastSpace.mono (h : d.PastSpace K) (hK : ∀ k, K k → L k) : d.PastSpace L where
  no_skip := h.no_skip
  kind k hk := hK k (h.kind k hk)

theorem Tidy.mono (h : d.Tidy K) (hK : ∀ k, K k → L k) : d.Tidy L where
  toPastSpace := h.toPastSpace.mono hK
  marked := h.marked

theorem PastSpace.after (h : d.PastSpace K) (hm : .skip ∉ ms) : (d.after ms).PastSpace K where
  no_skip := by simp [hm, h.no_skip]
  kind := h.kind

theorem Tidy.after (h : d.Tidy K) (hm : .skip ∉ ms) : (d.after ms).Tidy K where
  toPastSpace := h.toPastSpace.after hm
  marked hk := by simp [h.marked hk]

/-- A mark among the moves before a decision will do for its token. -/
theorem PastSpace.tidy_after (h : d.PastSpace K) (hm : .skip ∉ ms) (he : .markEnd ∈ ms) :
    (d.after ms).Tidy K where
  toPastSpace := h.after hm
  marked _ := by simp [he]

theorem tidy_decline : decline.Tidy K := ⟨⟨by simp, by simp⟩, by simp⟩

theorem pastSpace_accept (k : Kind) : (accept k).PastSpace (· = k) :=
  ⟨by simp, by simp⟩

theorem no_skip_advances (n : Nat) : .skip ∉ advances n := by
  simp [advances, List.mem_replicate]

end

/-! ## The rules -/

theorem pastSpace_seekBlock (k : Kind) (cells : List Cell) :
    (seekBlock k cells).PastSpace (· = k) where
  no_skip := no_skip_advances _
  kind j hj := by
    simp only [seekBlock, Option.mem_def] at hj
    split at hj
    · exact (Option.some.inj hj).symm
    · cases hj

theorem pastSpace_ofSpace {cells : List Cell} {d : Decision} (h : ofSpace? cells = some d) :
    d.PastSpace (· = .descendantCombinator) := by
  cases cells with
  | nil => cases h
  | cons c cells =>
    simp only [ofSpace?] at h
    split at h
    · cases h
      exact pastSpace_accept _
    · split at h
      · cases h
        refine PastSpace.after ?_ (by simp)
        split
        · exact tidy_decline.toPastSpace
        · exact pastSpace_seekBlock _ _
      · cases h

theorem tidy_ofColon {cells : List Cell} {d : Decision} (h : ofColon? cells = some d) :
    d.Tidy (· = .pseudoClassColon) := by
  cases cells with
  | nil => cases h
  | cons c cells =>
    simp only [ofColon?] at h
    split at h
    · cases h
      refine Tidy.after ?_ (by simp)
      split
      · exact tidy_decline
      · exact (pastSpace_seekBlock _ _).tidy_after (by simp) (by simp)
    · cases h

theorem tidy_ofDollar {V : Candidates} {cells : List Cell} {d : Decision}
    (h : ofDollar? V cells = some d) : d.Tidy (V.accepts ·) := by
  cases cells with
  | nil => cases h
  | cons c cells =>
    simp only [ofDollar?] at h
    split at h
    · cases h
      refine Tidy.after ?_ (by simp)
      split
      · refine ⟨⟨by simp [no_skip_advances], ?_⟩, by simp⟩
        intro k hk
        obtain ⟨hv, hk⟩ := Option.ite_none_right_eq_some.1 hk
        exact Option.some.inj hk ▸ hv
      · exact tidy_decline
    · cases h

theorem tidy_segmentEnd (q : Quote) (started : Bool) (c : Char) :
    (segmentEnd q started c).Tidy (· = q.segmentKind) := by
  unfold segmentEnd
  split
  · exact (pastSpace_accept _).tidy_after (by simp) (by simp)
  · split
    · refine PastSpace.tidy_after ?_ (by simp) (by simp)
      split
      · exact pastSpace_accept _
      · exact tidy_decline.toPastSpace
    · exact tidy_decline

theorem tidy_restOfSegment (q : Quote) (backslash : Option Column) (started : Bool)
    (cells : List Cell) :
    (restOfSegment q backslash started cells).Tidy (· = q.segmentKind) := by
  induction cells generalizing backslash started with
  | nil => exact tidy_decline
  | cons c cells ih =>
    cases he : endsSegment q backslash (c :: cells) with
    | true =>
      rw [restOfSegment_of_ends he]
      exact tidy_segmentEnd q started c.char
    | false =>
      rw [restOfSegment_of_not_ends he]
      exact (ih _ true).after (by simp)

theorem tidy_ofSegment (q : Quote) (cells : List Cell) :
    (ofSegment q cells).Tidy (· = q.segmentKind) := by
  unfold ofSegment
  split
  · exact tidy_decline
  · exact tidy_restOfSegment q none false cells

theorem tidy_ofValue (cells : List Cell) : (ofValue cells).Tidy (· = .applyValue) := by
  refine Tidy.after ?_ (no_skip_advances _)
  split
  · exact (pastSpace_accept _).tidy_after (by simp) (by simp)
  · exact tidy_decline

/-! ## The order of the rules -/

/-- What holds of each of two answers holds of the first of them that is there. -/
theorem forall_mem_orElse {P : Decision → Prop} {a b : Option Decision} (ha : ∀ d ∈ a, P d)
    (hb : ∀ d ∈ b, P d) : ∀ d ∈ (a <|> b), P d := by
  cases a with
  | none => simpa using hb
  | some d => simpa using ha

theorem forall_mem_given {P : Decision → Prop} {rule : List Cell → Option Decision}
    {cells : List Cell} {candidate : Bool} (h : candidate → ∀ d ∈ rule cells, P d) :
    ∀ d ∈ given candidate rule cells, P d := by
  cases candidate with
  | false => simp
  | true => exact h rfl

theorem getD_decline_of_forall {P : Decision → Prop} {a : Option Decision} (h : ∀ d ∈ a, P d)
    (hd : P decline) : P (a.getD decline) := by
  cases a with
  | none => exact hd
  | some d => exact h d rfl

/-- The rules after the one for whitespace. -/
def ofInk (V : Candidates) (body : List Cell) : Option Decision :=
  given (V.accepts .pseudoClassColon) ofColon? body
    <|> given (V.intersects .anyVariable) (ofDollar? V) body
    <|> given (V.accepts .singleQuotedSegment) (some ∘ ofSegment .single) body
    <|> given (V.accepts .doubleQuotedSegment) (some ∘ ofSegment .double) body
    <|> given (V.accepts .applyValue) (some ∘ ofValue) body

theorem ofBody_eq (V : Candidates) (spaced : Bool) (body : List Cell) :
    ofBody V spaced body = (given spaced ofSpace? body <|> ofInk V body).getD decline := rfl

/-- What holds of the answers of the rules past the whitespace, each asked with its candidate, holds
of the first of them that is there. -/
theorem forall_mem_ofInk {P : Decision → Prop} {V : Candidates} {body : List Cell}
    (hcolon : V.accepts .pseudoClassColon → ∀ d ∈ ofColon? body, P d)
    (hdollar : ∀ d ∈ ofDollar? V body, P d)
    (hsegment : ∀ q : Quote, V.accepts q.segmentKind → P (ofSegment q body))
    (hvalue : V.accepts .applyValue → P (ofValue body)) : ∀ d ∈ ofInk V body, P d := by
  have hsome {d : Decision} (hd : P d) : ∀ d' ∈ some d, P d' := by
    rintro d' ⟨⟩
    exact hd
  refine forall_mem_orElse (forall_mem_given hcolon) ?_
  refine forall_mem_orElse (forall_mem_given fun _ => hdollar) ?_
  refine forall_mem_orElse (forall_mem_given fun hv => hsome (hsegment .single hv)) ?_
  exact forall_mem_orElse (forall_mem_given fun hv => hsome (hsegment .double hv))
    (forall_mem_given fun hv => hsome (hvalue hv))

theorem tidy_ofInk (V : Candidates) (body : List Cell) :
    ∀ d ∈ ofInk V body, d.Tidy (V.accepts ·) := by
  apply forall_mem_ofInk
  · intro hv d hd
    exact (tidy_ofColon hd).mono fun k hk => hk ▸ hv
  · exact fun d hd => tidy_ofDollar hd
  · intro q hv
    exact (tidy_ofSegment q body).mono fun k hk => hk ▸ hv
  · intro hv
    exact (tidy_ofValue body).mono fun k hk => hk ▸ hv

theorem pastSpace_ofBody {V : Candidates} {spaced : Bool}
    (hs : spaced → V.accepts .descendantCombinator) (body : List Cell) :
    (ofBody V spaced body).PastSpace (V.accepts ·) := by
  have hspace (hb : spaced) : ∀ d ∈ ofSpace? body, d.PastSpace (V.accepts ·) := by
    intro d hd
    exact (pastSpace_ofSpace hd).mono fun k hk => hk ▸ hs hb
  have hink : ∀ d ∈ ofInk V body, d.PastSpace (V.accepts ·) :=
    fun d hd => (tidy_ofInk V body d hd).toPastSpace
  rw [ofBody_eq]
  exact getD_decline_of_forall (forall_mem_orElse (forall_mem_given hspace) hink)
    tidy_decline.toPastSpace

theorem ofBody_of_not_space {V : Candidates} {spaced : Bool} {body : List Cell}
    (h : given spaced ofSpace? body = none) :
    ofBody V spaced body = (ofInk V body).getD decline := by
  rw [ofBody_eq, h]
  rfl

theorem tidy_ofInk_getD (V : Candidates) (body : List Cell) :
    ((ofInk V body).getD decline).Tidy (V.accepts ·) :=
  getD_decline_of_forall (tidy_ofInk V body) tidy_decline

/-! ## All decisions -/

theorem ofCells_of_ahead {V : Candidates} {cells : List Cell} (hr : V.inRecovery = false)
    (hn : cells.takeWhile Cell.isWhiteSpace = [] → V.accepts .noWhitespace = false) :
    ofCells V cells =
      let space := cells.takeWhile Cell.isWhiteSpace
      let spaced := !space.isEmpty && V.accepts .descendantCombinator
      after (overSpace spaced space) (ofBody V spaced (cells.drop space.length)) := by
  cases hs : cells.takeWhile Cell.isWhiteSpace with
  | nil => simp [ofCells, hr, hs, hn hs]
  | cons c space => simp [ofCells, hr, hs]

@[simp] theorem steps_overSpace (spaced : Bool) (space : List Cell) :
    Move.steps (overSpace spaced space) = space.length := by
  cases spaced <;> simp [overSpace]

theorem lastMark_overSpace (spaced : Bool) (space : List Cell) :
    Move.lastMark (overSpace spaced space) = if spaced then some space.length else none := by
  cases spaced <;> simp [overSpace, Move.lastMark_append, Move.lastMark]

/-- Past the whitespace the last mark is the one of the rules there, and without one of their own
the mark after the whitespace. -/
theorem lastMark_after_overSpace {spaced : Bool} {space : List Cell} {d : Decision}
    (h : .markEnd ∈ (after (overSpace spaced space) d).moves) :
    Move.lastMark (after (overSpace spaced space) d).moves =
      some (space.length + (Move.lastMark d.moves).getD 0) := by
  rw [← Move.isSome_lastMark, moves_after, Move.lastMark_append, steps_overSpace,
    lastMark_overSpace] at h
  rw [moves_after, Move.lastMark_append, steps_overSpace, lastMark_overSpace]
  cases hd : Move.lastMark d.moves with
  | some n => rfl
  | none =>
    cases spaced with
    | true => rfl
    | false => simp [hd] at h

theorem ofCells_of_recovery {V : Candidates} (hr : V.inRecovery = true) (cells : List Cell) :
    ofCells V cells = decline := by
  simp [ofCells, hr]

theorem ofCells_of_noWhitespace {V : Candidates} {cells : List Cell} (hr : V.inRecovery = false)
    (hs : cells.takeWhile Cell.isWhiteSpace = []) (hn : V.accepts .noWhitespace = true) :
    ofCells V cells = after [.markEnd] (accept .noWhitespace) := by
  simp [ofCells, hr, hs, hn]

/-- All that a decision can be. -/
theorem ofCells_cases (V : Candidates) (cells : List Cell) :
    V.inRecovery = true ∧ ofCells V cells = decline ∨
    V.inRecovery = false ∧ cells.takeWhile Cell.isWhiteSpace = [] ∧
      V.accepts .noWhitespace = true ∧
      ofCells V cells = after [.markEnd] (accept .noWhitespace) ∨
    V.inRecovery = false ∧ ∃ spaced : Bool,
      (spaced → cells.takeWhile Cell.isWhiteSpace ≠ [] ∧ V.accepts .descendantCombinator) ∧
      ofCells V cells = after (overSpace spaced (cells.takeWhile Cell.isWhiteSpace))
        (ofBody V spaced (cells.drop (cells.takeWhile Cell.isWhiteSpace).length)) := by
  cases hr : V.inRecovery with
  | true => exact .inl ⟨rfl, ofCells_of_recovery hr cells⟩
  | false =>
    refine .inr ?_
    by_cases h : cells.takeWhile Cell.isWhiteSpace = [] ∧ V.accepts .noWhitespace = true
    · exact .inl ⟨rfl, h.1, h.2, ofCells_of_noWhitespace hr h.1 h.2⟩
    · have hn : cells.takeWhile Cell.isWhiteSpace = [] → V.accepts .noWhitespace = false := by
        intro hs
        simpa [hs] using h
      exact .inr ⟨rfl, _, fun hs => by simpa using hs, ofCells_of_ahead hr hn⟩

/-- The skips of a decision come first and cover the whitespace ahead. -/
theorem moves_ofCells {V : Candidates} (cells : List Cell) (hr : V.inRecovery = false) :
    ∃ ms, .skip ∉ ms ∧ (ofCells V cells).moves =
      List.replicate (cells.takeWhile Cell.isWhiteSpace).length .skip ++ ms := by
  obtain ⟨hr', -⟩ | ⟨-, hs, -, h⟩ | ⟨-, spaced, hv, h⟩ := ofCells_cases V cells
  · simp [hr] at hr'
  · exact ⟨[.markEnd], by simp, by rw [h, hs]; rfl⟩
  · rw [h]
    refine ⟨_, ?_, List.append_assoc _ _ _⟩
    rw [List.mem_append, not_or]
    exact ⟨by cases spaced <;> simp, (pastSpace_ofBody (fun hs => (hv hs).2) _).no_skip⟩

theorem lead_ofCells (V : Candidates) (cells : List Cell) :
    Move.lead (ofCells V cells).moves =
      if V.inRecovery then 0 else (cells.takeWhile Cell.isWhiteSpace).length := by
  cases hr : V.inRecovery with
  | true => simp [ofCells_of_recovery hr, Move.lead]
  | false =>
    obtain ⟨ms, hs, hm⟩ := moves_ofCells cells hr
    rw [hm, Move.lead_skips_append, Move.lead_of_no_skip hs]
    simp

/-- A token has a mark. -/
theorem marked_ofCells {V : Candidates} {cells : List Cell} (hk : (ofCells V cells).kind.isSome) :
    .markEnd ∈ (ofCells V cells).moves := by
  obtain ⟨-, h⟩ | ⟨-, -, -, h⟩ | ⟨-, spaced, -, h⟩ := ofCells_cases V cells
  · simp [h] at hk
  · simp [h]
  · rw [h, moves_after, List.mem_append]
    rw [h] at hk
    cases spaced with
    | true => exact .inl (by simp [overSpace])
    | false =>
      rw [ofBody_of_not_space (given_false _ _)] at hk ⊢
      exact .inr ((tidy_ofInk_getD V _).marked hk)

/-- A token is of the kind of a candidate. -/
theorem accepts_of_kind_ofCells {V : Candidates} {cells : List Cell} {k : Kind}
    (hk : (ofCells V cells).kind = some k) : V.accepts k := by
  obtain ⟨-, h⟩ | ⟨-, -, hv, h⟩ | ⟨-, spaced, hs, h⟩ := ofCells_cases V cells
  · rw [h] at hk
    cases hk
  · rw [h] at hk
    cases hk
    exact hv
  · rw [h] at hk
    exact (pastSpace_ofBody (fun h => (hs h).2) _).kind k hk

end ScssTokens.Decision

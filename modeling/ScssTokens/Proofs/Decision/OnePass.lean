import ScssTokens.Proofs.Decision.Order

/-!
# Rules that read in one pass

A rule goes through the cells ahead once, from the first to the one at which it stops. It consumes
no more cells than there are, and the cells past the one at which it stops have no say: a rule never
looks further than a stream does that makes its moves.

Such rules are closed under what rules are made of: a verdict, a test of the first character, a
mark, one character consumed, a run of characters consumed, a loop. Each rule is put together from
these.

## Main definitions

* `Decision.OnePass` — the rules that read in one pass.

## Main statements

* `Decision.OnePass.run`, `Decision.OnePass.loop` — a run of characters before a rule, and a family
  of rules that hand the cells on to one another.
* `Decision.onePass_ofCells` — the decision for a candidate set is made in one pass.
-/

namespace ScssTokens

/-- If a run ends before a certain element, it ends at the same place whatever comes after that. -/
theorem takeWhile_append_cons {α : Type} {p : α → Bool} {pre post : List α} {a : α}
    (h : ((pre ++ a :: post).takeWhile p).length ≤ pre.length) (post' : List α) :
    (pre ++ a :: post').takeWhile p = pre.takeWhile p := by
  rw [List.takeWhile_append] at h ⊢
  split
  · next hall =>
    have ha : p a = false := by
      rw [if_pos hall] at h
      cases hp : p a with
      | false => rfl
      | true =>
        rw [List.takeWhile_cons_of_pos hp, List.length_append, List.length_cons] at h
        omega
    have hpre : pre.takeWhile p = pre := (List.takeWhile_prefix p).eq_of_length hall
    simp [ha, hpre]
  · rfl

theorem startsWith_append_cons (p : Char → Bool) (pre : List Cell) (c : Cell)
    (post post' : List Cell) :
    startsWith p (pre ++ c :: post') = startsWith p (pre ++ c :: post) := by
  cases pre <;> rfl

@[simp] theorem startsWith_false (cells : List Cell) :
    startsWith (fun _ => false) cells = false := by
  cases cells <;> rfl

namespace Decision

/-- A rule that reads the cells ahead in one pass. -/
structure OnePass (rule : List Cell → Decision) : Prop where
  /-- No more cells are consumed than there are. -/
  within : ∀ cells, Move.steps (rule cells).moves ≤ cells.length
  /-- What lies past the cell at which the rule stops does not matter. -/
  unread : ∀ (pre : List Cell) (c : Cell) (post post' : List Cell),
    Move.steps (rule (pre ++ c :: post)).moves = pre.length →
      rule (pre ++ c :: post') = rule (pre ++ c :: post)

namespace OnePass

variable {r s : List Cell → Decision}

theorem verdict (kind : Option Kind) : OnePass fun _ => ⟨[], kind⟩ where
  within _ := Nat.zero_le _
  unread _ _ _ _ _ := rfl

theorem congr (hr : OnePass r) (h : ∀ cells, s cells = r cells) : OnePass s :=
  funext h ▸ hr

theorem decline : OnePass fun _ => decline := verdict none

theorem accept (k : Kind) : OnePass fun _ => accept k := verdict (some k)

theorem ite (p : Char → Bool) (hr : OnePass r) (hs : OnePass s) :
    OnePass fun cells => if startsWith p cells then r cells else s cells where
  within cells := by
    split
    · exact hr.within cells
    · exact hs.within cells
  unread pre c post post' h := by
    rw [startsWith_append_cons p pre c post post']
    split at h
    · next hp => rw [if_pos hp, if_pos hp, hr.unread pre c post post' h]
    · next hp => rw [if_neg hp, if_neg hp, hs.unread pre c post post' h]

/-- A test that needs a candidate too. -/
theorem ite_and (b : Prop) [Decidable b] (p : Char → Bool) (hr : OnePass r) (hs : OnePass s) :
    OnePass fun cells => if b ∧ startsWith p cells then r cells else s cells := by
  by_cases hb : b
  · simpa [hb] using hr.ite p hs
  · simpa [hb] using hs

theorem mark (hr : OnePass r) : OnePass fun cells => after [.markEnd] (r cells) where
  within cells := by simpa using hr.within cells
  unread pre c post post' h := by
    rw [hr.unread pre c post post' (by simpa using h)]

/-- At the first cell there is a verdict, or the cell is consumed. -/
theorem cons (hnil : Move.steps (r []).moves = 0)
    (hcons : ∀ c, (∃ d, Move.steps d.moves = 0 ∧ ∀ cells, r (c :: cells) = d) ∨
      ∃ s, OnePass s ∧ ∀ cells, r (c :: cells) = after [.advance] (s cells)) :
    OnePass r where
  within cells := by
    cases cells with
    | nil => exact Nat.le_of_eq hnil
    | cons c cells =>
      obtain ⟨d, hd, h⟩ | ⟨s, hs, h⟩ := hcons c
      · simp [h, hd]
      · simpa [h] using hs.within cells
  unread pre c post post' hsteps := by
    cases pre with
    | nil =>
      obtain ⟨d, -, h⟩ | ⟨s, -, h⟩ := hcons c
      · rw [List.nil_append, List.nil_append, h, h]
      · simp [h] at hsteps
    | cons b pre =>
      obtain ⟨d, -, h⟩ | ⟨s, hs, h⟩ := hcons b
      · rw [List.cons_append, List.cons_append, h, h]
      · rw [List.cons_append, h] at hsteps ⊢
        rw [List.cons_append, h, hs.unread pre c post post' (by simpa using hsteps)]

/-- A run of characters is consumed before a rule. -/
theorem run {m : Move} (hm : m.consumes) (p : Cell → Bool) (hr : OnePass r) :
    OnePass fun cells => after (List.replicate (cells.takeWhile p).length m)
      (r (cells.drop (cells.takeWhile p).length)) := by
  have hsteps (n : Nat) (d : Decision) :
      Move.steps (after (List.replicate n m) d).moves = n + Move.steps d.moves := by
    simp [Move.steps, List.countP_replicate, hm]
  constructor
  · intro cells
    have hrun := (List.takeWhile_prefix (l := cells) p).length_le
    have hrest := hr.within (cells.drop (cells.takeWhile p).length)
    rw [List.length_drop] at hrest
    rw [hsteps]
    omega
  · intro pre c post post' h
    rw [hsteps] at h
    -- the run ends before the cell at which the rule stops, so it is the run of the cells before
    have hrun := takeWhile_append_cons (Nat.le_trans (Nat.le_add_right _ _) (Nat.le_of_eq h))
    have hle := (List.takeWhile_prefix (l := pre) p).length_le
    rw [hrun post, List.drop_append_of_le_length hle] at h ⊢
    rw [hrun post', List.drop_append_of_le_length hle]
    rw [hr.unread _ c post post' (by rw [List.length_drop]; omega)]

/-- Rules that go round in a loop: at the first cell there is a verdict, or the cell is consumed,
and if the next one does not decide, another rule of the family goes on. -/
theorem loop {ι : Type} {rule : ι → List Cell → Decision}
    (hnil : ∀ i, Move.steps (rule i []).moves = 0)
    (hcons : ∀ i c, (∃ d, Move.steps d.moves = 0 ∧ ∀ cells, rule i (c :: cells) = d) ∨
      ∃ ms p d j, Move.steps ms = 1 ∧ Move.steps d.moves = 0 ∧
        ∀ cells, rule i (c :: cells) = after ms (if startsWith p cells then d else rule j cells))
    (i : ι) : OnePass (rule i) := by
  constructor
  · intro cells
    induction cells generalizing i with
    | nil => exact Nat.le_of_eq (hnil i)
    | cons c cells ih =>
      obtain ⟨d, hd, h⟩ | ⟨ms, p, d, j, hms, hd, h⟩ := hcons i c
      · simp [h, hd]
      · have hj := ih j
        rw [h, moves_after, Move.steps_append, hms, List.length_cons]
        split <;> omega
  · intro pre c post post' hsteps
    induction pre generalizing i with
    | nil =>
      obtain ⟨d, -, h⟩ | ⟨ms, p, d, j, hms, -, h⟩ := hcons i c
      · rw [List.nil_append, List.nil_append, h, h]
      · simp [h, hms] at hsteps
    | cons b pre ih =>
      obtain ⟨d, -, h⟩ | ⟨ms, p, d, j, hms, -, h⟩ := hcons i b
      · rw [List.cons_append, List.cons_append, h, h]
      · rw [List.cons_append, h, moves_after, Move.steps_append, hms, List.length_cons] at hsteps
        rw [List.cons_append, List.cons_append, h, h, startsWith_append_cons p pre c post post']
        split at hsteps
        · next hp => rw [if_pos hp, if_pos hp]
        · next hp => rw [if_neg hp, if_neg hp, ih j (by omega)]

end OnePass

/-! ## The rules -/

theorem onePass_seekBlock (k : Kind) : OnePass (seekBlock k) := by
  have h := ((OnePass.accept k).ite (· == '{') OnePass.decline).run
    (show Move.advance.consumes from rfl) fun c => !endsSearch c.char
  refine h.congr fun cells => ?_
  rw [seekBlock, blockFollows, drop_length_takeWhile]
  split <;> simp [after, advances]

theorem onePass_ofSpace : OnePass fun cells => (ofSpace? cells).getD decline := by
  refine OnePass.cons rfl fun c => ?_
  by_cases hs : startsSelector c.char
  · exact .inl ⟨accept .descendantCombinator, rfl, fun cells => by simp [ofSpace?, hs]⟩
  · by_cases hc : c.char = ':'
    · refine .inr ⟨_, OnePass.decline.ite Unicode.isWhiteSpace
        (onePass_seekBlock .descendantCombinator), ?_⟩
      intro cells
      simp only [ofSpace?, if_neg hs, if_pos hc, Option.getD_some]
    · refine .inl ⟨decline, rfl, fun cells => ?_⟩
      simp only [ofSpace?, if_neg hs, if_neg hc, Option.getD_none]

theorem onePass_ofColon : OnePass fun cells => (ofColon? cells).getD decline := by
  refine OnePass.cons rfl fun c => ?_
  by_cases hc : c.char = ':'
  · refine .inr ⟨_, OnePass.decline.ite (fun c => Unicode.isWhiteSpace c || c == ':')
      (onePass_seekBlock .pseudoClassColon).mark, ?_⟩
    intro cells
    simp [ofColon?, hc]
  · exact .inl ⟨decline, rfl, fun cells => by simp [ofColon?, hc]⟩

/-- Up to a number of dots are consumed, and whether there are exactly that many decides. -/
theorem onePass_dots (exactly otherwise : Option Kind) (n : Nat) :
    OnePass fun cells =>
      ⟨advances (min (cells.takeWhile fun c => c.char == '.').length n),
        if (cells.takeWhile fun c => c.char == '.').length = n then exactly else otherwise⟩ := by
  induction n with
  | zero =>
    have h := (OnePass.verdict otherwise).ite (· == '.') (OnePass.verdict exactly)
    refine h.congr fun cells => ?_
    cases cells with
    | nil => rfl
    | cons c cells => by_cases hc : c.char = '.' <;> simp [hc, advances]
  | succ n ih =>
    refine OnePass.cons rfl fun c => ?_
    by_cases hc : c.char = '.'
    · refine .inr ⟨_, ih, fun cells => ?_⟩
      simp [hc, after, advances, Nat.add_min_add_right, List.replicate_succ]
    · exact .inl ⟨⟨[], otherwise⟩, rfl, fun cells => by simp [hc, advances]⟩

theorem onePass_ofDollar (V : Candidates) :
    OnePass fun cells => (ofDollar? V cells).getD decline := by
  let verdict (k : Kind) : Option Kind := if V.accepts k then some k else none
  have hname := ((onePass_dots (verdict .restVariable) (verdict .plainVariable) restDots).mark.run
    (show Move.advance.consumes from rfl) fun c => continuesName c.char).ite startsName
    OnePass.decline
  refine OnePass.cons rfl fun c => ?_
  by_cases hc : c.char = '$'
  · refine .inr ⟨_, hname, fun cells => ?_⟩
    simp only [ofDollar?, if_pos hc, Option.getD_some, variableKind]
    congr 2
    by_cases hd : ((cells.drop (cells.takeWhile fun c => continuesName c.char).length).takeWhile
        fun c => c.char == '.').length = restDots
    · simp [hd, after, advances, verdict]
    · simp [hd, after, advances, verdict]
  · exact .inl ⟨decline, rfl, fun cells => by simp [ofDollar?, hc]⟩

theorem onePass_ofValue : OnePass ofValue := by
  have h := ((OnePass.accept .applyValue).mark.ite closesValue OnePass.decline).run
    (show Move.advance.consumes from rfl) (fun c => !endsValue c.char)
  have h' := h.ite (fun c => !endsValue c) OnePass.decline
  refine h'.congr fun cells => ?_
  cases cells with
  | nil => rfl
  | cons c cells =>
    cases hc : endsValue c.char with
    | true =>
      simp [ofValue, hc, advances]
      rfl
    | false => simp [ofValue, hc, advances]

/-- The rule for a segment goes round until it stops: each cell is consumed, and only the one after
a bare `#` can end the segment there. -/
theorem onePass_restOfSegment (q : Quote) (backslash : Option Column) (started : Bool) :
    OnePass (restOfSegment q backslash started) := by
  let rule (state : Option Column × Bool) := restOfSegment q state.1 state.2
  refine OnePass.loop (fun _ => rfl : ∀ state, Move.steps (rule state []).moves = 0) ?_
    (backslash, started)
  rintro ⟨backslash, started⟩ c
  let next : Option Column × Bool := (if c.char = '\\' then some c.column else backslash, true)
  by_cases he : isEscaped backslash c.column
  · exact .inr ⟨[.advance], fun _ => false, decline, next, rfl, rfl,
      fun cells => by simp [rule, restOfSegment, he, next]⟩
  by_cases hq : c.char = q.char
  · exact .inl ⟨after [.markEnd] (accept q.segmentKind), rfl,
      fun cells => by simp [rule, restOfSegment, he, hq]⟩
  by_cases hh : c.char = '#'
  · refine .inr ⟨[.markEnd, .advance], (· == '{'), ⟨[], if started then q.segmentKind else none⟩,
      next, rfl, rfl, fun cells => ?_⟩
    simp only [rule, restOfSegment, if_neg he, if_neg hq, if_pos hh]
    cases started <;> rfl
  by_cases hn : c.char = '\n'
  · exact .inl ⟨decline, rfl, fun cells => by
      simp only [rule, restOfSegment, if_neg he, if_neg hq, if_neg hh, if_pos hn]⟩
  · exact .inr ⟨[.advance], fun _ => false, decline, next, rfl, rfl,
      fun cells => by simp [rule, restOfSegment, he, hq, hh, hn, next]⟩

theorem onePass_ofSegment (q : Quote) : OnePass (ofSegment q) :=
  OnePass.decline.ite (· == q.char) (onePass_restOfSegment q none false)

/-! ## The order of the rules -/

/-- The rules past the whitespace as a chain of tests of the first character. -/
theorem ofBody_ite (V : Candidates) (spaced : Bool) (body : List Cell) :
    ofBody V spaced body =
      if spaced ∧ startsWith (fun c =>
          [':', '#', '.', '[', '-', '*', '&'].contains c || Unicode.isAlphanumeric c) body then
        (ofSpace? body).getD decline
      else if V.accepts .pseudoClassColon ∧ startsWith (· == ':') body then
        (ofColon? body).getD decline
      else if V.intersects .anyVariable ∧ startsWith (· == '$') body then
        (ofDollar? V body).getD decline
      else if V.accepts .singleQuotedSegment then ofSegment .single body
      else if V.accepts .doubleQuotedSegment then ofSegment .double body
      else if V.accepts .applyValue then ofValue body
      else decline := by
  rw [ofBody_eq, given_orElse (isSome_ofSpace body), ofInk_eq]
  simp only [apply_ite (fun d : Option Decision => d.getD decline), Option.getD_some,
    Option.getD_none]

theorem onePass_ofBody (V : Candidates) (spaced : Bool) : OnePass (ofBody V spaced) := by
  have hlast : OnePass fun body =>
      if V.accepts .singleQuotedSegment then ofSegment .single body
      else if V.accepts .doubleQuotedSegment then ofSegment .double body
      else if V.accepts .applyValue then ofValue body
      else decline := by
    split
    · exact onePass_ofSegment .single
    · split
      · exact onePass_ofSegment .double
      · split
        · exact onePass_ofValue
        · exact OnePass.decline
  rw [funext (ofBody_ite V spaced)]
  exact onePass_ofSpace.ite_and _ _ <| onePass_ofColon.ite_and _ _ <|
    (onePass_ofDollar V).ite_and _ _ hlast

/-- The decision for a candidate set with the whitespace ahead as a test of the first character. -/
theorem ofCells_ite {V : Candidates} (hr : V.inRecovery = false) (cells : List Cell) :
    ofCells V cells =
      if startsWith Unicode.isWhiteSpace cells then
        let n := (cells.takeWhile Cell.isWhiteSpace).length
        after (List.replicate n .skip)
          (if V.accepts .descendantCombinator then
            after [.markEnd] (ofBody V true (cells.drop n))
          else ofBody V false (cells.drop n))
      else if V.accepts .noWhitespace then after [.markEnd] (accept .noWhitespace)
      else ofBody V false cells := by
  cases cells with
  | nil => simp [ofCells, hr, overSpace, after]
  | cons c cells =>
    cases hc : Unicode.isWhiteSpace c.char with
    | true =>
      cases hd : V.accepts .descendantCombinator <;>
        simp [ofCells, hr, Cell.isWhiteSpace, hc, hd, overSpace, after]
    | false => simp [ofCells, hr, Cell.isWhiteSpace, hc, overSpace, after]

/-- The decision for a candidate set is made in one pass over the cells ahead. -/
theorem onePass_ofCells (V : Candidates) : OnePass (ofCells V) := by
  cases hr : V.inRecovery with
  | true =>
    rw [funext (ofCells_of_recovery hr)]
    exact OnePass.decline
  | false =>
    have hspaced : OnePass fun body =>
        if V.accepts .descendantCombinator then after [.markEnd] (ofBody V true body)
        else ofBody V false body := by
      split
      · exact (onePass_ofBody V true).mark
      · exact onePass_ofBody V false
    have hink : OnePass fun cells =>
        if V.accepts .noWhitespace then after [.markEnd] (accept .noWhitespace)
        else ofBody V false cells := by
      split
      · exact (OnePass.accept .noWhitespace).mark
      · exact onePass_ofBody V false
    rw [funext (ofCells_ite hr)]
    exact (hspaced.run (show Move.skip.consumes from rfl) Cell.isWhiteSpace).ite
      Unicode.isWhiteSpace hink

end Decision

end ScssTokens

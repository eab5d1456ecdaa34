import ScssTokens.Proofs.Segment.Length
import ScssTokens.Proofs.Stream.Marks

/-!
# The anatomy of a token

A token lies in the text ahead between four cuts: the whitespace before it, its own characters, the
characters that are looked at beyond its end, and the rest ahead of which the scan stops. What these
parts are made of depends on the kind of the token alone.

```text
  space   lexeme   look   rest
         [ token ]
```

## Main definitions

* `Kind.Anatomy` — the parts of the text around a token of a kind.
* `Decision.Dissects` — a decision for a token with its parts.

## Main statements

* `Decision.exists_dissects` — every decision for a token has such parts.
-/

namespace ScssTokens

open Decision

/-! ## The parts of a text around a token -/

/-- The characters that are passed in search of a block, and the rest where the block opens. -/
def BlockAhead (look rest : Text) : Prop :=
  (∀ c ∈ look, endsSearch c = false) ∧ rest.head? = some '{'

/-- A text at which a segment can start: neither its quote nor an interpolation is there. -/
def Quote.Opens (q : Quote) (t : Text) : Prop :=
  t.head? ≠ some q.char ∧ ¬ ['#', '{'] <+: t

/-- The end of a segment: its quote is ahead, or the `#` of an interpolation has been passed. -/
def Quote.Closes (q : Quote) (look rest : Text) : Prop :=
  look = [] ∧ rest.head? = some q.char ∨ look = ['#'] ∧ rest.head? = some '{'

/-- A segment from where it can start to its end. -/
def Quote.Segment (q : Quote) (lexeme look rest : Text) : Prop :=
  q.Opens (lexeme ++ (look ++ rest)) ∧ q.Closes look rest

/-- Where a segment ends no segment starts. -/
theorem Quote.Closes.not_opens {q : Quote} {look rest : Text} (h : q.Closes look rest) :
    ¬ q.Opens (look ++ rest) := by
  rintro ⟨hq, hi⟩
  obtain ⟨rfl, hr⟩ | ⟨rfl, hr⟩ := h
  · exact hq (by simpa using hr)
  · obtain ⟨t, rfl⟩ := List.head?_eq_some_iff.1 hr
    exact hi ⟨t, rfl⟩

theorem Quote.Segment.lexeme_ne_nil {q : Quote} {lexeme look rest : Text}
    (h : q.Segment lexeme look rest) : lexeme ≠ [] := by
  rintro rfl
  exact h.2.not_opens h.1

/-- A variable, past the dots after it that decide on its kind. -/
def Kind.Variable (k : Kind) (lexeme look rest : Text) : Prop :=
  let dots := ((look ++ rest).takeWhile (· == '.')).length
  ∃ name, lexeme = '$' :: name ∧ name.head?.any startsName ∧ (∀ c ∈ name, continuesName c) ∧
    (look ++ rest).head?.any continuesName = false ∧
    look = List.replicate (min dots restDots) '.' ∧ k = variableKind dots

/-- How the text around a token of a kind is made up. -/
def Kind.Anatomy (k : Kind) (space lexeme look rest : Text) : Prop :=
  match k with
  | .descendantCombinator =>
    space ≠ [] ∧ lexeme = [] ∧
      (look = [] ∧ rest.head?.any startsSelector ∨ ∃ t, look = ':' :: t ∧ BlockAhead t rest)
  | .pseudoClassColon =>
    lexeme = [':'] ∧
      (look ++ rest).head?.any (fun c => Unicode.isWhiteSpace c || c == ':') = false ∧
      BlockAhead look rest
  | .noWhitespace => space = [] ∧ lexeme = [] ∧ look = []
  | .singleQuotedSegment => Quote.single.Segment lexeme look rest
  | .doubleQuotedSegment => Quote.double.Segment lexeme look rest
  | .applyValue =>
    lexeme ≠ [] ∧ (∀ c ∈ lexeme, endsValue c = false) ∧ look = [] ∧ rest.head?.any closesValue
  | .plainVariable => Kind.plainVariable.Variable lexeme look rest
  | .restVariable => Kind.restVariable.Variable lexeme look rest

theorem Quote.anatomy_segmentKind (q : Quote) (space lexeme look rest : Text) :
    q.segmentKind.Anatomy space lexeme look rest ↔ q.Segment lexeme look rest := by
  cases q <;> rfl

theorem Kind.anatomy_variableKind (n : Nat) (space lexeme look rest : Text) :
    (variableKind n).Anatomy space lexeme look rest ↔
      (variableKind n).Variable lexeme look rest := by
  unfold variableKind
  split <;> rfl

/-! ## Cells and their characters -/

theorem head?_of_startsWith {a : Char} {cells : List Cell} (h : startsWith (· == a) cells = true) :
    (cells.map Cell.char).head? = some a := by
  rw [startsWith_eq_any] at h
  cases hc : (cells.map Cell.char).head? with
  | none => simp [hc] at h
  | some b =>
    have hb : b = a := by simpa [hc] using h
    rw [hb]

theorem map_takeWhile_append (p : Cell → Bool) (cells : List Cell) :
    cells.map Cell.char = (cells.takeWhile p).map Cell.char ++
      (cells.drop (cells.takeWhile p).length).map Cell.char := by
  rw [← List.map_append, drop_length_takeWhile, List.takeWhile_append_dropWhile]

theorem of_mem_map_takeWhile {p : Char → Bool} {cells : List Cell} {a : Char}
    (h : a ∈ (cells.takeWhile fun c => p c.char).map Cell.char) : p a = true := by
  obtain ⟨c, hc, rfl⟩ := List.mem_map.1 h
  exact List.all_eq_true.1 List.all_takeWhile c hc

namespace Decision

@[simp] theorem steps_advances (n : Nat) : Move.steps (advances n) = n :=
  Move.steps_replicate_advance n

@[simp] theorem lastMark_advances (n : Nat) : Move.lastMark (advances n) = none := by
  rw [← Option.not_isSome_iff_eq_none, Move.isSome_lastMark]
  simp [advances, List.mem_replicate]

/-- What a rule past some whitespace finds: a token with its parts, its end counted from there. -/
def Finds (space : Text) (body : List Cell) (d : Decision) : Prop :=
  ∀ k ∈ d.kind, ∃ lexeme look rest, body.map Cell.char = lexeme ++ (look ++ rest) ∧
    (Move.lastMark d.moves).getD 0 = lexeme.length ∧
    Move.steps d.moves = lexeme.length + look.length ∧ k.Anatomy space lexeme look rest

theorem finds_decline (space : Text) (body : List Cell) : decline.Finds space body := by
  rintro k ⟨⟩

/-! ## The rules -/

theorem blockAhead_of_seekBlock {j k : Kind} {cells : List Cell}
    (h : (seekBlock j cells).kind = some k) :
    k = j ∧ ∃ look rest, cells.map Cell.char = look ++ rest ∧
      Move.steps (seekBlock j cells).moves = look.length ∧ BlockAhead look rest := by
  obtain ⟨hb, hk⟩ := Option.ite_none_right_eq_some.1 h
  rw [blockFollows, ← drop_length_takeWhile] at hb
  refine ⟨(Option.some.inj hk).symm, _, _, map_takeWhile_append (fun c => !endsSearch c.char) cells,
    by simp [seekBlock, advances], ?_, head?_of_startsWith hb⟩
  intro a ha
  simpa using of_mem_map_takeWhile (p := fun c => !endsSearch c) ha

theorem finds_ofSpace {space : Text} (hspace : space ≠ []) {body : List Cell} {d : Decision}
    (h : ofSpace? body = some d) : d.Finds space body := by
  intro k hk
  cases body with
  | nil => cases h
  | cons c body =>
    simp only [ofSpace?] at h
    split at h
    · next hs =>
      cases h
      cases hk
      exact ⟨[], [], c.char :: body.map Cell.char, rfl, rfl, rfl, hspace, rfl, .inl ⟨rfl, by simpa⟩⟩
    · split at h
      · next hc =>
        split at h
        · cases h
          cases hk
        · cases h
          obtain ⟨rfl, look, rest, htext, hsteps, hblock⟩ := blockAhead_of_seekBlock hk
          refine ⟨[], ':' :: look, rest, by simp [hc, htext], ?_, ?_,
            hspace, rfl, .inr ⟨look, rfl, hblock⟩⟩
          · simp [Move.lastMark, seekBlock]
          · simp [hsteps]
      · cases h

theorem finds_ofColon (space : Text) {body : List Cell} {d : Decision}
    (h : ofColon? body = some d) : d.Finds space body := by
  intro k hk
  cases body with
  | nil => cases h
  | cons c body =>
    simp only [ofColon?] at h
    split at h
    · next hc =>
      split at h
      · cases h
        cases hk
      · next hn =>
        cases h
        obtain ⟨rfl, look, rest, htext, hsteps, hblock⟩ := blockAhead_of_seekBlock hk
        rw [startsWith_eq_any, htext, Bool.not_eq_true] at hn
        refine ⟨[':'], look, rest, by simp [hc, htext], ?_, ?_, rfl, hn, hblock⟩
        · simp [Move.lastMark, seekBlock]
        · simp [hsteps, Nat.add_comm]
    · cases h

/-- A name, from the first cell that starts one to the first that does not continue it. -/
theorem exists_name {body : List Cell} (h : startsWith startsName body = true) :
    let n := (body.takeWhile fun c => continuesName c.char).length
    ∃ name after, body.map Cell.char = name ++ after ∧ name.length = n ∧
      (body.drop n).map Cell.char = after ∧ name.head?.any startsName ∧
      (∀ c ∈ name, continuesName c) ∧ after.head?.any continuesName = false := by
  refine ⟨_, _, map_takeWhile_append (fun c => continuesName c.char) body, List.length_map _, rfl,
    ?_, fun c hc => of_mem_map_takeWhile hc, ?_⟩
  · cases body with
    | nil => cases h
    | cons c body =>
      have hc : startsName c.char := by simpa using h
      simp [continuesName_of_startsName hc, hc]
  · rw [drop_length_takeWhile, ← startsWith_eq_any]
    exact any_head?_dropWhile (fun c : Cell => continuesName c.char) body

/-- The first characters of a run of dots. -/
theorem take_dots {u : Text} {m : Nat} (h : m ≤ (u.takeWhile (· == '.')).length) :
    u.take m = List.replicate m '.' := by
  have hdot : ∀ c ∈ u.takeWhile (· == '.'), c = '.' := by
    intro c hc
    simpa using List.all_eq_true.1 List.all_takeWhile c hc
  have hrun : u.takeWhile (· == '.') = List.replicate (u.takeWhile (· == '.')).length '.' :=
    List.eq_replicate_iff.2 ⟨rfl, hdot⟩
  calc u.take m
      = (u.takeWhile (· == '.') ++ u.dropWhile (· == '.')).take m := by
        rw [List.takeWhile_append_dropWhile]
    _ = (u.takeWhile (· == '.')).take m := List.take_append_of_le_length h
    _ = List.replicate m '.' := by rw [hrun, List.take_replicate, Nat.min_eq_left h]

theorem finds_ofDollar (space : Text) {V : Candidates} {body : List Cell} {d : Decision}
    (h : ofDollar? V body = some d) : d.Finds space body := by
  intro k hk
  cases body with
  | nil => cases h
  | cons c body =>
    simp only [ofDollar?] at h
    split at h
    · next hc =>
      split at h
      · next hs =>
        cases h
        obtain ⟨-, hk⟩ := Option.ite_none_right_eq_some.1 hk
        obtain rfl := Option.some.inj hk
        obtain ⟨name, u, htext, hlength, hu, hfirst, hname, hend⟩ := exists_name hs
        have hdots : ((body.drop (body.takeWhile fun c => continuesName c.char).length).takeWhile
            fun c => c.char == '.').length = (u.takeWhile (· == '.')).length := by
          rw [← hu, List.takeWhile_map, List.length_map]
          rfl
        rw [hdots, ← hlength]
        let m := min (u.takeWhile (· == '.')).length restDots
        have hlook : u.take m = List.replicate m '.' := take_dots (Nat.min_le_left _ _)
        have hsplit : u.take m ++ u.drop m = u := List.take_append_drop m u
        refine ⟨'$' :: name, u.take m, u.drop m, by simp [hc, htext, hsplit], ?_, ?_, ?_⟩
        · simp [Move.lastMark_append, Move.lastMark, Nat.add_comm]
        · simp only [moves_after, Move.steps_append, Move.steps_advance_cons, Move.steps_nil,
            Move.steps_markEnd_cons, steps_advances, hlook, List.length_cons,
            List.length_replicate, m]
          omega
        · rw [Kind.anatomy_variableKind]
          refine ⟨name, rfl, hfirst, hname, ?_, ?_, ?_⟩ <;> rw [hsplit]
          · exact hend
          · exact hlook
      · cases h
        cases hk
    · cases h

/-- Where a segment ends and is a token, its end is marked and at most a `#` is consumed. -/
theorem moves_segmentEnd {q : Quote} {started : Bool} {c : Char}
    (h : (segmentEnd q started c).kind.isSome) :
    (segmentEnd q started c).moves = [.markEnd] ∧ c = q.char ∨
      (segmentEnd q started c).moves = [.markEnd, .advance] ∧ c = '#' := by
  unfold segmentEnd at h ⊢
  split
  · next hc => exact .inl ⟨rfl, hc⟩
  · split
    · next hc => exact .inr ⟨by split <;> rfl, hc⟩
    · simp_all

/-- A segment has its last mark where it closes. -/
theorem closes_restOfSegment {q : Quote} {backslash : Option Column} {started : Bool}
    {cells : List Cell} (h : (restOfSegment q backslash started cells).kind.isSome) :
    ∃ lexeme look rest, cells.map Cell.char = lexeme ++ (look ++ rest) ∧
      Move.lastMark (restOfSegment q backslash started cells).moves = some lexeme.length ∧
      Move.steps (restOfSegment q backslash started cells).moves = lexeme.length + look.length ∧
      q.Closes look rest := by
  induction cells generalizing backslash started with
  | nil => cases h
  | cons c cells ih =>
    cases he : endsSegment q backslash (c :: cells) with
    | true =>
      rw [restOfSegment_of_ends he] at h ⊢
      obtain ⟨hmoves, hc⟩ | ⟨hmoves, hc⟩ := moves_segmentEnd h
      · exact ⟨[], [], (c :: cells).map Cell.char, rfl, by simp [hmoves, Move.lastMark],
          by simp [hmoves], .inl ⟨rfl, by simp [hc]⟩⟩
      · have hb : startsWith (· == '{') cells := by
          simpa [hc, q.char_ne_hash.symm] using char_of_ends he
        exact ⟨[], ['#'], cells.map Cell.char, by simp [hc], by simp [hmoves, Move.lastMark],
          by simp [hmoves], .inr ⟨rfl, head?_of_startsWith hb⟩⟩
    | false =>
      rw [restOfSegment_of_not_ends he] at h ⊢
      obtain ⟨lexeme, look, rest, htext, hlast, hsteps, hclose⟩ := ih h
      refine ⟨c.char :: lexeme, look, rest, by simp [htext], ?_, ?_, hclose⟩
      · simp [Move.lastMark_append, hlast, Nat.add_comm]
      · simp [hsteps]
        omega

/-- A segment is found only where one can start. -/
theorem opens_of_ofSegment {q : Quote} {cells : List Cell} (h : (ofSegment q cells).kind.isSome) :
    q.Opens (cells.map Cell.char) := by
  unfold ofSegment at h
  split at h
  · cases h
  · next hq =>
    rw [startsWith_eq_any] at hq
    refine ⟨fun hhead => hq (by simp [hhead]), ?_⟩
    rintro ⟨t, ht⟩
    obtain ⟨c, cells, rfl⟩ : ∃ c cells', cells = c :: cells' := by
      cases cells with
      | nil => cases ht
      | cons c cells => exact ⟨c, cells, rfl⟩
    obtain ⟨hc, hb⟩ : '#' = c.char ∧ '{' :: t = cells.map Cell.char := by simpa using ht
    have hbrace : startsWith (· == '{') cells := by
      rw [startsWith_eq_any, ← hb]
      rfl
    have he : endsSegment q none (c :: cells) = true := by
      simp [endsSegment, isEscaped, ← hc, hbrace]
    rw [restOfSegment_of_ends he, ← hc] at h
    simp [segmentEnd, q.char_ne_hash.symm] at h

theorem finds_ofSegment (space : Text) (q : Quote) (body : List Cell) :
    (ofSegment q body).Finds space body := by
  intro k hk
  have hsome : (ofSegment q body).kind.isSome := Option.isSome_of_mem hk
  obtain rfl : k = q.segmentKind := (tidy_ofSegment q body).kind k hk
  have hopens := opens_of_ofSegment hsome
  have hrest : ofSegment q body = restOfSegment q none false body := by
    unfold ofSegment at hsome ⊢
    split at hsome
    · cases hsome
    · next hq => rw [if_neg hq]
  rw [hrest] at hsome ⊢
  obtain ⟨lexeme, look, rest, htext, hlast, hsteps, hclose⟩ := closes_restOfSegment hsome
  refine ⟨lexeme, look, rest, htext, by simp [hlast], hsteps, ?_⟩
  exact (q.anatomy_segmentKind ..).2 ⟨htext ▸ hopens, hclose⟩

theorem finds_ofValue (space : Text) (body : List Cell) : (ofValue body).Finds space body := by
  intro k hk
  unfold ofValue at hk ⊢
  dsimp only at hk ⊢
  split at hk
  · next h =>
    rw [if_pos h]
    cases hk
    obtain ⟨hne, hclose⟩ := h
    rw [startsWith_eq_any] at hclose
    refine ⟨_, [], _, map_takeWhile_append (fun c => !endsValue c.char) body, ?_, ?_,
      ?_, ?_, rfl, hclose⟩
    · simp [Move.lastMark_append, Move.lastMark]
    · simp
    · exact fun hnil => hne (by simpa using congrArg List.length hnil)
    · intro a ha
      simpa using of_mem_map_takeWhile (p := fun c => !endsValue c) ha
  · cases hk

/-! ## All decisions -/

theorem finds_ofInk (space : Text) (V : Candidates) (body : List Cell) :
    ∀ d ∈ ofInk V body, d.Finds space body :=
  forall_mem_ofInk (fun _ _ hd => finds_ofColon space hd) (fun _ hd => finds_ofDollar space hd)
    (fun q _ => finds_ofSegment space q body) (fun _ => finds_ofValue space body)

theorem finds_ofBody {V : Candidates} {spaced : Bool} {space : Text}
    (hspaced : spaced → space ≠ []) (body : List Cell) : (ofBody V spaced body).Finds space body :=
  getD_decline_of_forall
    (forall_mem_orElse (forall_mem_given fun hs _ hd => finds_ofSpace (hspaced hs) hd)
      (finds_ofInk space V body))
    (finds_decline space body)

/-- The parts into which a token of a kind divides the text ahead, and the moves of its decision:
the start is taken along over the space, the last mark stands after the lexeme, and the stream stops
before the rest. -/
structure Dissects (d : Decision) (text : Text) (k : Kind) (space lexeme look rest : Text) :
    Prop where
  text_eq : text = space ++ (lexeme ++ (look ++ rest))
  blank : ∀ c ∈ space, Unicode.isWhiteSpace c
  ink : (lexeme ++ (look ++ rest)).head?.any Unicode.isWhiteSpace = false
  lead : Move.lead d.moves = space.length
  lastMark : Move.lastMark d.moves = some (space.length + lexeme.length)
  steps : Move.steps d.moves = space.length + lexeme.length + look.length
  anatomy : k.Anatomy space lexeme look rest

namespace Dissects

variable {d : Decision} {text : Text} {k : Kind} {space lexeme look rest : Text}

theorem take_lead (h : d.Dissects text k space lexeme look rest) :
    text.take (Move.lead d.moves) = space := by
  rw [h.lead, h.text_eq]
  exact List.take_left

theorem take_lastMark (h : d.Dissects text k space lexeme look rest) :
    text.take ((Move.lastMark d.moves).getD (Move.steps d.moves)) = space ++ lexeme := by
  rw [h.lastMark, Option.getD_some, h.text_eq, ← List.append_assoc, ← List.length_append]
  exact List.take_left

theorem text_eq_append (h : d.Dissects text k space lexeme look rest) :
    text = space ++ lexeme ++ look ++ rest := by
  rw [h.text_eq, List.append_assoc, List.append_assoc]

theorem steps_eq_length (h : d.Dissects text k space lexeme look rest) :
    Move.steps d.moves = (space ++ lexeme ++ look).length := by
  rw [h.steps, List.length_append, List.length_append]

theorem take_steps (h : d.Dissects text k space lexeme look rest) :
    text.take (Move.steps d.moves) = space ++ lexeme ++ look := by
  rw [h.steps_eq_length, h.text_eq_append]
  exact List.take_left

theorem drop_steps (h : d.Dissects text k space lexeme look rest) :
    text.drop (Move.steps d.moves) = rest := by
  rw [h.steps_eq_length, h.text_eq_append]
  exact List.drop_left

end Dissects

/-- Every decision for a token divides the text ahead. -/
theorem exists_dissects {V : Candidates} {cells : List Cell} {k : Kind}
    (h : (ofCells V cells).kind = some k) :
    ∃ space lexeme look rest,
      (ofCells V cells).Dissects (cells.map Cell.char) k space lexeme look rest := by
  have hlead := lead_ofCells V cells
  have hmarked := marked_ofCells (Option.isSome_of_eq_some h)
  obtain ⟨-, hd⟩ | ⟨hr, hs, -, hd⟩ | ⟨hr, spaced, hspaced, hd⟩ := ofCells_cases V cells
  · rw [hd] at h
    cases h
  · rw [hd] at h ⊢
    cases h
    have hink : (cells.map Cell.char).head?.any Unicode.isWhiteSpace = false := by
      rw [← startsWith_eq_any]
      exact takeWhile_eq_nil_iff_head?.1 hs
    exact ⟨[], [], [], cells.map Cell.char, rfl, by simp, hink, rfl, rfl, rfl, rfl, rfl, rfl⟩
  · have hink : ((cells.drop (cells.takeWhile Cell.isWhiteSpace).length).map
        Cell.char).head?.any Unicode.isWhiteSpace = false := by
      rw [drop_length_takeWhile, ← startsWith_eq_any]
      exact any_head?_dropWhile Cell.isWhiteSpace cells
    rw [hr, if_neg Bool.false_ne_true] at hlead
    rw [hd] at h hlead hmarked ⊢
    obtain ⟨lexeme, look, rest, htext, hlast, hsteps, hanatomy⟩ :=
      finds_ofBody (fun hs => (hspaced hs).1 ∘ List.map_eq_nil_iff.1) _ k h
    refine ⟨(cells.takeWhile Cell.isWhiteSpace).map Cell.char, lexeme, look, rest, ?_,
      fun c => of_mem_map_takeWhile, htext ▸ hink, ?_, ?_, ?_, hanatomy⟩
    · rw [← htext, ← map_takeWhile_append]
    · rw [hlead, List.length_map]
    · rw [lastMark_after_overSpace hmarked, hlast, List.length_map]
    · rw [moves_after, Move.steps_append, steps_overSpace, hsteps, List.length_map]
      exact (Nat.add_assoc _ _ _).symm

end Decision

end ScssTokens

import ScssTokens.Proofs.Decision.Anatomy
import ScssTokens.Proofs.Scan.Extent

/-!
# Chains of scans

A host reads a text by scanning it again and again, each time at the end of the token before, with
whatever candidates its grammar has there. The tokens of such a chain tile the text: they do not
overlap, what lies between two of them is whitespace, and every scan makes progress unless it finds
the empty token which says that no whitespace stands here.

The progress has one reason for each kind of token, and the anatomy of the kind is what gives it. It
gives more: the text that a descendant combinator, the colon of a pseudo-class or a segment of a
string leaves ahead is one at which no token of the same kind starts.

## Main definitions

* `tokensFrom` — the tokens of a chain of scans.
* `Token.Lies` — the parts of a text around a token.
* `Token.Follows` — how a token may lie to the offset at which its scan was made.

## Main statements

* `exists_lies` — every token of a scan lies among such parts.
* `Kind.Anatomy.not_again` — which tokens cannot follow one of their own kind.
* `tokensFrom_tile` — the tokens of a chain tile the text.
-/

namespace ScssTokens

/-! ## The text around a token -/

/-- The parts of a text around a token, the text before the scan first. -/
structure Token.Lies (t : Token) (source before space lexeme look rest : Text) : Prop where
  source_eq : source = before ++ (space ++ (lexeme ++ (look ++ rest)))
  start_eq : t.span.start = Text.size (before ++ space)
  stop_eq : t.span.stop = Text.size (before ++ space ++ lexeme)
  blank : ∀ c ∈ space, Unicode.isWhiteSpace c
  ink : (lexeme ++ (look ++ rest)).head?.any Unicode.isWhiteSpace = false
  anatomy : t.kind.Anatomy space lexeme look rest

/-- The token of a scan lies in the text from the offset of the scan on. -/
theorem exists_lies {source : Text} {offset : Nat} {V : Candidates} {t : Token}
    (h : scanAt source offset V = some t) :
    ∃ space lexeme look rest, t.Lies source (source.takeBytes offset) space lexeme look rest := by
  rw [scanAt_eq_extent] at h
  obtain ⟨e, he, rfl⟩ := Option.map_eq_some_iff.1 h
  obtain ⟨k, hk, rfl⟩ := Option.map_eq_some_iff.1 he
  obtain ⟨space, lexeme, look, rest, hd⟩ := Decision.exists_dissects hk
  rw [Cell.map_char_ofText] at hd
  refine ⟨space, lexeme, look, rest, ?_, ?_, ?_, hd.blank, hd.ink, hd.anatomy⟩
  · rw [← hd.text_eq, source.takeBytes_append_dropBytes]
  · rw [Token.past, hd.take_lead, Text.size_append]
  · rw [Token.past, hd.take_lastMark, List.append_assoc, Text.size_append (source.takeBytes offset)]

/-- A scan at the end of a token starts with what was looked at beyond it. -/
theorem Token.Lies.dropBytes_stop {t : Token} {source before space lexeme look rest : Text}
    (h : t.Lies source before space lexeme look rest) :
    source.dropBytes t.span.stop = look ++ rest := by
  have hsource : source = before ++ space ++ lexeme ++ (look ++ rest) := by
    simp [h.source_eq]
  rw [h.stop_eq, hsource, Text.dropBytes_size_append]

/-- How a token lies to a place before it: it is within the text, between boundaries, past nothing
but whitespace, and its end is further on. The empty token that asserts the absence of whitespace is
the one that stays. -/
structure Token.Follows (t : Token) (source : Text) (place : Nat) : Prop where
  place_le_start : place ≤ t.span.start
  start_le_stop : t.span.start ≤ t.span.stop
  stop_le_size : t.span.stop ≤ source.size
  boundary_place : source.IsBoundary place
  boundary_start : source.IsBoundary t.span.start
  boundary_stop : source.IsBoundary t.span.stop
  gap : ∃ space, source.slice? place t.span.start = some space ∧ ∀ c ∈ space, Unicode.isWhiteSpace c
  progress : if t.kind = .noWhitespace then t.span.start = place ∧ t.span.stop = place
    else place < t.span.stop

/-- A token that is not the empty token for the absence of whitespace takes up some text, or the
whitespace before it does. -/
theorem Kind.Anatomy.ne_nil {k : Kind} {space lexeme look rest : Text}
    (h : k.Anatomy space lexeme look rest) (hk : k ≠ .noWhitespace) : space ++ lexeme ≠ [] := by
  cases k with
  | descendantCombinator =>
    obtain ⟨hspace, -⟩ := h
    simp [hspace]
  | pseudoClassColon =>
    obtain ⟨hlexeme, -⟩ := h
    simp [hlexeme]
  | noWhitespace => exact absurd rfl hk
  | singleQuotedSegment =>
    exact List.append_ne_nil_of_right_ne_nil _ (Quote.Segment.lexeme_ne_nil h)
  | doubleQuotedSegment =>
    exact List.append_ne_nil_of_right_ne_nil _ (Quote.Segment.lexeme_ne_nil h)
  | applyValue =>
    obtain ⟨hlexeme, -⟩ := h
    exact List.append_ne_nil_of_right_ne_nil _ hlexeme
  | plainVariable =>
    obtain ⟨name, hlexeme, -⟩ := h
    simp [hlexeme]
  | restVariable =>
    obtain ⟨name, hlexeme, -⟩ := h
    simp [hlexeme]

theorem Token.Lies.follows {t : Token} {source before space lexeme look rest : Text}
    (h : t.Lies source before space lexeme look rest) : t.Follows source before.size := by
  have hstart := h.start_eq
  have hstop := h.stop_eq
  have hsize := congrArg Text.size h.source_eq
  simp only [Text.size_append] at hstart hstop hsize
  refine ⟨by omega, by omega, by omega, ?_, ?_, ?_, ⟨space, ?_, h.blank⟩, ?_⟩
  · exact Text.isBoundary_iff.2 ⟨before, _, h.source_eq, rfl⟩
  · exact Text.isBoundary_iff.2
      ⟨before ++ space, lexeme ++ (look ++ rest), by simp [h.source_eq], h.start_eq.symm⟩
  · exact Text.isBoundary_iff.2
      ⟨before ++ space ++ lexeme, look ++ rest, by simp [h.source_eq], h.stop_eq.symm⟩
  · exact Text.slice?_eq_some_iff.2 ⟨before, _, h.source_eq, rfl, hstart.symm⟩
  · split
    · next hk =>
      have hanatomy := h.anatomy
      rw [hk] at hanatomy
      obtain ⟨rfl, rfl, -⟩ := hanatomy
      exact ⟨hstart, hstop⟩
    · next hk =>
      have hpos : 0 < Text.size (space ++ lexeme) :=
        Nat.pos_of_ne_zero (mt Text.size_eq_zero.1 (h.anatomy.ne_nil hk))
      rw [Text.size_append] at hpos
      omega

theorem follows_of_scanAt {source : Text} {offset : Nat} {V : Candidates} {t : Token}
    (hb : source.IsBoundary offset) (h : scanAt source offset V = some t) :
    t.Follows source offset := by
  obtain ⟨space, lexeme, look, rest, hl⟩ := exists_lies h
  have hf := hl.follows
  rwa [show Text.size (source.takeBytes offset) = offset from hb] at hf

/-! ## No token after one of its own kind -/

/-- The kinds of which no two tokens follow each other. -/
def Kind.Solitary (k : Kind) : Prop :=
  k = .descendantCombinator ∨ k = .pseudoClassColon ∨ k = .singleQuotedSegment ∨
    k = .doubleQuotedSegment

/-- Before a text that does not start with whitespace there is no whitespace. -/
theorem eq_nil_of_blank {space text : Text} (hblank : ∀ c ∈ space, Unicode.isWhiteSpace c)
    (hink : (space ++ text).head?.any Unicode.isWhiteSpace = false) : space = [] := by
  cases space with
  | nil => rfl
  | cons c space => simp [hblank c List.mem_cons_self] at hink

theorem Quote.Closes.head?_any_isWhiteSpace {q : Quote} {look rest : Text}
    (h : q.Closes look rest) : (look ++ rest).head?.any Unicode.isWhiteSpace = false := by
  have hquote : Unicode.isWhiteSpace q.char = false := by cases q <;> decide
  obtain ⟨rfl, hr⟩ | ⟨rfl, hr⟩ := h
  · simpa [hr] using hquote
  · rfl

/-- Two segments between the same quotes are not next to each other. -/
theorem Quote.Segment.not_again {q : Quote} {lexeme look rest space lexeme' look' rest' : Text}
    (h : q.Segment lexeme look rest) (h' : q.Segment lexeme' look' rest')
    (hblank : ∀ c ∈ space, Unicode.isWhiteSpace c)
    (htext : look ++ rest = space ++ (lexeme' ++ (look' ++ rest'))) : False := by
  have hink := h.2.head?_any_isWhiteSpace
  obtain rfl : space = [] := eq_nil_of_blank hblank (htext ▸ hink)
  have hopens : q.Opens (look ++ rest) := htext ▸ h'.1
  exact h.2.not_opens hopens

/-- Where a token of a solitary kind ends, no token of this kind starts. -/
theorem Kind.Anatomy.not_again {k : Kind} {space lexeme look rest space' lexeme' look' rest' : Text}
    (h : k.Anatomy space lexeme look rest) (h' : k.Anatomy space' lexeme' look' rest')
    (hink : (lexeme ++ (look ++ rest)).head?.any Unicode.isWhiteSpace = false)
    (hblank : ∀ c ∈ space', Unicode.isWhiteSpace c)
    (htext : look ++ rest = space' ++ (lexeme' ++ (look' ++ rest'))) : ¬ k.Solitary := by
  rintro (rfl | rfl | rfl | rfl)
  · -- the whitespace of the first token is the whole of it, and the second needs some too
    obtain ⟨-, rfl, -⟩ := h
    obtain ⟨hspace', -⟩ := h'
    exact hspace' (eq_nil_of_blank hblank (htext ▸ hink))
  · obtain ⟨-, hnext, -⟩ := h
    obtain ⟨rfl, -⟩ := h'
    rw [htext] at hnext
    cases space' with
    | nil => simp at hnext
    | cons c space' => simp [hblank c List.mem_cons_self] at hnext
  · exact Quote.Segment.not_again h h' hblank htext
  · exact Quote.Segment.not_again h h' hblank htext

theorem not_solitary_of_scanAt {source : Text} {offset : Nat} {V W : Candidates} {a b : Token}
    (ha : scanAt source offset V = some a) (hb : scanAt source a.span.stop W = some b)
    (hkind : a.kind = b.kind) : ¬ a.kind.Solitary := by
  obtain ⟨space, lexeme, look, rest, hl⟩ := exists_lies ha
  obtain ⟨space', lexeme', look', rest', hl'⟩ := exists_lies hb
  have hdrop : source.dropBytes a.span.stop = space' ++ (lexeme' ++ (look' ++ rest')) :=
    List.append_cancel_left ((source.takeBytes_append_dropBytes _).trans hl'.source_eq)
  rw [hl.dropBytes_stop] at hdrop
  exact hl.anatomy.not_again (hkind ▸ hl'.anatomy) hl.ink hl'.blank hdrop

/-! ## Chains -/

/-- The tokens of a chain of scans from a place on. Each scan has its own candidates and is made at
the end of the token before; the chain ends where a scan finds none. -/
def tokensFrom (source : Text) (place : Nat) : List Candidates → List Token
  | [] => []
  | V :: Vs =>
    match scanAt source place V with
    | none => []
    | some t => t :: tokensFrom source t.span.stop Vs

/-- The place that a chain from a place on has reached with some tokens: the end of the last. -/
def reached (place : Nat) : List Token → Nat
  | [] => place
  | t :: ts => reached t.span.stop ts

/-- The first token of a chain is found by a scan where the chain starts, and the others are a chain
from its end on. -/
theorem tokensFrom_eq_cons {source : Text} {place : Nat} {Vs : List Candidates} {t : Token}
    {ts : List Token} (h : tokensFrom source place Vs = t :: ts) :
    ∃ V Vs', scanAt source place V = some t ∧ tokensFrom source t.span.stop Vs' = ts := by
  cases Vs with
  | nil => cases h
  | cons V Vs =>
    rw [tokensFrom] at h
    split at h
    · cases h
    · next u hu =>
      obtain ⟨rfl, rfl⟩ := List.cons.inj h
      exact ⟨V, Vs, hu, rfl⟩

/-- Past some of its tokens a chain is a chain from the place reached on, a boundary again. -/
theorem tokensFrom_eq_append {source : Text} {place : Nat} (hb : source.IsBoundary place)
    {Vs : List Candidates} {ts us : List Token} (h : tokensFrom source place Vs = ts ++ us) :
    source.IsBoundary (reached place ts) ∧
      ∃ Vs', tokensFrom source (reached place ts) Vs' = us := by
  induction ts generalizing place Vs with
  | nil => exact ⟨hb, Vs, h⟩
  | cons t ts ih =>
    obtain ⟨V, Vs', ht, hts⟩ := tokensFrom_eq_cons h
    exact ih (follows_of_scanAt hb ht).boundary_stop hts

theorem follows_of_tokensFrom {source : Text} {place : Nat} (hb : source.IsBoundary place)
    {Vs : List Candidates} {ts us : List Token} {t : Token}
    (h : tokensFrom source place Vs = ts ++ t :: us) : t.Follows source (reached place ts) := by
  obtain ⟨hplace, Vs', hVs'⟩ := tokensFrom_eq_append hb h
  obtain ⟨V, -, ht, -⟩ := tokensFrom_eq_cons hVs'
  exact follows_of_scanAt hplace ht

/-- A chain goes on from where it starts, one token after another. -/
theorem ordered_tokensFrom {source : Text} {place : Nat} (hb : source.IsBoundary place)
    (Vs : List Candidates) :
    (∀ t ∈ tokensFrom source place Vs, place ≤ t.span.start) ∧
      (tokensFrom source place Vs).Pairwise fun a b => a.span.stop ≤ b.span.start := by
  fun_induction tokensFrom source place Vs with
  | case1 => simp
  | case2 => simp
  | case3 place V Vs t ht ih =>
    have hf := follows_of_scanAt hb ht
    obtain ⟨hfrom, hpairs⟩ := ih hf.boundary_stop
    refine ⟨?_, List.pairwise_cons.2 ⟨hfrom, hpairs⟩⟩
    intro u hu
    obtain rfl | hu := List.mem_cons.1 hu
    · exact hf.place_le_start
    · exact Nat.le_trans (Nat.le_trans hf.place_le_start hf.start_le_stop) (hfrom u hu)

/-- A token that takes up text, with the whitespace before it, leaves fewer characters ahead. -/
theorem length_dropBytes_lt {source : Text} {p q : Nat} (hp : source.IsBoundary p)
    (hq : source.IsBoundary q) (h : p < q) :
    (source.dropBytes q).length < (source.dropBytes p).length := by
  obtain ⟨l, r, rfl, rfl⟩ := Text.isBoundary_iff.1 hp
  obtain ⟨l', r', e, rfl⟩ := Text.isBoundary_iff.1 hq
  obtain ⟨m, rfl, rfl⟩ | ⟨m, rfl, rfl⟩ := List.append_eq_append_iff.1 e
  · have hm : m ≠ [] := by
      rintro rfl
      simp at h
    rw [← List.append_assoc, Text.dropBytes_size_append, List.append_assoc,
      Text.dropBytes_size_append, List.length_append]
    have := List.length_pos_iff.2 hm
    omega
  · rw [Text.size_append] at h
    omega

theorem length_tokensFrom_le {source : Text} {place : Nat} (hb : source.IsBoundary place)
    {Vs : List Candidates} (h : ∀ t ∈ tokensFrom source place Vs, t.kind ≠ .noWhitespace) :
    (tokensFrom source place Vs).length ≤ (source.dropBytes place).length := by
  fun_induction tokensFrom source place Vs with
  | case1 => exact Nat.zero_le _
  | case2 => exact Nat.zero_le _
  | case3 place V Vs t ht ih =>
    have hf := follows_of_scanAt hb ht
    obtain ⟨hkind, hrest⟩ := List.forall_mem_cons.1 h
    have hprogress := hf.progress
    rw [if_neg hkind] at hprogress
    have hlt := length_dropBytes_lt hb hf.boundary_stop hprogress
    have hle := ih hf.boundary_stop hrest
    rw [List.length_cons]
    omega

/-- Empty tokens for the absence of whitespace leave a chain where it is. -/
theorem reached_of_noWhitespace {source : Text} {place : Nat} (hb : source.IsBoundary place)
    {Vs : List Candidates} {ts us : List Token} (h : tokensFrom source place Vs = ts ++ us)
    (hts : ∀ t ∈ ts, t.kind = .noWhitespace) : reached place ts = place := by
  induction ts generalizing place Vs with
  | nil => rfl
  | cons t ts ih =>
    obtain ⟨V, Vs', ht, hVs'⟩ := tokensFrom_eq_cons h
    obtain ⟨hkind, hts⟩ := List.forall_mem_cons.1 hts
    have hprogress := (follows_of_scanAt hb ht).progress
    rw [if_pos hkind] at hprogress
    rw [reached, hprogress.2]
    rw [hprogress.2] at hVs'
    exact ih hb hVs' hts

/-- The tokens of a chain tile the text. Each one follows the place that the ones before it have
reached, and so they lie in order and apart from each other; without empty tokens for the absence of
whitespace there are no more of them than characters. Two tokens of one solitary kind do not follow
each other, nor do they with such empty tokens between them. -/
theorem tokensFrom_tile (source : Text) (place : Nat) (Vs : List Candidates)
    (hb : source.IsBoundary place) :
    let ts := tokensFrom source place Vs
    (∀ before t after, ts = before ++ t :: after → t.Follows source (reached place before)) ∧
    ts.Pairwise (fun a b => a.span.stop ≤ b.span.start) ∧
    ((∀ t ∈ ts, t.kind ≠ .noWhitespace) → ts.length ≤ (source.dropBytes place).length) ∧
    ∀ before a between b after, ts = before ++ a :: (between ++ b :: after) →
      (∀ t ∈ between, t.kind = .noWhitespace) → a.kind = b.kind → ¬ a.kind.Solitary := by
  refine ⟨fun before t after h => follows_of_tokensFrom hb h, (ordered_tokensFrom hb Vs).2,
    length_tokensFrom_le hb, ?_⟩
  intro before a between b after h hbetween hkind
  obtain ⟨hplace, Us, hUs⟩ := tokensFrom_eq_append hb h
  obtain ⟨V, Us', ha, hUs'⟩ := tokensFrom_eq_cons hUs
  have hstop := (follows_of_scanAt hplace ha).boundary_stop
  obtain ⟨-, Ws, hWs⟩ := tokensFrom_eq_append hstop hUs'
  rw [reached_of_noWhitespace hstop hUs' hbetween] at hWs
  obtain ⟨W, -, hb, -⟩ := tokensFrom_eq_cons hWs
  exact not_solitary_of_scanAt ha hb hkind

/-- A chain over the whitespace and the colon of a selector. -/
theorem tokensFrom_tile_selector :
    let source : Text := [' ', ':', 'a', '{']
    let ts := tokensFrom source 0 [.ofKind .descendantCombinator, .ofKind .noWhitespace,
      .ofKind .pseudoClassColon]
    source.IsBoundary 0 ∧
      ts = [⟨.descendantCombinator, 1, 1⟩, ⟨.noWhitespace, 1, 1⟩, ⟨.pseudoClassColon, 1, 2⟩] ∧
      ts.Pairwise (fun a b => a.span.stop ≤ b.span.start) ∧
      Token.Follows ⟨.pseudoClassColon, 1, 2⟩ source 1 := by
  intro source ts
  have hb : source.IsBoundary 0 := by decide
  have hts : ts =
      [⟨.descendantCombinator, 1, 1⟩, ⟨.noWhitespace, 1, 1⟩, ⟨.pseudoClassColon, 1, 2⟩] := by
    decide +kernel
  obtain ⟨hfollows, hordered, -⟩ := tokensFrom_tile source 0 _ hb
  exact ⟨hb, hts, hordered, hfollows [_, _] _ [] hts⟩

end ScssTokens

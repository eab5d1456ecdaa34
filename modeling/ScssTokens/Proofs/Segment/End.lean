import ScssTokens.Proofs.Scan.Calls
import ScssTokens.Proofs.Segment.Length
import ScssTokens.Proofs.Text.Column

/-!
# The end of a segment by index

The rule for a segment remembers the column of the last backslash and nothing else of what it has
passed. So where a segment ends can be said of the cells as they lie, index by index: which
characters are escaped, and which is the first of those that end a segment and are not. The columns
may be any whatever; they may repeat, jump, or stand at the limit.

## Main definitions

* `IsLastBackslash` — the last backslash before an index.
* `IsEscapedAt` — an index whose character is escaped.
* `IsSegmentEnd` — the first index at which a segment ends.

## Main statements

* `Decision.isSegmentEnd_iff` — the length that the rule counts is the index of the first end.
* `scan_segment_iff` — a scan for a segment finds the text from the first ink to the first end.
-/

namespace ScssTokens

/-! ## Indices into cells -/

/-- The character at an index. -/
def charAt? (cells : List Cell) (i : Nat) : Option Char := cells[i]?.map Cell.char

theorem lt_length_of_charAt? {cells : List Cell} {i : Nat} {a : Char}
    (h : charAt? cells i = some a) : i < cells.length := by
  obtain ⟨c, hc, -⟩ := Option.map_eq_some_iff.1 h
  exact (List.getElem?_eq_some_iff.1 hc).1

theorem exists_charAt? {cells : List Cell} {i : Nat} (h : i < cells.length) :
    ∃ a, charAt? cells i = some a :=
  ⟨cells[i].char, congrArg (Option.map Cell.char) (List.getElem?_eq_getElem h)⟩

/-- The last backslash before index `i`, looked for from `start` on, stands at index `j`. -/
structure IsLastBackslash (cells : List Cell) (start i j : Nat) : Prop where
  start_le : start ≤ j
  lt : j < i
  backslash : charAt? cells j = some '\\'
  last : ∀ m < i, j < m → charAt? cells m ≠ some '\\'

/-- The character at index `i` is escaped: it stands at the column after the one of the last
backslash before it, and that one is not the largest. -/
def IsEscapedAt (cells : List Cell) (start i : Nat) : Prop :=
  ∃ j, IsLastBackslash cells start i j ∧ ∃ b ∈ cells[j]?, ∃ c ∈ cells[i]?,
    b.column.toNat ≠ Column.limit ∧ c.column = b.column + 1

/-- A segment may end at index `i`: a quote, a newline or the start of an interpolation is there and
is not escaped. -/
structure EndsSegmentAt (q : Quote) (cells : List Cell) (start i : Nat) : Prop where
  start_le : start ≤ i
  bare : ¬ IsEscapedAt cells start i
  char : charAt? cells i = some q.char ∨ charAt? cells i = some '\n' ∨
    charAt? cells i = some '#' ∧ charAt? cells (i + 1) = some '{'

/-- Index `e` is the first at which a segment may end. -/
structure IsSegmentEnd (q : Quote) (cells : List Cell) (start e : Nat) : Prop where
  ends : EndsSegmentAt q cells start e
  least : ∀ i < e, ¬ EndsSegmentAt q cells start i

section

variable (q : Quote) (cells : List Cell) (start i j : Nat)

instance : Decidable (IsLastBackslash cells start i j) :=
  decidable_of_iff
    (start ≤ j ∧ j < i ∧ charAt? cells j = some '\\' ∧
      ∀ m < i, j < m → charAt? cells m ≠ some '\\')
    ⟨fun ⟨hs, hl, hb, hm⟩ => ⟨hs, hl, hb, hm⟩, fun ⟨hs, hl, hb, hm⟩ => ⟨hs, hl, hb, hm⟩⟩

instance : Decidable (IsEscapedAt cells start i) :=
  decidable_of_iff
    (∃ j < i, IsLastBackslash cells start i j ∧ ∃ b ∈ cells[j]?, ∃ c ∈ cells[i]?,
      b.column.toNat ≠ Column.limit ∧ c.column = b.column + 1)
    ⟨fun ⟨j, _, h⟩ => ⟨j, h⟩, fun ⟨j, h⟩ => ⟨j, h.1.lt, h⟩⟩

instance : Decidable (EndsSegmentAt q cells start i) :=
  decidable_of_iff
    (start ≤ i ∧ ¬ IsEscapedAt cells start i ∧
      (charAt? cells i = some q.char ∨ charAt? cells i = some '\n' ∨
        charAt? cells i = some '#' ∧ charAt? cells (i + 1) = some '{'))
    ⟨fun ⟨hs, hb, hc⟩ => ⟨hs, hb, hc⟩, fun ⟨hs, hb, hc⟩ => ⟨hs, hb, hc⟩⟩

instance : Decidable (IsSegmentEnd q cells start i) :=
  decidable_of_iff
    (EndsSegmentAt q cells start i ∧ ∀ e < i, ¬ EndsSegmentAt q cells start e)
    ⟨fun ⟨he, hl⟩ => ⟨he, hl⟩, fun ⟨he, hl⟩ => ⟨he, hl⟩⟩

end

theorem IsLastBackslash.unique {cells : List Cell} {start i j k : Nat}
    (hj : IsLastBackslash cells start i j) (hk : IsLastBackslash cells start i k) : j = k := by
  obtain hlt | heq | hgt := Nat.lt_trichotomy j k
  · exact absurd hk.backslash (hj.last k hk.lt hlt)
  · exact heq
  · exact absurd hj.backslash (hk.last j hj.lt hgt)

/-- A segment may end at a cell only. -/
theorem EndsSegmentAt.lt_length {q : Quote} {cells : List Cell} {start i : Nat}
    (h : EndsSegmentAt q cells start i) : i < cells.length := by
  obtain hc | hc | ⟨hc, -⟩ := h.char <;> exact lt_length_of_charAt? hc

/-! ## Cells past a start -/

theorem charAt?_drop (cells : List Cell) (m i : Nat) :
    charAt? (cells.drop m) i = charAt? cells (m + i) := by
  simp [charAt?]

theorem isLastBackslash_drop {cells : List Cell} {m i j : Nat} :
    IsLastBackslash (cells.drop m) 0 i j ↔ IsLastBackslash cells m (m + i) (m + j) := by
  constructor
  · intro h
    refine ⟨Nat.le_add_right m j, Nat.add_lt_add_left h.lt m, ?_, ?_⟩
    · rw [← charAt?_drop]
      exact h.backslash
    · intro k hk hjk
      obtain ⟨n, rfl⟩ := Nat.exists_eq_add_of_le (show m ≤ k by omega)
      rw [← charAt?_drop]
      exact h.last n (by omega) (by omega)
  · intro h
    refine ⟨Nat.zero_le j, by have := h.lt; omega, ?_, ?_⟩
    · rw [charAt?_drop]
      exact h.backslash
    · intro k hk hjk
      rw [charAt?_drop]
      exact h.last (m + k) (by omega) (by omega)

theorem isEscapedAt_drop {cells : List Cell} {m i : Nat} :
    IsEscapedAt (cells.drop m) 0 i ↔ IsEscapedAt cells m (m + i) := by
  constructor
  · rintro ⟨j, hj, hcolumns⟩
    refine ⟨m + j, isLastBackslash_drop.1 hj, ?_⟩
    simpa using hcolumns
  · rintro ⟨j, hj, hcolumns⟩
    obtain ⟨n, rfl⟩ := Nat.exists_eq_add_of_le hj.start_le
    refine ⟨n, isLastBackslash_drop.2 hj, ?_⟩
    simpa using hcolumns

theorem endsSegmentAt_drop {q : Quote} {cells : List Cell} {m i : Nat} :
    EndsSegmentAt q (cells.drop m) 0 i ↔ EndsSegmentAt q cells m (m + i) := by
  have hchar := charAt?_drop cells m i
  have hnext : charAt? (cells.drop m) (i + 1) = charAt? cells (m + i + 1) :=
    charAt?_drop cells m (i + 1)
  constructor
  · rintro ⟨-, hbare, hends⟩
    rw [hchar, hnext] at hends
    exact ⟨Nat.le_add_right m i, mt isEscapedAt_drop.2 hbare, hends⟩
  · rintro ⟨-, hbare, hends⟩
    rw [← hchar, ← hnext] at hends
    exact ⟨Nat.zero_le i, mt isEscapedAt_drop.1 hbare, hends⟩

/-- The first end past a start is the first end of the cells from there on. -/
theorem isSegmentEnd_drop {q : Quote} {cells : List Cell} {m e : Nat} :
    IsSegmentEnd q (cells.drop m) 0 e ↔ IsSegmentEnd q cells m (m + e) := by
  constructor
  · rintro ⟨hends, hleast⟩
    refine ⟨endsSegmentAt_drop.1 hends, fun i hi h => ?_⟩
    obtain ⟨n, rfl⟩ := Nat.exists_eq_add_of_le h.start_le
    exact hleast n (by omega) (endsSegmentAt_drop.2 h)
  · rintro ⟨hends, hleast⟩
    exact ⟨endsSegmentAt_drop.2 hends,
      fun i hi h => hleast (m + i) (by omega) (endsSegmentAt_drop.1 h)⟩

namespace Decision

/-! ## The last backslash -/

/-- One cell further on, the last backslash is that cell or the one before. -/
theorem lastBackslash_take_succ {cells : List Cell} {i : Nat} {c : Cell} (hc : cells[i]? = some c)
    (backslash : Option Column) :
    lastBackslash backslash (cells.take (i + 1)) =
      backslashAt (lastBackslash backslash (cells.take i)) c := by
  rw [lastBackslash, List.take_add_one, hc]
  simp [lastBackslash]

/-- What the rule remembers before an index is the column of the last backslash before it. -/
theorem lastBackslash_take_eq_some_iff {cells : List Cell} {i : Nat} (hi : i ≤ cells.length)
    {k : Column} :
    lastBackslash none (cells.take i) = some k ↔
      ∃ j, IsLastBackslash cells 0 i j ∧ cells[j]?.map Cell.column = some k := by
  induction i with
  | zero =>
    simp only [List.take_zero, lastBackslash, List.foldl_nil]
    constructor
    · rintro ⟨⟩
    · rintro ⟨j, hj, -⟩
      exact absurd hj.lt (Nat.not_lt_zero j)
  | succ i ih =>
    obtain ⟨c, hc⟩ : ∃ c, cells[i]? = some c := ⟨_, List.getElem?_eq_getElem hi⟩
    rw [lastBackslash_take_succ hc, backslashAt]
    split
    · next hb =>
      have hhere : IsLastBackslash cells 0 (i + 1) i :=
        ⟨Nat.zero_le i, Nat.lt_succ_self i, by simp [charAt?, hc, hb], by omega⟩
      constructor
      · intro hk
        exact ⟨i, hhere, by simpa [hc] using hk⟩
      · rintro ⟨j, hj, hk⟩
        obtain rfl := hj.unique hhere
        simpa [hc] using hk
    · next hb =>
      have hchar : charAt? cells i ≠ some '\\' := by simpa [charAt?, hc] using hb
      rw [ih (Nat.le_of_succ_le hi)]
      constructor
      · rintro ⟨j, hj, hk⟩
        refine ⟨j, ⟨hj.start_le, Nat.lt_succ_of_lt hj.lt, hj.backslash, fun m hm hjm => ?_⟩, hk⟩
        obtain hm | rfl := Nat.lt_succ_iff_lt_or_eq.1 hm
        · exact hj.last m hm hjm
        · exact hchar
      · rintro ⟨j, hj, hk⟩
        have hne : j ≠ i := by
          rintro rfl
          exact hchar hj.backslash
        have hlt := hj.lt
        exact ⟨j, ⟨hj.start_le, by omega, hj.backslash,
          fun m hm => hj.last m (Nat.lt_succ_of_lt hm)⟩, hk⟩

theorem isEscaped_iff {cells : List Cell} {i : Nat} {c : Cell} (hc : cells[i]? = some c) :
    isEscaped (lastBackslash none (cells.take i)) c.column = true ↔ IsEscapedAt cells 0 i := by
  have hi : i ≤ cells.length := Nat.le_of_lt (List.getElem?_eq_some_iff.1 hc).1
  constructor
  · intro h
    obtain ⟨k, hk, hp⟩ := (Option.any_eq_true _ _).1 h
    obtain ⟨j, hj, hcolumn⟩ := (lastBackslash_take_eq_some_iff hi).1 hk
    obtain ⟨b, hb, rfl⟩ := Option.map_eq_some_iff.1 hcolumn
    exact ⟨j, hj, b, hb, c, hc, Column.precedes_iff.1 (of_decide_eq_true hp)⟩
  · rintro ⟨j, hj, b, hb, c', hc', hp⟩
    obtain rfl : c = c' := Option.some.inj (hc.symm.trans hc')
    have hlast := (lastBackslash_take_eq_some_iff hi).2 ⟨j, hj, congrArg (Option.map _) hb⟩
    rw [hlast]
    exact decide_eq_true (Column.precedes_iff.2 hp)

/-! ## The first end -/

theorem startsWith_drop (p : Char → Bool) (cells : List Cell) (i : Nat) :
    startsWith p (cells.drop i) = (charAt? cells i).any p := by
  rw [startsWith, List.head?_drop, charAt?, Option.any_map]

theorem startsWith_drop_iff {a : Char} {cells : List Cell} {i : Nat} :
    startsWith (· == a) (cells.drop i) = true ↔ charAt? cells i = some a := by
  rw [startsWith_drop]
  cases charAt? cells i <;> simp

/-- The rule ends at an index, with the last backslash there, where a segment may end. -/
theorem endsSegment_iff (q : Quote) (cells : List Cell) (i : Nat) :
    endsSegment q (lastBackslash none (cells.take i)) (cells.drop i) = true ↔
      EndsSegmentAt q cells 0 i := by
  cases hc : cells[i]? with
  | none =>
    have hdrop : cells.drop i = [] := List.drop_eq_nil_of_le (List.getElem?_eq_none_iff.1 hc)
    have hchar : charAt? cells i = none := by simp [charAt?, hc]
    rw [hdrop]
    constructor
    · rintro ⟨⟩
    · intro h
      simpa [hchar] using h.char
  | some c =>
    obtain ⟨hi, rfl⟩ := List.getElem?_eq_some_iff.1 hc
    have hescaped := isEscaped_iff hc
    have hchar : charAt? cells i = some cells[i].char := congrArg (Option.map Cell.char) hc
    rw [List.drop_eq_getElem_cons hi, endsSegment]
    simp only [Bool.and_eq_true, Bool.or_eq_true, Bool.not_eq_true', beq_iff_eq,
      startsWith_drop_iff, or_assoc]
    rw [← Bool.not_eq_true, hescaped]
    constructor
    · rintro ⟨hbare, hends⟩
      exact ⟨Nat.zero_le i, hbare, by simpa [hchar] using hends⟩
    · intro h
      exact ⟨h.bare, by simpa [hchar] using h.char⟩

/-- The rule passes the cells before its length, and ends at the cell there if there is one. -/
theorem segmentLength_spec (q : Quote) (backslash : Option Column) (cells : List Cell) :
    let n := segmentLength q backslash cells
    (∀ i < n, endsSegment q (lastBackslash backslash (cells.take i)) (cells.drop i) = false) ∧
      (endsSegment q (lastBackslash backslash (cells.take n)) (cells.drop n) = true ∨
        n = cells.length) := by
  induction cells generalizing backslash with
  | nil => exact ⟨by simp [segmentLength], .inr rfl⟩
  | cons c cells ih =>
    cases h : endsSegment q backslash (c :: cells) with
    | true =>
      have hzero : segmentLength q backslash (c :: cells) = 0 := by simp [segmentLength, h]
      rw [hzero]
      exact ⟨by simp, .inl h⟩
    | false =>
      obtain ⟨hpassed, hend⟩ := ih (backslashAt backslash c)
      rw [segmentLength_cons h]
      refine ⟨?_, ?_⟩
      · intro i hi
        cases i with
        | zero => exact h
        | succ i => exact hpassed i (by omega)
      · simpa [lastBackslash] using hend

/-- The first end is where the rule ends, unless it runs to the end of the cells. -/
theorem isSegmentEnd_zero_iff {q : Quote} {cells : List Cell} {e : Nat} :
    IsSegmentEnd q cells 0 e ↔ segmentLength q none cells = e ∧ e < cells.length := by
  obtain ⟨hpassed, hend⟩ := segmentLength_spec q none cells
  simp only [endsSegment_iff, ← Bool.not_eq_true] at hpassed hend
  constructor
  · rintro ⟨hends, hleast⟩
    have hlt := hends.lt_length
    obtain hlt' | heq | hgt := Nat.lt_trichotomy (segmentLength q none cells) e
    · have hlength := hend.resolve_left (hleast _ hlt')
      omega
    · exact ⟨heq, hlt⟩
    · exact absurd hends (hpassed e hgt)
  · rintro ⟨rfl, hlt⟩
    exact ⟨hend.resolve_right (Nat.ne_of_lt hlt), hpassed⟩

theorem isSegmentEnd_iff {q : Quote} {cells : List Cell} {start e : Nat} :
    IsSegmentEnd q cells start e ↔
      start + segmentLength q none (cells.drop start) = e ∧ e < cells.length := by
  constructor
  · intro h
    have hlt := h.ends.lt_length
    obtain ⟨n, rfl⟩ := Nat.exists_eq_add_of_le h.ends.start_le
    rw [← isSegmentEnd_drop, isSegmentEnd_zero_iff] at h
    exact ⟨congrArg _ h.1, hlt⟩
  · rintro ⟨rfl, hlt⟩
    rw [← isSegmentEnd_drop, isSegmentEnd_zero_iff, List.length_drop]
    exact ⟨rfl, by omega⟩

/-- A segment starts at an index exactly if the first end from there on comes after it and is no
newline. -/
theorem isSegment_drop_iff {q : Quote} {cells : List Cell} {start : Nat} :
    isSegment q (cells.drop start) = true ↔
      ∃ e, IsSegmentEnd q cells start e ∧ start < e ∧ charAt? cells e ≠ some '\n' := by
  rw [isSegment, Bool.and_eq_true, bne_iff_ne, List.drop_drop, startsWith_drop]
  constructor
  · rintro ⟨hne, hchar⟩
    obtain ⟨a, ha, hn⟩ := (Option.any_eq_true _ _).1 hchar
    refine ⟨_, isSegmentEnd_iff.2 ⟨rfl, lt_length_of_charAt? ha⟩, by omega, ?_⟩
    simpa [ha] using hn
  · rintro ⟨e, he, hlt, hn⟩
    obtain ⟨rfl, hlength⟩ := isSegmentEnd_iff.1 he
    obtain ⟨a, ha⟩ := exists_charAt? hlength
    exact ⟨by omega, by simpa [ha] using hn⟩

end Decision

/-! ## Scans -/

/-- A scan for a segment over any cells. It skips the whitespace ahead, and from the first cell past
it looks for the first quote, newline or start of an interpolation that is not escaped. There is a
segment exactly if there is such an end, it comes after the start and is no newline. The end is then
the last mark, so the segment takes up the cells from the start to the end. -/
theorem scan_segment_iff (q : Quote) (cells : List Cell) :
    let start := (cells.takeWhile Cell.isWhiteSpace).length
    let (kind, tape) := CharStream.scan (.ofKind q.segmentKind) (Tape.ofCells cells)
    (kind = some q.segmentKind ↔
      ∃ e, IsSegmentEnd q cells start e ∧ start < e ∧ charAt? cells e ≠ some '\n') ∧
    (kind ≠ some q.segmentKind → kind = none) ∧
    ∀ e, IsSegmentEnd q cells start e → kind.isSome →
      Move.lead tape.log.toList = start ∧ tape.mark = some e := by
  intro start
  dsimp only
  have hextent : (Decision.ofCells (.ofKind q.segmentKind) cells).extent = _ :=
    Decision.extent_ofCells_segment q cells
  have hkind : (CharStream.scan (.ofKind q.segmentKind) (Tape.ofCells cells)).1 =
      (Decision.ofCells (.ofKind q.segmentKind) cells).kind := rfl
  rw [hkind, Tape.log_scan, Tape.mark_scan, ← Decision.isSegment_drop_iff]
  dsimp only at hextent
  split at hextent
  · next hs =>
    obtain ⟨hsome, hlead, hmark⟩ := Decision.of_extent_ofCells hextent
    rw [hsome, hlead, hmark]
    refine ⟨⟨fun _ => hs, fun _ => rfl⟩, fun hne => absurd rfl hne, fun e he _ => ⟨rfl, ?_⟩⟩
    exact congrArg some (Decision.isSegmentEnd_iff.1 he).1
  · next hs =>
    rw [Decision.extent_eq_none_iff.1 hextent]
    exact ⟨⟨nofun, fun h => absurd h hs⟩, fun _ => rfl, nofun⟩

/-- A backslash escapes the quote in the column after its own, be it next to it or not. -/
example : IsSegmentEnd .single [⟨'\\', 4⟩, ⟨'a', 9⟩, ⟨'\'', 5⟩, ⟨'\'', 6⟩] 0 3 := by
  decide

end ScssTokens

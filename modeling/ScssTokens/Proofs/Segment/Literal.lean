import ScssTokens.Proofs.Segment.Length
import ScssTokens.Proofs.Text.Column

/-!
# Literal content

Content that escapes its quotes, newlines and interpolations is one segment: written before a quote
or before an interpolation it is found again, whole and alone. There is one exception. The last
backslash is remembered by its column only, so when it escapes a newline, it goes on to escape the
character in the column after it on the next line, and an end that stands there is read over.

## Main definitions

* `IsLiteral` — content in which everything that could end a segment is escaped.
* `StaleBackslash` — the last backslash of some content escapes what comes after the content.

## Main statements

* `scanAt_literal_iff` — literal content is found again exactly if it leaves no stale backslash.
-/

namespace ScssTokens

/-- Content of a segment between two quotes. It starts with a character that is not white space, it
does not end in a backslash, and a backslash comes directly before each quote, each newline and each
opening of an interpolation. -/
structure IsLiteral (q : Quote) (t : Text) : Prop where
  starts : t.head?.any (fun a => !Unicode.isWhiteSpace a) = true
  ends : t.getLast? ≠ some '\\'
  quote : ∀ i < t.length, t[i]? = some q.char → (t.take i).getLast? = some '\\'
  newline : ∀ i < t.length, t[i]? = some '\n' → (t.take i).getLast? = some '\\'
  interpolation : ∀ i < t.length,
    t[i]? = some '#' → t[i + 1]? = some '{' → (t.take i).getLast? = some '\\'

/-- The last backslash of some content escapes a newline, and the line after it ends in the column
after the one where that backslash stands. -/
def StaleBackslash (before c : Text) : Prop :=
  ∃ u v, c = u ++ '\\' :: '\n' :: v ∧ '\\' ∉ v ∧
    (Column.ofText (before ++ u)).toNat + 1 = v.length

instance (before c : Text) : Decidable (StaleBackslash before c) :=
  decidable_of_iff
    (∃ i < c.length, c = c.take i ++ '\\' :: '\n' :: c.drop (i + 2) ∧ '\\' ∉ c.drop (i + 2) ∧
      (Column.ofText (before ++ c.take i)).toNat + 1 = (c.drop (i + 2)).length)
    ⟨fun ⟨i, _, hc, hv, hk⟩ => ⟨c.take i, c.drop (i + 2), hc, hv, hk⟩, by
      rintro ⟨u, v, rfl, hv, hk⟩
      exact ⟨u.length, by simp, by simp, by simpa using hv, by simpa using hk⟩⟩

/-- A list that ends in an element of its first part has nothing in the second. -/
theorem eq_nil_of_getLast? {α : Type} {u v : List α} {x : α} (h : (u ++ v).getLast? = some x)
    (hv : x ∉ v) : v = [] := by
  rw [List.getLast?_append] at h
  cases hl : v.getLast? with
  | none => exact List.getLast?_eq_none_iff.1 hl
  | some y =>
    have hy : y = x := by simpa [hl] using h
    exact absurd (List.mem_of_getLast? hl) (hy ▸ hv)

namespace IsLiteral

variable {q : Quote} {c : Text}

instance (t : Text) : Decidable (IsLiteral q t) :=
  decidable_of_iff
    (t.head?.any (fun a => !Unicode.isWhiteSpace a) = true ∧ t.getLast? ≠ some '\\' ∧
      (∀ i < t.length, t[i]? = some q.char → (t.take i).getLast? = some '\\') ∧
      (∀ i < t.length, t[i]? = some '\n' → (t.take i).getLast? = some '\\') ∧
      ∀ i < t.length,
        t[i]? = some '#' → t[i + 1]? = some '{' → (t.take i).getLast? = some '\\')
    ⟨fun ⟨hs, he, hq, hn, hi⟩ => ⟨hs, he, hq, hn, hi⟩,
      fun ⟨hs, he, hq, hn, hi⟩ => ⟨hs, he, hq, hn, hi⟩⟩

theorem exists_head (h : IsLiteral q c) : ∃ a t, c = a :: t ∧ Unicode.isWhiteSpace a = false := by
  obtain ⟨a, ha, hs⟩ := (Option.any_eq_true _ _).1 h.starts
  obtain ⟨t, ht⟩ := List.head?_eq_some_iff.1 ha
  exact ⟨a, t, ht, by simpa using hs⟩

theorem getLast_before_quote (h : IsLiteral q c) {u v : Text} (hc : c = u ++ q.char :: v) :
    u.getLast? = some '\\' := by
  subst hc
  simpa using h.quote u.length (by simp) (by simp)

theorem getLast_before_newline (h : IsLiteral q c) {u v : Text} (hc : c = u ++ '\n' :: v) :
    u.getLast? = some '\\' := by
  subst hc
  simpa using h.newline u.length (by simp) (by simp)

theorem getLast_before_interpolation (h : IsLiteral q c) {u v : Text}
    (hc : c = u ++ '#' :: '{' :: v) : u.getLast? = some '\\' := by
  subst hc
  simpa using h.interpolation u.length (by simp) (by simp) (by simp)

/-- After its last backslash literal content has no newline but the one that is escaped. -/
theorem of_newline_mem (h : IsLiteral q c) {u v : Text} (hc : c = u ++ '\\' :: v)
    (hv : '\\' ∉ v) (hn : '\n' ∈ v) : ∃ w, v = '\n' :: w ∧ '\n' ∉ w := by
  obtain ⟨a, w, rfl, -⟩ := List.eq_append_cons_of_mem hn
  have hlast : ((u ++ ['\\']) ++ a).getLast? = some '\\' :=
    h.getLast_before_newline (v := w) (by simp [hc])
  have ha : '\\' ∉ a := by
    intro ha
    exact hv (by simp [ha])
  obtain rfl : a = [] := eq_nil_of_getLast? hlast ha
  refine ⟨w, rfl, ?_⟩
  -- a second newline would need a backslash after the last one
  intro hw
  obtain ⟨b, w', rfl, -⟩ := List.eq_append_cons_of_mem hw
  have hlast' : ((u ++ ['\\']) ++ '\n' :: b).getLast? = some '\\' :=
    h.getLast_before_newline (v := w') (by simp [hc])
  have hb : '\\' ∉ '\n' :: b := by
    intro hb
    exact hv (by simp_all)
  cases eq_nil_of_getLast? hlast' hb

end IsLiteral

namespace Decision

/-! ## The last backslash of a text -/

/-- The column of the last backslash of a text that starts at column `k`. -/
def backslashAfter (k : Column) (t : Text) : Option Column :=
  (Cell.ofText k t).foldl backslashAt none

theorem backslashAfter_concat (k : Column) (t : Text) (c : Char) :
    backslashAfter k (t ++ [c]) =
      if c = '\\' then some (Column.afterText k t) else backslashAfter k t := by
  simp [backslashAfter, backslashAt]

theorem backslashAfter_append_of_not_mem (k : Column) (u : Text) {v : Text} (hv : '\\' ∉ v) :
    backslashAfter k (u ++ v) = backslashAfter k u := by
  induction v generalizing u with
  | nil => simp
  | cons c v ih =>
    obtain ⟨hc, hv⟩ : ¬ '\\' = c ∧ '\\' ∉ v := by simpa using hv
    rw [List.append_cons, ih _ hv, backslashAfter_concat, if_neg (Ne.symm hc)]

theorem backslashAfter_of_last (k : Column) (u : Text) {v : Text} (hv : '\\' ∉ v) :
    backslashAfter k (u ++ '\\' :: v) = some (Column.afterText k u) := by
  rw [List.append_cons, backslashAfter_append_of_not_mem k _ hv, backslashAfter_concat, if_pos rfl]

theorem exists_of_backslashAfter {k j : Column} {t : Text} (h : backslashAfter k t = some j) :
    ∃ u v, t = u ++ '\\' :: v ∧ '\\' ∉ v ∧ j = Column.afterText k u := by
  by_cases ht : '\\' ∈ t
  · obtain ⟨v, u, hr, hv⟩ := List.eq_append_cons_of_mem (List.mem_reverse.2 ht)
    have htr : t = u.reverse ++ '\\' :: v.reverse := by
      rw [← List.reverse_reverse t, hr]
      simp
    have hvr : '\\' ∉ v.reverse := by simpa using hv
    rw [htr, backslashAfter_of_last k _ hvr] at h
    exact ⟨_, _, htr, hvr, (Option.some.inj h).symm⟩
  · rw [← List.nil_append t, backslashAfter_append_of_not_mem k [] ht] at h
    cases h

/-- The column after an escaped newline and a line is the length of the line. -/
theorem toNat_ofText_escaped (before u : Text) {v : Text} (hn : '\n' ∉ v)
    (hv : v.length ≤ Column.limit) :
    (Column.ofText (before ++ (u ++ '\\' :: '\n' :: v))).toNat = v.length := by
  have hsplit : before ++ (u ++ '\\' :: '\n' :: v) = (before ++ u ++ ['\\']) ++ '\n' :: v := by
    simp
  rw [hsplit, Column.toNat_ofText_line _ hn hv]

/-- A backslash escapes the character directly after it. -/
theorem isEscaped_after_backslash {k : Column} {u : Text} (hu : u.getLast? = some '\\')
    (hk : k.toNat + u.length ≤ Column.limit) :
    isEscaped (backslashAfter k u) (Column.afterText k u) = true := by
  obtain ⟨u, rfl⟩ := List.getLast?_eq_some_iff.1 hu
  have hle := Column.toNat_afterText_le k u
  have hlt : (Column.afterText k u).toNat < Column.limit := by
    simp only [List.length_append, List.length_singleton] at hk
    omega
  have hnext := Column.precedes_after (show '\\' ≠ '\n' by decide) hlt
  rw [backslashAfter_concat, if_pos rfl, Column.afterText_append]
  exact decide_eq_true hnext

/-- The last backslash of literal content escapes what comes after the content exactly if it is
stale. -/
theorem isEscaped_end_iff {q : Quote} {before c : Text} (h : IsLiteral q c)
    (hlen : (before ++ c).length < Column.limit) :
    isEscaped (backslashAfter (Column.ofText before) c) (Column.ofText (before ++ c)) = true ↔
      StaleBackslash before c := by
  constructor
  · intro he
    obtain ⟨j, hj, hp⟩ := (Option.any_eq_true _ _).1 he
    obtain ⟨u, v, rfl, hv, rfl⟩ := exists_of_backslashAfter hj
    rw [← Column.ofText_append] at hp
    have hp' := of_decide_eq_true hp
    simp only [Column.Precedes, List.length_append, List.length_cons] at hp' hlen
    by_cases hn : '\n' ∈ v
    · obtain ⟨w, rfl, hw⟩ := h.of_newline_mem rfl hv hn
      simp only [List.length_cons] at hlen
      have hw' : '\\' ∉ w := by
        intro hm
        exact hv (List.mem_cons_of_mem _ hm)
      refine ⟨u, w, rfl, hw', ?_⟩
      rw [hp', toNat_ofText_escaped before u hw (by omega)]
    · -- On one line only the next character has the next column, so nothing follows the backslash.
      have hu := Column.toNat_ofText_le (before ++ u)
      rw [List.length_append] at hu
      have hend : (Column.ofText (before ++ (u ++ '\\' :: v))).toNat =
          (Column.ofText (before ++ u)).toNat + (v.length + 1) := by
        rw [← List.append_assoc, Column.ofText_append, Column.toNat_afterText_line]
        · rfl
        · simpa using hn
        · simp only [List.length_cons]
          omega
      obtain rfl : v = [] := List.length_eq_zero_iff.1 (by omega)
      exact absurd (by simp) h.ends
  · rintro ⟨u, v, rfl, hv, hk⟩
    obtain ⟨w, hw, hn⟩ := h.of_newline_mem rfl (by simpa using hv) List.mem_cons_self
    obtain rfl : v = w := (List.cons.inj hw).2
    simp only [List.length_append, List.length_cons] at hlen
    have hv' : '\\' ∉ '\n' :: v := by simpa using hv
    have hend := toNat_ofText_escaped before u hn (by omega)
    rw [backslashAfter_of_last _ _ hv', ← Column.ofText_append]
    exact decide_eq_true (hk.trans hend.symm)

/-! ## The segment of literal content -/

/-- No segment ends inside literal content. -/
theorem endsSegment_literal {q : Quote} {c u v r : Text} {a : Char} {k : Column}
    (h : IsLiteral q c) (hc : c = u ++ a :: v) (hr : r.head? ≠ some '{')
    (hk : k.toNat + c.length ≤ Column.limit) :
    endsSegment q (backslashAfter k u) (Cell.ofText (Column.afterText k u) (a :: v ++ r)) =
      false := by
  have hku : k.toNat + u.length ≤ Column.limit := by
    simp only [hc, List.length_append] at hk
    omega
  have hescaped : u.getLast? = some '\\' →
      isEscaped (backslashAfter k u) (Column.afterText k u) = true := by
    intro hu
    exact isEscaped_after_backslash hu hku
  rw [List.cons_append, Cell.ofText_cons, endsSegment]
  by_cases hq : a = q.char
  · subst hq
    simp [hescaped (h.getLast_before_quote hc)]
  by_cases hn : a = '\n'
  · subst hn
    simp [hescaped (h.getLast_before_newline hc)]
  by_cases hi : a = '#' ∧ v.head? = some '{'
  · obtain ⟨rfl, hv⟩ := hi
    obtain ⟨v, rfl⟩ := List.head?_eq_some_iff.1 hv
    simp [hescaped (h.getLast_before_interpolation hc)]
  · have hb : a = '#' → (v ++ r).head? ≠ some '{' := by
      intro ha
      cases v with
      | nil => exact hr
      | cons b v => simpa [ha] using hi
    have hopen : a = '#' → startsWith (· == '{')
        (Cell.ofText (Column.after a (Column.afterText k u)) (v ++ r)) = false := by
      intro ha
      rw [startsWith_ofText]
      cases hd : (v ++ r).head? with
      | none => rfl
      | some b => simpa [hd] using hb ha
    simpa [hq, hn] using fun _ => hopen

/-- A segment goes on to the end of literal content. -/
theorem segmentLength_literal {q : Quote} {c u v r : Text} {k : Column} (h : IsLiteral q c)
    (hc : c = u ++ v) (hr : r.head? ≠ some '{') (hk : k.toNat + c.length ≤ Column.limit) :
    segmentLength q (backslashAfter k u) (Cell.ofText (Column.afterText k u) (v ++ r)) =
      v.length +
        segmentLength q (backslashAfter k c) (Cell.ofText (Column.afterText k c) r) := by
  induction v generalizing u with
  | nil => simp [hc]
  | cons a v ih =>
    have hends := endsSegment_literal h hc hr hk
    rw [List.cons_append, Cell.ofText_cons] at hends ⊢
    have hcell : backslashAt (backslashAfter k u) ⟨a, Column.afterText k u⟩ =
        backslashAfter k (u ++ [a]) := (backslashAfter_concat k u a).symm
    have hcolumn : Column.after a (Column.afterText k u) = Column.afterText k (u ++ [a]) := by
      simp
    rw [segmentLength_cons hends, hcell, hcolumn, ih (u := u ++ [a]) (by simp [hc])]
    simp only [List.length_cons]
    omega

end Decision

/-- A scan of literal content goes on past the content to the next end. -/
theorem scanAt_literal {q : Quote} {before c r : Text} (h : IsLiteral q c)
    (hr : r.head? ≠ some '{') (hlen : (before ++ c).length < Column.limit) :
    let cells := Cell.ofText (Column.ofText (before ++ c)) r
    let n := Decision.segmentLength q (Decision.backslashAfter (Column.ofText before) c) cells
    scanAt (before ++ (c ++ r)) before.size (.ofKind q.segmentKind) =
      if startsWith (· ≠ '\n') (cells.drop n) then
        some ⟨q.segmentKind, before.size, before.size + (c ++ r.take n).size⟩
      else none := by
  intro cells n
  obtain ⟨a, t, hc, ha⟩ := h.exists_head
  have hk : (Column.ofText before).toNat + c.length ≤ Column.limit := by
    have hb := Column.toNat_ofText_le before
    rw [List.length_append] at hlen
    omega
  have hcells : Cell.ofText (Column.ofText before) (c ++ r) =
      Cell.ofText (Column.ofText before) c ++ cells := by
    rw [Cell.ofText_append, ← Column.ofText_append]
  have hspace : (Cell.ofText (Column.ofText before) (c ++ r)).takeWhile Cell.isWhiteSpace = [] := by
    rw [Cell.takeWhile_isWhiteSpace_eq_nil]
    simpa [hc] using ha
  have hlength : Decision.segmentLength q none (Cell.ofText (Column.ofText before) (c ++ r)) =
      c.length + n := by
    have hl := Decision.segmentLength_literal (u := []) h rfl hr hk
    rwa [← Column.ofText_append before c] at hl
  have hdrop :
      (Cell.ofText (Column.ofText before) (c ++ r)).drop (c.length + n) = cells.drop n := by
    rw [hcells, ← List.drop_drop]
    simp
  have hne : c.length ≠ 0 := by simp [hc]
  have hsegment : Decision.isSegment q (Cell.ofText (Column.ofText before) (c ++ r)) =
      startsWith (· ≠ '\n') (cells.drop n) := by
    rw [Decision.isSegment, hlength, hdrop]
    simp [hne]
  rw [scanAt_append_eq_extent, Decision.extent_ofCells_segment, hspace]
  simp only [List.length_nil, List.drop_zero, hsegment, hlength]
  split
  · simp [Token.past, List.take_length_add_append]
  · rfl

/-- Past literal content the token ends before an end that is not escaped, and reads over one that
is. -/
theorem scanAt_literal_end_iff {q : Quote} {before c r : Text} (h : IsLiteral q c)
    (hlen : (before ++ c).length < Column.limit) {a : Char}
    (ha : a = q.char ∨ a = '#' ∧ r.head? = some '{') :
    scanAt (before ++ (c ++ a :: r)) before.size (.ofKind q.segmentKind) =
        some ⟨q.segmentKind, before.size, before.size + c.size⟩ ↔
      ¬ StaleBackslash before c := by
  have hhead : (a :: r).head? ≠ some '{' := by
    rintro ⟨⟩
    obtain ha | ⟨ha, -⟩ := ha
    · exact q.char_ne_brace ha.symm
    · exact absurd ha (by decide)
  have hn : a ≠ '\n' := by
    rintro rfl
    obtain ha | ⟨ha, -⟩ := ha
    · exact q.char_ne_newline ha.symm
    · exact absurd ha (by decide)
  rw [scanAt_literal h hhead hlen, ← Decision.isEscaped_end_iff h hlen, Cell.ofText_cons]
  generalize Column.ofText (before ++ c) = k
  generalize Decision.backslashAfter (Column.ofText before) c = backslash
  cases he : Decision.isEscaped backslash k with
  | true =>
    have hends : Decision.endsSegment q backslash (⟨a, k⟩ :: Cell.ofText (Column.after a k) r) =
        false := by
      simp [Decision.endsSegment, he]
    have hpos := a.utf8Size_pos
    rw [Decision.segmentLength_cons hends, List.take_succ_cons]
    constructor
    · intro hs
      split at hs
      · simp only [Option.some.injEq, Token.mk.injEq, Span.mk.injEq, Text.size_append,
          Text.size_cons] at hs
        omega
      · cases hs
    · intro hfalse
      exact absurd rfl hfalse
  | false =>
    have hends : Decision.endsSegment q backslash (⟨a, k⟩ :: Cell.ofText (Column.after a k) r) =
        true := by
      obtain rfl | ⟨rfl, hb⟩ := ha
      · simp [Decision.endsSegment, he]
      · simp [Decision.endsSegment, he, Decision.startsWith_ofText, hb]
    simp [Decision.segmentLength, hends, hn]

/-- Content that escapes its quotes, its newlines and its interpolations is found again, before the
quote and before an interpolation alike, exactly if its last backslash is not stale. Without an end
it is not found. -/
theorem scanAt_literal_iff {q : Quote} {before c : Text} (h : IsLiteral q c)
    (hlen : (before ++ c).length < Column.limit) (t : Text) :
    let V := Candidates.ofKind q.segmentKind
    let token : Token := ⟨q.segmentKind, before.size, before.size + c.size⟩
    (scanAt (before ++ (c ++ q.char :: t)) before.size V = some token ↔
        ¬ StaleBackslash before c) ∧
      (scanAt (before ++ (c ++ '#' :: '{' :: t)) before.size V = some token ↔
        ¬ StaleBackslash before c) ∧
      scanAt (before ++ c) before.size V = none := by
  refine ⟨scanAt_literal_end_iff h hlen (.inl rfl), ?_, ?_⟩
  · exact scanAt_literal_end_iff h hlen (.inr ⟨rfl, rfl⟩)
  · have hend := scanAt_literal (r := []) h (by simp) hlen
    simpa [Decision.segmentLength] using hend

/-- A quote on the next line ends the segment after an escaped newline. -/
theorem scanAt_two_lines :
    IsLiteral .single ['a', '\\', '\n', 'b'] ∧
      scanAt ['a', '\\', '\n', 'b', '\''] 0 (.ofKind .singleQuotedSegment) =
        some ⟨.singleQuotedSegment, 0, 4⟩ := by
  have h : IsLiteral .single ['a', '\\', '\n', 'b'] := by decide
  exact ⟨h, (@scanAt_literal_iff .single [] _ h (by decide) []).1.2 (by decide)⟩

/-- One character more on that line, and the quote stands in the column after that of the
backslash: it does not end the segment. -/
theorem scanAt_stale_backslash :
    IsLiteral .single ['a', '\\', '\n', 'b', 'c'] ∧
      scanAt ['a', '\\', '\n', 'b', 'c', '\''] 0 (.ofKind .singleQuotedSegment) = none := by
  decide

end ScssTokens

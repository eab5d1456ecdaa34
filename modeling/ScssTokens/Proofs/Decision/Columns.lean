import ScssTokens.Proofs.Segment.Length
import ScssTokens.Proofs.Text.Column

/-!
# What columns matter for

Only the rule for a segment looks at columns, to tell an escaped character from a bare one. All
other rules see the characters of the cells alone.

Even a segment does not depend on the columns as such. Within a line the character after a backslash
is escaped and no other is, wherever the line starts; and a segment leaves its line only through a
newline that is escaped. Where no newline comes right after a backslash, two runs of the rule over
one text therefore agree from any two columns, unless a count reaches the limit.

## Main statements

* `Decision.ofBody_congr` — the rules past the whitespace over cells with the same characters.
* `Decision.restOfSegment_congr` — the rule for a segment from two columns.
* `Decision.ofCells_congr` — a decision before one text from two columns.
-/

namespace ScssTokens.Decision

section

variable {a b : List Cell}

/-! ## Rules that do not look at columns -/

theorem startsWith_congr (p : Char → Bool) (h : a.map Cell.char = b.map Cell.char) :
    startsWith p a = startsWith p b := by
  rw [startsWith_eq_any, startsWith_eq_any, h]

theorem length_takeWhile_congr (p : Char → Bool) (h : a.map Cell.char = b.map Cell.char) :
    (a.takeWhile fun c => p c.char).length = (b.takeWhile fun c => p c.char).length := by
  have hlength (cells : List Cell) : (cells.takeWhile fun c => p c.char).length =
      ((cells.map Cell.char).takeWhile p).length := by
    rw [List.takeWhile_map, List.length_map]
    rfl
  rw [hlength, hlength, h]

theorem map_char_drop_congr (n : Nat) (h : a.map Cell.char = b.map Cell.char) :
    (a.drop n).map Cell.char = (b.drop n).map Cell.char := by
  rw [List.map_drop, List.map_drop, h]

theorem seekBlock_congr (k : Kind) (h : a.map Cell.char = b.map Cell.char) :
    seekBlock k a = seekBlock k b := by
  have hn := length_takeWhile_congr (fun c => !endsSearch c) h
  have hb : blockFollows a = blockFollows b := by
    rw [blockFollows, blockFollows, ← drop_length_takeWhile, ← drop_length_takeWhile, hn]
    exact startsWith_congr _ (map_char_drop_congr _ h)
  rw [seekBlock, seekBlock, hn, hb]

theorem ofSpace_congr (h : a.map Cell.char = b.map Cell.char) : ofSpace? a = ofSpace? b := by
  cases a with
  | nil => simp_all [List.map_eq_nil_iff.1 h.symm]
  | cons c a =>
    obtain ⟨d, b, rfl, hd, hb⟩ := List.map_eq_cons_iff.1 h.symm
    simp only [ofSpace?, hd, startsWith_congr Unicode.isWhiteSpace hb.symm,
      seekBlock_congr .descendantCombinator hb.symm]

theorem ofColon_congr (h : a.map Cell.char = b.map Cell.char) : ofColon? a = ofColon? b := by
  cases a with
  | nil => simp_all [List.map_eq_nil_iff.1 h.symm]
  | cons c a =>
    obtain ⟨d, b, rfl, hd, hb⟩ := List.map_eq_cons_iff.1 h.symm
    simp only [ofColon?, hd, startsWith_congr _ hb.symm, seekBlock_congr .pseudoClassColon hb.symm]

theorem ofDollar_congr_cells (V : Candidates) (h : a.map Cell.char = b.map Cell.char) :
    ofDollar? V a = ofDollar? V b := by
  cases a with
  | nil => simp_all [List.map_eq_nil_iff.1 h.symm]
  | cons c a =>
    obtain ⟨d, b, rfl, hd, hb⟩ := List.map_eq_cons_iff.1 h.symm
    have hname := length_takeWhile_congr continuesName hb.symm
    have hdots (n : Nat) := length_takeWhile_congr (· == '.') (map_char_drop_congr n hb.symm)
    simp only [ofDollar?, hd, startsWith_congr startsName hb.symm, hname, hdots]

theorem ofValue_congr (h : a.map Cell.char = b.map Cell.char) : ofValue a = ofValue b := by
  have hn := length_takeWhile_congr (fun c => !endsValue c) h
  simp only [ofValue, hn, startsWith_congr closesValue (map_char_drop_congr _ h)]

theorem given_congr {candidate : Bool} {rule : List Cell → Option Decision}
    (h : candidate → rule a = rule b) : given candidate rule a = given candidate rule b := by
  cases candidate with
  | false => rfl
  | true => exact h rfl

/-- Over cells with the same characters the rules past the whitespace decide alike if those for
segments do, where they are asked. -/
theorem ofBody_congr {V : Candidates} (spaced : Bool) (h : a.map Cell.char = b.map Cell.char)
    (hsegment : ∀ q : Quote, V.accepts q.segmentKind → ofSegment q a = ofSegment q b) :
    ofBody V spaced a = ofBody V spaced b := by
  have hsingle : given (V.accepts .singleQuotedSegment) (some ∘ ofSegment .single) a =
      given (V.accepts .singleQuotedSegment) (some ∘ ofSegment .single) b :=
    given_congr fun hv => congrArg some (hsegment .single hv)
  have hdouble : given (V.accepts .doubleQuotedSegment) (some ∘ ofSegment .double) a =
      given (V.accepts .doubleQuotedSegment) (some ∘ ofSegment .double) b :=
    given_congr fun hv => congrArg some (hsegment .double hv)
  have hvalue : given (V.accepts .applyValue) (some ∘ ofValue) a =
      given (V.accepts .applyValue) (some ∘ ofValue) b :=
    given_congr fun _ => congrArg some (ofValue_congr h)
  rw [ofBody, ofBody, given_congr fun _ => ofSpace_congr h, given_congr fun _ => ofColon_congr h,
    given_congr fun _ => ofDollar_congr_cells V h, hsingle, hdouble, hvalue]

end

/-! ## Segments within a line -/

/-- Whether a newline comes right after a backslash. -/
def BreaksLine (t : Text) : Prop := ['\\', '\n'] <:+: t

instance (t : Text) : Decidable (BreaksLine t) := inferInstanceAs (Decidable (_ <:+: _))

/-- A place within a line: the last backslash, if there is one, is behind, no escaped newline is
ahead, and no count in the text ahead passes the limit. -/
structure WithinLine (backslash : Option Column) (k : Column) (t : Text) : Prop where
  behind : ∀ j ∈ backslash, j.toNat < k.toNat
  line : isEscaped backslash k → t.head? ≠ some '\n'
  room : k.toNat + t.length ≤ Column.limit

/-- Past a character other than a newline the next one is escaped exactly after a backslash. -/
theorem WithinLine.isEscaped_after {backslash : Option Column} {k : Column} {c : Char} {t : Text}
    (h : WithinLine backslash k (c :: t)) (hc : c ≠ '\n') :
    isEscaped (backslashAt backslash ⟨c, k⟩) (Column.after c k) = decide (c = '\\') := by
  have hroom := h.room
  rw [List.length_cons] at hroom
  have hk : k.toNat + 1 = (Column.after c k).toNat := Column.precedes_after hc (by omega)
  by_cases hb : c = '\\'
  · simp [backslashAt, isEscaped, Column.Precedes, hb, hb ▸ hk]
  · cases hj : backslash with
    | none => simp [backslashAt, isEscaped, hb]
    | some j =>
      have hlt := h.behind j hj
      have hne : ¬ Column.Precedes j (Column.after c k) := by
        unfold Column.Precedes
        omega
      simp [backslashAt, isEscaped, hb, hne]

/-- Past a character other than a newline the place is within the line still. -/
theorem WithinLine.next {backslash : Option Column} {k : Column} {c : Char} {t : Text}
    (h : WithinLine backslash k (c :: t)) (hc : c ≠ '\n') (ht : ¬ BreaksLine (c :: t)) :
    WithinLine (backslashAt backslash ⟨c, k⟩) (Column.after c k) t := by
  have hroom := h.room
  rw [List.length_cons] at hroom
  have hk : k.toNat + 1 = (Column.after c k).toNat := Column.precedes_after hc (by omega)
  refine ⟨?_, ?_, by omega⟩
  · intro j hj
    unfold backslashAt at hj
    split at hj
    · cases hj
      exact Nat.lt_of_succ_le (Nat.le_of_eq hk)
    · have := h.behind j hj
      omega
  · intro hescaped hhead
    rw [h.isEscaped_after hc, decide_eq_true_iff] at hescaped
    obtain ⟨t, rfl⟩ := List.head?_eq_some_iff.1 hhead
    exact ht (hescaped ▸ ⟨[], t, rfl⟩)

theorem not_breaksLine_tail {c : Char} {t : Text} (h : ¬ BreaksLine (c :: t)) : ¬ BreaksLine t :=
  fun hb => h (hb.trans (List.suffix_cons c t).isInfix)

/-- Over one text the rule for a segment decides alike from two places within a line, if the
character ahead is escaped at both or at neither. -/
theorem restOfSegment_congr {q : Quote} {t : Text} (ht : ¬ BreaksLine t) {j j' : Option Column}
    {k k' : Column} (h : WithinLine j k t) (h' : WithinLine j' k' t)
    (hescaped : isEscaped j k = isEscaped j' k') (started : Bool) :
    restOfSegment q j started (Cell.ofText k t) =
      restOfSegment q j' started (Cell.ofText k' t) := by
  induction t generalizing j j' k k' started with
  | nil => rfl
  | cons c t ih =>
    simp only [Cell.ofText_cons, restOfSegment]
    rw [hescaped]
    by_cases hc : c = '\n'
    · -- a newline is not escaped, and the segment ends here without a token
      have hline : isEscaped j' k' = false := by
        rw [Bool.eq_false_iff]
        exact fun he => h'.line he (congrArg some hc)
      simp [hline, hc, q.char_ne_newline.symm]
    · have hrest := ih (not_breaksLine_tail ht) (h.next hc ht) (h'.next hc ht)
        ((h.isEscaped_after hc).trans (h'.isEscaped_after hc).symm)
      simp only [backslashAt] at hrest
      have hopens : startsWith (· == '{') (Cell.ofText (Column.after c k) t) =
          startsWith (· == '{') (Cell.ofText (Column.after c k') t) :=
        startsWith_congr _ (by simp)
      simp only [hrest, hopens]

/-- Over one text the rule for a segment decides alike from two columns. -/
theorem ofSegment_congr (q : Quote) {t : Text} (ht : ¬ BreaksLine t) {k k' : Column}
    (hk : k.toNat + t.length ≤ Column.limit) (hk' : k'.toNat + t.length ≤ Column.limit) :
    ofSegment q (Cell.ofText k t) = ofSegment q (Cell.ofText k' t) := by
  have hplace {k : Column} (hk : k.toNat + t.length ≤ Column.limit) : WithinLine none k t :=
    ⟨by simp, by simp [isEscaped], hk⟩
  have hquote : startsWith (· == q.char) (Cell.ofText k t) =
      startsWith (· == q.char) (Cell.ofText k' t) :=
    startsWith_congr _ (by simp)
  rw [ofSegment, ofSegment, hquote, restOfSegment_congr ht (hplace hk) (hplace hk') rfl]

/-! ## All decisions -/

/-- Whitespace, newlines and all, takes up as much of the room below the limit as it gives free. -/
theorem room_past_space {k : Column} {t : Text} (h : k.toNat + t.length ≤ Column.limit) :
    (Column.afterText k (t.takeWhile Unicode.isWhiteSpace)).toNat +
      (t.dropWhile Unicode.isWhiteSpace).length ≤ Column.limit := by
  have hcolumn := Column.toNat_afterText_le k (t.takeWhile Unicode.isWhiteSpace)
  have hlength := congrArg List.length
    (List.takeWhile_append_dropWhile (p := Unicode.isWhiteSpace) (l := t))
  rw [List.length_append] at hlength
  omega

/-- Before one text the decision for a candidate set is the same from two columns if no segment is
among the candidates, or else no newline comes right after a backslash and no count reaches the
limit. -/
theorem ofCells_congr {V : Candidates} {t : Text} {k k' : Column}
    (h : (∀ q : Quote, V.accepts q.segmentKind = false) ∨
      ¬ BreaksLine t ∧ k.toNat + t.length ≤ Column.limit ∧ k'.toNat + t.length ≤ Column.limit) :
    ofCells V (Cell.ofText k t) = ofCells V (Cell.ofText k' t) := by
  have hchars : (Cell.ofText k t).map Cell.char = (Cell.ofText k' t).map Cell.char := by simp
  have hlength : ((Cell.ofText k t).takeWhile Cell.isWhiteSpace).length =
      ((Cell.ofText k' t).takeWhile Cell.isWhiteSpace).length :=
    length_takeWhile_congr Unicode.isWhiteSpace hchars
  have hempty : ((Cell.ofText k t).takeWhile Cell.isWhiteSpace).isEmpty =
      ((Cell.ofText k' t).takeWhile Cell.isWhiteSpace).isEmpty := by
    rw [Bool.eq_iff_iff, List.isEmpty_iff_length_eq_zero, List.isEmpty_iff_length_eq_zero, hlength]
  have hspace (spaced : Bool) : overSpace spaced ((Cell.ofText k t).takeWhile Cell.isWhiteSpace) =
      overSpace spaced ((Cell.ofText k' t).takeWhile Cell.isWhiteSpace) := by
    rw [overSpace, overSpace, hlength]
  have hbody (spaced : Bool) :
      ofBody V spaced ((Cell.ofText k t).dropWhile Cell.isWhiteSpace) =
        ofBody V spaced ((Cell.ofText k' t).dropWhile Cell.isWhiteSpace) := by
    rw [Cell.dropWhile_isWhiteSpace_ofText, Cell.dropWhile_isWhiteSpace_ofText]
    refine ofBody_congr spaced (by simp) fun q hq => ?_
    obtain hnone | ⟨ht, hk, hk'⟩ := h
    · simp [hnone q] at hq
    · have hbreaks : ¬ BreaksLine (t.dropWhile Unicode.isWhiteSpace) :=
        fun hb => ht (hb.trans (List.dropWhile_suffix _).isInfix)
      exact ofSegment_congr q hbreaks (room_past_space hk) (room_past_space hk')
  rw [← drop_length_takeWhile, ← drop_length_takeWhile] at hbody
  simp only [ofCells, hempty, hspace, hbody]

end ScssTokens.Decision

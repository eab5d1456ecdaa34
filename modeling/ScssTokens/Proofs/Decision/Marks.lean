import ScssTokens.Proofs.Decision.Order
import ScssTokens.Proofs.Stream.Marks

/-!
# The marks of a decision

A decision may mark more than once: the whitespace is marked before the rules past it are asked, and
the rule for a segment marks at every bare `#`. It never marks one place twice. Past the whitespace
only a `#` is marked before anything is consumed, and where whitespace stands before a `#`, the rule
for whitespace has decided.

## Main definitions

* `Decision.MarksOnce` — the marks of a rule past the whitespace.

## Main statements

* `Decision.increasing_marks_ofCells` — the marks of a decision stand at ascending indices.
-/

namespace ScssTokens.Decision

open Move

/-- No place is marked twice, and the place before the cells is marked before a `#` only. -/
structure MarksOnce (cells : List Cell) (d : Decision) : Prop where
  increasing : (marks d.moves).Pairwise (· < ·)
  first : 0 ∈ marks d.moves → startsWith (· == '#') cells

@[simp] theorem marks_advances (n : Nat) : marks (advances n) = [] :=
  marks_eq_nil (by simp [advances, List.mem_replicate])

@[simp] theorem marks_advances_append (n : Nat) (ms : List Move) :
    marks (advances n ++ ms) = (marks ms).map (n + ·) := by
  rw [marks_append, marks_advances, advances, steps_replicate_advance, List.nil_append]

@[simp] theorem marks_skips (n : Nat) : marks (List.replicate n .skip) = [] :=
  marks_eq_nil (by simp [List.mem_replicate])

/-- Marks past a number of characters ascend if they do so counted from there. -/
theorem increasing_map_add {ns : List Nat} (h : ns.Pairwise (· < ·)) (m : Nat) :
    (ns.map (m + ·)).Pairwise (· < ·) :=
  List.pairwise_map.2 (h.imp (by omega))

variable {cells : List Cell} {d : Decision}

theorem marksOnce_of_marks_eq_nil (h : marks d.moves = []) : d.MarksOnce cells := by
  constructor <;> simp [h]

/-- A single mark past the first character. -/
theorem marksOnce_of_marks_eq {n : Nat} (h : marks d.moves = [n + 1]) : d.MarksOnce cells := by
  constructor <;> simp [h]

/-! ## The rules -/

@[simp] theorem marks_seekBlock (k : Kind) (cells : List Cell) :
    marks (seekBlock k cells).moves = [] :=
  marks_advances _

theorem marks_ofSpace (h : ofSpace? cells = some d) : marks d.moves = [] := by
  cases cells with
  | nil => cases h
  | cons c cells =>
    simp only [ofSpace?] at h
    split at h
    · cases h
      rfl
    · split at h
      · cases h
        split <;> simp
      · cases h

/-- The rule for a colon marks past it, unless whitespace or a second colon comes next. -/
theorem marks_ofColon (h : ofColon? cells = some d) :
    marks d.moves =
      if startsWith (fun c => Unicode.isWhiteSpace c || c == ':') cells.tail then []
      else [1] := by
  cases cells with
  | nil => cases h
  | cons c cells =>
    simp only [ofColon?] at h
    split at h
    · cases h
      split <;> simp_all
    · cases h

theorem marksOnce_ofColon (h : ofColon? cells = some d) : d.MarksOnce cells := by
  have hmarks := marks_ofColon h
  split at hmarks
  · exact marksOnce_of_marks_eq_nil hmarks
  · exact marksOnce_of_marks_eq hmarks

/-- The rule for a dollar sign marks past the name, if there is one. -/
theorem marks_ofDollar {V : Candidates} (h : ofDollar? V cells = some d) :
    marks d.moves =
      if startsWith startsName cells.tail then
        [(cells.tail.takeWhile fun c => continuesName c.char).length + 1]
      else [] := by
  cases cells with
  | nil => cases h
  | cons c cells =>
    simp only [ofDollar?] at h
    split at h
    · cases h
      split <;> simp_all
    · cases h

theorem marksOnce_ofDollar {V : Candidates} (h : ofDollar? V cells = some d) :
    d.MarksOnce cells := by
  have hmarks := marks_ofDollar h
  split at hmarks
  · exact marksOnce_of_marks_eq hmarks
  · exact marksOnce_of_marks_eq_nil hmarks

theorem marksOnce_ofValue (cells : List Cell) : (ofValue cells).MarksOnce cells := by
  unfold ofValue
  dsimp only
  split
  · next h =>
    obtain ⟨n, hn⟩ := Nat.exists_eq_succ_of_ne_zero h.1
    exact marksOnce_of_marks_eq (n := n) (by simp [hn])
  · exact marksOnce_of_marks_eq_nil (by simp)

theorem marks_segmentStep (backslash : Option Column) (c : Cell) :
    marks (segmentStep backslash c) = if isBareHash backslash c then [0] else [] := by
  unfold segmentStep
  split <;> simp

theorem marks_segmentEnd (q : Quote) (started : Bool) (c : Char) :
    marks (segmentEnd q started c).moves = if c = q.char ∨ c = '#' then [0] else [] := by
  unfold segmentEnd
  split
  · simp_all
  · split
    · split <;> simp_all
    · simp_all

/-- The rule for a segment consumes at least one character between two marks. -/
theorem increasing_marks_restOfSegment (q : Quote) (backslash : Option Column) (started : Bool)
    (cells : List Cell) :
    (marks (restOfSegment q backslash started cells).moves).Pairwise (· < ·) := by
  induction cells generalizing backslash started with
  | nil => exact List.Pairwise.nil
  | cons c cells ih =>
    cases he : endsSegment q backslash (c :: cells) with
    | true =>
      rw [restOfSegment_of_ends he, marks_segmentEnd]
      split <;> simp
    | false =>
      have hrest := increasing_map_add (ih (backslashAt backslash c) true) 1
      rw [restOfSegment_of_not_ends he, moves_after, marks_append, marks_segmentStep,
        steps_segmentStep]
      split
      · refine List.Pairwise.cons (fun n hn => ?_) hrest
        obtain ⟨m, -, rfl⟩ := List.mem_map.1 hn
        omega
      · exact hrest

theorem marksOnce_ofSegment (q : Quote) (cells : List Cell) :
    (ofSegment q cells).MarksOnce cells := by
  unfold ofSegment
  split
  · exact marksOnce_of_marks_eq_nil rfl
  · next hq =>
    refine ⟨increasing_marks_restOfSegment q none false cells, fun hfirst => ?_⟩
    cases cells with
    | nil => cases hfirst
    | cons c cells =>
      have hc : c.char ≠ q.char := by simpa using hq
      rw [startsWith_cons, beq_iff_eq]
      cases he : endsSegment q none (c :: cells) with
      | true =>
        rw [restOfSegment_of_ends he, marks_segmentEnd] at hfirst
        simpa [hc] using hfirst
      | false =>
        rw [restOfSegment_of_not_ends he, moves_after, marks_append, marks_segmentStep] at hfirst
        have hhash : isBareHash none c := by simpa using hfirst
        simpa [isBareHash, isEscaped] using hhash

/-! ## All decisions -/

theorem marksOnce_ofInk (V : Candidates) (cells : List Cell) :
    ∀ d ∈ ofInk V cells, d.MarksOnce cells :=
  forall_mem_ofInk (fun _ _ hd => marksOnce_ofColon hd) (fun _ hd => marksOnce_ofDollar hd)
    (fun q _ => marksOnce_ofSegment q cells) (fun _ => marksOnce_ofValue cells)

/-- Past whitespace that has been marked, no rule marks before it consumes. -/
theorem marks_ofBody (V : Candidates) (spaced : Bool) (body : List Cell) :
    (marks (ofBody V spaced body).moves).Pairwise (· < ·) ∧
      (spaced → 0 ∉ marks (ofBody V spaced body).moves) := by
  rw [ofBody_eq]
  cases hs : given spaced ofSpace? body with
  | some d =>
    have hd : marks d.moves = [] := by
      cases spaced with
      | false => cases hs
      | true => exact marks_ofSpace hs
    simp [hd]
  | none =>
    have hink : ((ofInk V body).getD decline).MarksOnce body :=
      getD_decline_of_forall (marksOnce_ofInk V body) (marksOnce_of_marks_eq_nil rfl)
    refine ⟨hink.increasing, ?_⟩
    rintro rfl hfirst
    -- before a `#` the rule for whitespace would have applied
    have hspace := isSome_ofSpace body
    rw [given_true] at hs
    have hhash := hink.first hfirst
    cases body with
    | nil => cases hhash
    | cons c body =>
      have hc : c.char = '#' := by simpa using hhash
      simp [hs, hc] at hspace

theorem marks_overSpace (spaced : Bool) (space : List Cell) :
    marks (overSpace spaced space) = if spaced then [space.length] else [] := by
  cases spaced <;> simp [overSpace, marks_append]

/-- The marks of a decision stand at ascending indices. -/
theorem increasing_marks_ofCells (V : Candidates) (cells : List Cell) :
    (marks (ofCells V cells).moves).Pairwise (· < ·) := by
  obtain ⟨-, h⟩ | ⟨-, -, -, h⟩ | ⟨-, spaced, -, h⟩ := ofCells_cases V cells
  · simp [h]
  · simp [h]
  · obtain ⟨hbody, hfirst⟩ := marks_ofBody V spaced
      (cells.drop (cells.takeWhile Cell.isWhiteSpace).length)
    rw [h, moves_after, overSpace, List.append_assoc, marks_append, marks_skips, List.nil_append]
    refine increasing_map_add ?_ _
    cases spaced with
    | false => simpa using hbody
    | true =>
      have hpos : ∀ n ∈ marks (ofBody V true
          (cells.drop (cells.takeWhile Cell.isWhiteSpace).length)).moves, 0 < n := by
        intro n hn
        exact Nat.pos_of_ne_zero fun h0 => hfirst rfl (h0 ▸ hn)
      simpa using ⟨hpos, hbody⟩

end ScssTokens.Decision

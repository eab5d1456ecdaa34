import ScssTokens.Proofs.Decision.Order
import ScssTokens.Proofs.Scan.Extent

/-!
# Who answers for a candidate set

Of the candidates in a set one group alone decides, and which one it is can be told from the set,
from whether whitespace stands ahead and from the first character past it. The rules before that
group may skip and mark on their way; nothing of that shows in the token.

## Main definitions

* `Text.ink` — the first character past the whitespace.
* `Candidates.responsible` — the group that decides.

## Main statements

* `scanAt_responsible` — a scan with a set is the scan with its group.
-/

namespace ScssTokens

/-- The first character of a text past the whitespace at its start. -/
def Text.ink (t : Text) : Option Char := (t.dropWhile Unicode.isWhiteSpace).head?

namespace Candidates

/-- The candidates of a set that decide before a text. There are none during error recovery, and
none where no candidate of the set has a say. -/
def responsible (V : Candidates) (text : Text) : Option Candidates :=
  let spaced := text.head?.any Unicode.isWhiteSpace
  let opensCompound := text.ink.any fun c =>
    [':', '#', '.', '[', '-', '*', '&'].contains c || Unicode.isAlphanumeric c
  if V.inRecovery then none
  else if V.accepts .noWhitespace ∧ spaced = false then some (ofKind .noWhitespace)
  else if V.accepts .descendantCombinator ∧ spaced ∧ opensCompound then
    some (ofKind .descendantCombinator)
  else if V.accepts .pseudoClassColon ∧ text.ink = some ':' then some (ofKind .pseudoClassColon)
  else if V.intersects anyVariable ∧ text.ink = some '$' then some (V ∩ anyVariable)
  else if V.accepts .singleQuotedSegment then some (ofKind .singleQuotedSegment)
  else if V.accepts .doubleQuotedSegment then some (ofKind .doubleQuotedSegment)
  else if V.accepts .applyValue then some (ofKind .applyValue)
  else none

/-- The candidates of a set that decide past the whitespace, by the first character there. -/
def inkGroup (V : Candidates) (ink : Option Char) : Option Candidates :=
  if V.accepts .pseudoClassColon ∧ ink = some ':' then some (ofKind .pseudoClassColon)
  else if V.intersects anyVariable ∧ ink = some '$' then some (V ∩ anyVariable)
  else if V.accepts .singleQuotedSegment then some (ofKind .singleQuotedSegment)
  else if V.accepts .doubleQuotedSegment then some (ofKind .doubleQuotedSegment)
  else if V.accepts .applyValue then some (ofKind .applyValue)
  else none

theorem responsible_eq (V : Candidates) (text : Text) :
    V.responsible text =
      if V.inRecovery then none
      else if V.accepts .noWhitespace ∧ text.head?.any Unicode.isWhiteSpace = false then
        some (ofKind .noWhitespace)
      else if V.accepts .descendantCombinator ∧ text.head?.any Unicode.isWhiteSpace ∧
          text.ink.any fun c =>
            [':', '#', '.', '[', '-', '*', '&'].contains c || Unicode.isAlphanumeric c then
        some (ofKind .descendantCombinator)
      else V.inkGroup text.ink := rfl

/-- No group past the whitespace asks whether there is any. -/
theorem ignoresSpace_of_inkGroup {V G : Candidates} {ink : Option Char}
    (h : G ∈ V.inkGroup ink) : G.inRecovery = false ∧ G.IgnoresSpace := by
  have hkind (k : Kind) (hn : k ≠ .noWhitespace) (hd : k ≠ .descendantCombinator) :
      (ofKind k).inRecovery = false ∧ (ofKind k).IgnoresSpace := by
    simp [IgnoresSpace, hn, hd]
  have hvariable : (V ∩ anyVariable).inRecovery = false ∧ (V ∩ anyVariable).IgnoresSpace := by
    simp [IgnoresSpace]
  grind [inkGroup]

end Candidates

namespace Decision

/-! ## The whitespace ahead -/

/-- What the rules past the whitespace see of a text is its first character there. -/
theorem startsWith_body (p : Char → Bool) (k : Column) (t : Text) :
    startsWith p ((Cell.ofText k t).drop
      ((Cell.ofText k t).takeWhile Cell.isWhiteSpace).length) = t.ink.any p := by
  rw [drop_length_takeWhile]
  exact (congrArg (startsWith p) (Cell.dropWhile_ofText _ k t)).trans (startsWith_ofText p _ _)

/-! ## The group of a set -/

theorem ofCells_of_space {V : Candidates} {cells : List Cell} {d : Decision}
    (hr : V.inRecovery = false) (hv : V.accepts .descendantCombinator = true)
    (hs : cells.takeWhile Cell.isWhiteSpace ≠ [])
    (hd : ofSpace? (cells.drop (cells.takeWhile Cell.isWhiteSpace).length) = some d) :
    ofCells V cells = after (overSpace true (cells.takeWhile Cell.isWhiteSpace)) d := by
  have hb : (!(cells.takeWhile Cell.isWhiteSpace).isEmpty) = true := by simpa using hs
  rw [ofCells_of_ahead hr (fun h => absurd h hs)]
  dsimp only
  rw [hb, hv, Bool.and_self, ofBody_eq, given_true, hd]
  rfl

/-- The rule for whitespace applies where whitespace stands before what opens a compound. -/
theorem isSome_given_ofSpace (V : Candidates) (k : Column) (t : Text) :
    let space := (Cell.ofText k t).takeWhile Cell.isWhiteSpace
    (given (!space.isEmpty && V.accepts .descendantCombinator) ofSpace?
        ((Cell.ofText k t).drop space.length)).isSome ↔
      V.accepts .descendantCombinator ∧ t.head?.any Unicode.isWhiteSpace ∧
        t.ink.any fun c =>
          [':', '#', '.', '[', '-', '*', '&'].contains c || Unicode.isAlphanumeric c := by
  intro space
  have hspace : space.isEmpty = !t.head?.any Unicode.isWhiteSpace := by
    rw [Bool.eq_iff_iff, List.isEmpty_iff, Cell.takeWhile_isWhiteSpace_eq_nil]
    simp
  have hbody : (ofSpace? ((Cell.ofText k t).drop space.length)).isSome = t.ink.any fun c =>
      [':', '#', '.', '[', '-', '*', '&'].contains c || Unicode.isAlphanumeric c :=
    (isSome_ofSpace _).trans (startsWith_body _ k t)
  rw [isSome_given, hspace, Bool.not_not, hbody, Bool.and_eq_true, and_assoc, and_left_comm]

/-- The rules past the whitespace decide alike for a set and for its group. -/
theorem ofInk_eq_inkGroup {body : List Cell} {ink : Option Char}
    (hink : ∀ c, startsWith (· == c) body ↔ ink = some c) (V : Candidates) :
    ofInk V body = (V.inkGroup ink).bind fun G => ofInk G body := by
  have hv : ∀ n, V.accepts (variableKind n) =
      (V ∩ Candidates.anyVariable).accepts (variableKind n) := by
    intro n
    unfold variableKind
    split <;> simp
  unfold Candidates.inkGroup
  split
  · next h => simp [ofInk_eq, hink, h]
  next hc =>
  split
  · next h => simp [ofInk_eq, hink, h, ofDollar_congr hv]
  next hd =>
  split
  · next h => simp [ofInk_eq, hink, h, hc, hd]
  next h1 =>
  split
  · next h => simp [ofInk_eq, hink, h, hc, hd, h1]
  next h2 =>
  split
  · next h => simp [ofInk_eq, hink, h, hc, hd, h1, h2]
  next h3 => simp [ofInk_eq, hink, hc, hd, h1, h2, h3]

theorem extent_responsible (V : Candidates) (k : Column) (t : Text) :
    (ofCells V (Cell.ofText k t)).extent =
      (V.responsible t).bind fun G => (ofCells G (Cell.ofText k t)).extent := by
  have hspace := Cell.takeWhile_isWhiteSpace_eq_nil k t
  have hgiven := isSome_given_ofSpace V k t
  have hink (c : Char) : startsWith (· == c) ((Cell.ofText k t).drop
      ((Cell.ofText k t).takeWhile Cell.isWhiteSpace).length) ↔ t.ink = some c := by
    rw [startsWith_body]
    cases t.ink <;> simp
  generalize Cell.ofText k t = cells at hspace hgiven hink ⊢
  rw [Candidates.responsible_eq]
  dsimp only at hgiven ⊢
  split
  · next hr => simp [ofCells_of_recovery hr]
  next hr =>
  rw [Bool.not_eq_true] at hr
  split
  · next h =>
    rw [Option.bind_some, ofCells_of_noWhitespace hr (hspace.2 h.2) h.1,
      ofCells_of_noWhitespace (by simp) (hspace.2 h.2) (by simp)]
  next hn =>
  have hn' : cells.takeWhile Cell.isWhiteSpace = [] → V.accepts .noWhitespace = false := by
    intro h
    simpa [hspace.1 h] using hn
  split
  · next h =>
    have hne : cells.takeWhile Cell.isWhiteSpace ≠ [] := by
      intro he
      simp [hspace.1 he] at h
    obtain ⟨d, hd⟩ := Option.isSome_iff_exists.1 (hgiven.2 h)
    have hd' : ofSpace? (cells.drop (cells.takeWhile Cell.isWhiteSpace).length) = some d := by
      simpa [h.1, List.isEmpty_eq_false_iff.2 hne] using hd
    rw [Option.bind_some, ofCells_of_space hr h.1 hne hd',
      ofCells_of_space (by simp) (by simp) hne hd']
  next hs =>
  rw [extent_of_not_space hr hn' (Option.not_isSome_iff_eq_none.1 (hs ∘ hgiven.1))]
  dsimp only
  rw [ofInk_eq_inkGroup hink V]
  cases hG : V.inkGroup t.ink with
  | none => rfl
  | some G =>
    obtain ⟨hGr, hGs⟩ := Candidates.ignoresSpace_of_inkGroup hG
    rw [Option.bind_some, Option.bind_some, extent_of_ignoresSpace hGr hGs]

/-- The group that decides has the kind of the token, and finds it where the set does. -/
theorem exists_responsible {V : Candidates} {k : Column} {t : Text} {kind : Kind} {start stop : Nat}
    (h : (ofCells V (Cell.ofText k t)).extent = some (kind, start, stop)) :
    ∃ G ∈ V.responsible t, G.accepts kind ∧
      (ofCells G (Cell.ofText k t)).extent = some (kind, start, stop) := by
  rw [extent_responsible] at h
  obtain ⟨G, hG, hextent⟩ := Option.bind_eq_some_iff.1 h
  have hkind := (of_extent_ofCells hextent).1
  exact ⟨G, hG, accepts_of_kind_ofCells hkind, hextent⟩

end Decision

/-- A scan with a candidate set is the scan with the group that decides for it, and there is no
token without such a group. A token is of a kind in the group. -/
theorem scanAt_responsible (source : Text) (offset : Nat) (V : Candidates) :
    scanAt source offset V =
        (V.responsible (source.dropBytes offset)).bind (scanAt source offset ·) ∧
      ∀ t ∈ scanAt source offset V,
        ∃ G ∈ V.responsible (source.dropBytes offset), G.accepts t.kind := by
  have hscan : scanAt source offset V =
      (V.responsible (source.dropBytes offset)).bind (scanAt source offset ·) := by
    rw [scanAt_eq_extent, Decision.extent_responsible]
    cases V.responsible (source.dropBytes offset) with
    | none => rfl
    | some G => rw [Option.bind_some, Option.bind_some, scanAt_eq_extent]
  refine ⟨hscan, fun t ht => ?_⟩
  rw [hscan] at ht
  obtain ⟨G, hG, ht⟩ := Option.bind_eq_some_iff.1 ht
  exact ⟨G, hG, accepts_of_scanAt ht⟩

end ScssTokens

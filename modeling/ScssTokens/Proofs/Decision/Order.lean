import ScssTokens.Proofs.Decision.Shape

/-!
# The rules in turn

Past the whitespace the first rule that applies decides alone. The rules for the colon and for the
dollar sign apply before those characters only, the others everywhere, so the chain of rules is a
case distinction on the candidates and on the first character of the body.

## Main statements

* `Decision.ofInk_eq` — the rules past the whitespace as a case distinction.
* `Decision.isSome_ofSpace` — the characters before which the rule for whitespace applies.
-/

namespace ScssTokens

namespace Candidates

@[simp] theorem accepts_anyVariable (k : Kind) :
    anyVariable.accepts k = decide (k = .plainVariable ∨ k = .restVariable) := by
  cases k <;> rfl

@[simp] theorem inRecovery_anyVariable : anyVariable.inRecovery = false := rfl

@[simp] theorem intersects_ofKind (k : Kind) :
    (ofKind k).intersects anyVariable = decide (k = .plainVariable ∨ k = .restVariable) := by
  cases k <;> rfl

@[simp] theorem intersects_inter_anyVariable (V : Candidates) :
    (V ∩ anyVariable).intersects anyVariable = V.intersects anyVariable := by
  simp [intersects_anyVariable]

end Candidates

/-- Whether the first cell has a character of a class is seen from the characters. -/
theorem startsWith_eq_any (p : Char → Bool) (cells : List Cell) :
    startsWith p cells = (cells.map Cell.char).head?.any p := by
  cases cells <;> simp

namespace Decision

theorem startsWith_ofText (p : Char → Bool) (k : Column) (t : Text) :
    startsWith p (Cell.ofText k t) = t.head?.any p := by
  rw [startsWith_eq_any, Cell.map_char_ofText]

theorem startsSelector_eq (c : Char) :
    startsSelector c =
      (['#', '.', '[', '-', '*', '&'].contains c || Unicode.isAlphanumeric c) := by
  rw [Bool.eq_iff_iff]
  simp [startsSelector, or_assoc]

/-- A colon is not among the characters that can only start a component of a selector. -/
theorem startsSelector_colon : startsSelector ':' = false := by decide +kernel

/-- The rule for whitespace applies before what can open a compound selector. -/
theorem isSome_ofSpace (body : List Cell) :
    (ofSpace? body).isSome = startsWith (fun c =>
      [':', '#', '.', '[', '-', '*', '&'].contains c || Unicode.isAlphanumeric c) body := by
  cases body with
  | nil => rfl
  | cons c body =>
    simp only [ofSpace?, startsSelector, startsWith_cons]
    by_cases hc : c.char = ':'
    · split <;> simp [hc]
    · split
      · simp_all [or_assoc]
      · simp_all

theorem isSome_ofColon (body : List Cell) :
    (ofColon? body).isSome = startsWith (· == ':') body := by
  cases body with
  | nil => rfl
  | cons c body => by_cases hc : c.char = ':' <;> simp [ofColon?, hc]

theorem isSome_ofDollar (V : Candidates) (body : List Cell) :
    (ofDollar? V body).isSome = startsWith (· == '$') body := by
  cases body with
  | nil => rfl
  | cons c body => by_cases hc : c.char = '$' <;> simp [ofDollar?, hc]

theorem isSome_given {candidate : Bool} {rule : List Cell → Option Decision} {body : List Cell} :
    (given candidate rule body).isSome ↔ candidate ∧ (rule body).isSome := by
  cases candidate <;> simp

/-- A rule that applies is the first to do so if its candidate is in the set. -/
theorem given_orElse {rule : List Cell → Option Decision} {body : List Cell} {applies : Bool}
    (h : (rule body).isSome = applies) (candidate : Bool) (rest : Option Decision) :
    (given candidate rule body <|> rest) = if candidate ∧ applies then rule body else rest := by
  subst h
  cases candidate with
  | false => simp
  | true => cases h : rule body <;> simp [h]

theorem given_some_orElse (rule : List Cell → Decision) (body : List Cell) (candidate : Bool)
    (rest : Option Decision) :
    (given candidate (some ∘ rule) body <|> rest) =
      if candidate then some (rule body) else rest := by
  cases candidate <;> simp

/-- The rules past the whitespace, the first that applies deciding alone. -/
theorem ofInk_eq (V : Candidates) (body : List Cell) :
    ofInk V body =
      if V.accepts .pseudoClassColon ∧ startsWith (· == ':') body then ofColon? body
      else if V.intersects .anyVariable ∧ startsWith (· == '$') body then ofDollar? V body
      else if V.accepts .singleQuotedSegment then some (ofSegment .single body)
      else if V.accepts .doubleQuotedSegment then some (ofSegment .double body)
      else if V.accepts .applyValue then some (ofValue body)
      else none := by
  rw [ofInk, given_orElse (isSome_ofColon body), given_orElse (isSome_ofDollar V body),
    given_some_orElse, given_some_orElse]
  rfl

theorem ofDollar_congr {V W : Candidates}
    (h : ∀ n, V.accepts (variableKind n) = W.accepts (variableKind n)) (body : List Cell) :
    ofDollar? V body = ofDollar? W body := by
  cases body with
  | nil => rfl
  | cons c body => simp only [ofDollar?, h]

end Decision

end ScssTokens

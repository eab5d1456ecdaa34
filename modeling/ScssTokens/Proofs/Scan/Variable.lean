import ScssTokens.Proofs.Decision.Anatomy
import ScssTokens.Proofs.Scan.Extent

/-!
# Variables

A scan for variables alone accepts a dollar sign with a name, and nothing else. The name is as long
as the characters after the sign allow. The dots after it are no part of the token; how many they
are decides which of the two kinds it is, and only then the candidates are asked for that kind.

## Main definitions

* `VariableParts` — the text past a dollar sign, cut after the name and after the dots.

## Main statements

* `Decision.ofDollar_parts` — what the rule for a dollar sign makes of a name with its dots.
* `scanAt_variable_iff` — the texts at which a scan finds a variable, and where it lies.
-/

namespace ScssTokens

/-- A text past a dollar sign, cut after the name of a variable and after the dots behind it.
Neither the name nor the run of dots could be longer. -/
structure VariableParts (name dots rest : Text) : Prop where
  starts : name.head?.any fun c => Unicode.isAlphabetic c || c == '-' || c == '_'
  continues : ∀ c ∈ name, Unicode.isAlphanumeric c || c == '-' || c == '_'
  longest : (dots ++ rest).head?.any
    (fun c => Unicode.isAlphanumeric c || c == '-' || c == '_') = false
  dotted : ∀ c ∈ dots, c = '.'
  all_dots : rest.head? ≠ some '.'

namespace VariableParts

open Decision

variable {name dots rest : Text}

theorem takeWhile_name (h : VariableParts name dots rest) :
    (name ++ (dots ++ rest)).takeWhile continuesName = name :=
  takeWhile_append_of_stop h.continues h.longest

theorem dropWhile_name (h : VariableParts name dots rest) :
    (name ++ (dots ++ rest)).dropWhile continuesName = dots ++ rest :=
  dropWhile_append_of_stop h.continues h.longest

theorem takeWhile_dots (h : VariableParts name dots rest) :
    (dots ++ rest).takeWhile (· == '.') = dots := by
  refine takeWhile_append_of_stop (fun c hc => beq_iff_eq.2 (h.dotted c hc)) ?_
  cases hr : rest.head? with
  | none => rfl
  | some c =>
    have hc : c ≠ '.' := fun he => h.all_dots (he ▸ hr)
    simpa using hc

theorem head?_any_append (h : VariableParts name dots rest) :
    (name ++ (dots ++ rest)).head?.any startsName := by
  have hstarts := h.starts
  cases name with
  | nil => cases hstarts
  | cons c name => exact hstarts

/-- No name has a dot in it. -/
theorem dot_not_mem (h : VariableParts name dots rest) : '.' ∉ '$' :: name := by
  have hdot : continuesName '.' = false := by decide +kernel
  rw [List.mem_cons, not_or]
  refine ⟨by decide, fun hmem => ?_⟩
  exact Bool.false_ne_true (hdot.symm.trans (h.continues '.' hmem))

/-- A text with a name in front has such parts. -/
theorem of_starts {u : Text} (h : u.head?.any startsName) :
    ∃ name dots rest, u = name ++ (dots ++ rest) ∧ VariableParts name dots rest := by
  let after := u.dropWhile continuesName
  have hafter : after.takeWhile (· == '.') ++ after.dropWhile (· == '.') = after :=
    List.takeWhile_append_dropWhile
  refine ⟨u.takeWhile continuesName, after.takeWhile (· == '.'), after.dropWhile (· == '.'),
    ?_, ?_, ?_, ?_, ?_, ?_⟩
  · rw [hafter, List.takeWhile_append_dropWhile]
  · cases u with
    | nil => exact h
    | cons c u =>
      have hc : startsName c := by simpa using h
      rw [List.takeWhile_cons_of_pos (continuesName_of_startsName hc)]
      exact h
  · exact List.all_eq_true.1 List.all_takeWhile
  · rw [hafter]
    exact any_head?_dropWhile continuesName u
  · exact fun c hc => beq_iff_eq.1 (List.all_eq_true.1 List.all_takeWhile c hc)
  · intro hdot
    have hstop := any_head?_dropWhile (· == '.') after
    rw [hdot] at hstop
    cases hstop

end VariableParts

namespace Candidates

/-- A set accepts what a part of it accepts. -/
theorem accepts_of_contains {V W : Candidates} (h : W.contains V) {k : Kind} (hk : V.accepts k) :
    W.accepts k := by
  have hinter : W ∩ V = V := of_decide_eq_true h
  rw [← hinter, accepts_inter, Bool.and_eq_true] at hk
  exact hk.1

theorem inRecovery_of_contains {V W : Candidates} (h : W.contains V) (hV : V.inRecovery) :
    W.inRecovery := by
  have hinter : W ∩ V = V := of_decide_eq_true h
  rw [← hinter, inRecovery_inter, Bool.and_eq_true] at hV
  exact hV.1

variable {V : Candidates} (hV : anyVariable.contains V)

include hV

theorem accepts_eq_false_of_variables {k : Kind} (hk : anyVariable.accepts k = false) :
    V.accepts k = false := by
  rw [Bool.eq_false_iff] at hk ⊢
  exact mt (accepts_of_contains hV) hk

theorem inRecovery_of_variables : V.inRecovery = false :=
  Bool.eq_false_iff.2 fun hr => Bool.false_ne_true (inRecovery_of_contains hV hr)

end Candidates

namespace Decision

variable {V : Candidates} {name dots rest : Text}

/-- The rule for a dollar sign before a name. -/
theorem ofDollar_parts (V : Candidates) (k : Column) (h : VariableParts name dots rest) :
    ofDollar? V (Cell.ofText k ('$' :: (name ++ (dots ++ rest)))) =
      some ⟨.advance :: (advances name.length ++ .markEnd :: advances (min dots.length restDots)),
        if V.accepts (variableKind dots.length) then some (variableKind dots.length)
        else none⟩ := by
  let cells := Cell.ofText (Column.after '$' k) (name ++ (dots ++ rest))
  have hname : (cells.takeWhile fun c => continuesName c.char).length = name.length := by
    rw [← h.takeWhile_name]
    exact Cell.length_takeWhile_ofText continuesName _ _
  have hdots :
      ((cells.drop name.length).takeWhile fun c => c.char == '.').length = dots.length := by
    rw [← hname, drop_length_takeWhile, Cell.dropWhile_ofText, h.dropWhile_name]
    refine (Cell.length_takeWhile_ofText (· == '.') _ _).trans ?_
    rw [h.takeWhile_dots]
  have hstarts : startsWith startsName cells := by
    rw [startsWith_ofText]
    exact h.head?_any_append
  rw [Cell.ofText_cons, ofDollar?, if_pos rfl, if_pos hstarts]
  dsimp only
  rw [hname, hdots]
  rfl

/-- The rule for a dollar sign finds nothing without a name. -/
theorem exists_parts_of_ofDollar {k : Column} {body : Text} {d : Decision}
    (h : ofDollar? V (Cell.ofText k body) = some d) (hk : d.kind.isSome) :
    ∃ name dots rest, body = '$' :: (name ++ (dots ++ rest)) ∧ VariableParts name dots rest := by
  cases body with
  | nil => cases h
  | cons c u =>
    rw [Cell.ofText_cons, ofDollar?] at h
    split at h
    · next hc =>
      obtain rfl : c = '$' := hc
      split at h
      · next hs =>
        rw [startsWith_ofText] at hs
        obtain ⟨name, dots, rest, rfl, hparts⟩ := VariableParts.of_starts hs
        exact ⟨name, dots, rest, rfl, hparts⟩
      · cases h
        cases hk
    · cases h

/-- With variables for the only candidates, the rule for a dollar sign decides. -/
theorem ofBody_variables (hV : Candidates.anyVariable.contains V) (body : List Cell) :
    ofBody V false body = (given (V.intersects .anyVariable) (ofDollar? V) body).getD decline := by
  have hnot (k : Kind) (hk : Candidates.anyVariable.accepts k = false) : V.accepts k = false :=
    Candidates.accepts_eq_false_of_variables hV hk
  simp [ofBody, hnot .pseudoClassColon rfl, hnot .singleQuotedSegment rfl,
    hnot .doubleQuotedSegment rfl, hnot .applyValue rfl]

/-- The characters of a variable are the sign and the name. -/
theorem found_dollar (k? : Option Kind) (n : Nat) (name u : Text) :
    found ⟨.advance :: (advances name.length ++ .markEnd :: advances n), k?⟩ ('$' :: (name ++ u)) =
      k?.map fun k => (k, '$' :: name) := by
  simp [found, Move.lastMark_append, Move.lastMark]

/-- What a scan for variables finds past the whitespace. -/
theorem found_variables_iff (hV : Candidates.anyVariable.contains V) (k : Column) (body : Text)
    (e : Kind × Text) :
    (ofBody V false (Cell.ofText k body)).found body = some e ↔
      ∃ name dots rest, body = '$' :: (name ++ (dots ++ rest)) ∧ VariableParts name dots rest ∧
        V.accepts (variableKind dots.length) ∧ e = (variableKind dots.length, '$' :: name) := by
  rw [ofBody_variables hV]
  constructor
  · intro h
    cases hd : given (V.intersects .anyVariable) (ofDollar? V) (Cell.ofText k body) with
    | none => simp [hd] at h
    | some d =>
      obtain ⟨-, hd'⟩ : V.intersects .anyVariable ∧ ofDollar? V (Cell.ofText k body) = some d := by
        simpa [given] using hd
      rw [hd, Option.getD_some] at h
      have hk : d.kind.isSome := by
        rw [← Option.isSome_map]
        exact Option.isSome_of_eq_some h
      obtain ⟨name, dots, rest, rfl, hparts⟩ := exists_parts_of_ofDollar hd' hk
      rw [ofDollar_parts V k hparts] at hd'
      cases hd'
      rw [found_dollar] at h
      split at h
      · next hv => exact ⟨name, dots, rest, rfl, hparts, hv, (Option.some.inj h).symm⟩
      · cases h
  · rintro ⟨name, dots, rest, rfl, hparts, hv, rfl⟩
    have hinter : V.intersects .anyVariable := by
      rw [Candidates.intersects_anyVariable, Bool.or_eq_true]
      unfold variableKind at hv
      split at hv
      · exact .inr hv
      · exact .inl hv
    rw [hinter, given_true, ofDollar_parts V k hparts, Option.getD_some, found_dollar, if_pos hv]
    rfl

end Decision

/-- A scan for variables finds a token where whitespace, a dollar sign and a name are ahead. -/
theorem scanAt_variables_eq_some_iff {V : Candidates} (hV : Candidates.anyVariable.contains V)
    {before text : Text} {t : Token} :
    scanAt (before ++ text) before.size V = some t ↔
      ∃ space name dots rest, text = space ++ '$' :: (name ++ (dots ++ rest)) ∧
        (∀ c ∈ space, Unicode.isWhiteSpace c) ∧ VariableParts name dots rest ∧
        V.accepts t.kind ∧
        t = Token.spelled (before ++ space) (Decision.variableKind dots.length, '$' :: name) := by
  have hr := Candidates.inRecovery_of_variables hV
  have hn := Candidates.accepts_eq_false_of_variables hV (k := .noWhitespace) rfl
  have hd := Candidates.accepts_eq_false_of_variables hV (k := .descendantCombinator) rfl
  simp only [scanAt_append_eq_some_iff hr hn, hd, Bool.and_false, Decision.found_variables_iff hV]
  constructor
  · rintro ⟨space, body, e, rfl, hblank, -, ⟨name, dots, rest, rfl, hparts, hv, rfl⟩, rfl⟩
    exact ⟨space, name, dots, rest, rfl, hblank, hparts, hv, rfl⟩
  · rintro ⟨space, name, dots, rest, rfl, hblank, hparts, hv, rfl⟩
    exact ⟨space, _, _, rfl, hblank, rfl, ⟨name, dots, rest, rfl, hparts, hv, rfl⟩, rfl⟩

/-- A scan for variables finds a dollar sign with a name, if the kind by the number of dots after
the name is one of its candidates, and nothing else. No dot is in the token. -/
theorem scanAt_variable_iff {V : Candidates} (hV : Candidates.anyVariable.contains V)
    (before text : Text) :
    (∀ t, scanAt (before ++ text) before.size V = some t ↔
      ∃ space name dots rest, text = space ++ '$' :: (name ++ (dots ++ rest)) ∧
        (∀ c ∈ space, Unicode.isWhiteSpace c) ∧ VariableParts name dots rest ∧
        V.accepts t.kind ∧
        t = ⟨if dots.length = 3 then .restVariable else .plainVariable,
          (before ++ space).size, (before ++ space ++ '$' :: name).size⟩) ∧
      ∀ t ∈ scanAt (before ++ text) before.size V, ∃ lexeme,
        (before ++ text).slice? t.span.start t.span.stop = some lexeme ∧ '.' ∉ lexeme := by
  refine ⟨fun t => scanAt_variables_eq_some_iff hV, fun t ht => ?_⟩
  obtain ⟨space, name, dots, rest, rfl, -, hparts, -, rfl⟩ := (scanAt_variables_eq_some_iff hV).1 ht
  refine ⟨'$' :: name, Text.slice?_eq_some_iff.2 ⟨before ++ space, dots ++ rest, ?_, rfl, ?_⟩,
    hparts.dot_not_mem⟩
  · simp
  · exact (Text.size_append _ _).symm

/-- Three dots after a name make a candidate of the variable, and four do not. -/
theorem scanAt_variable_dots :
    Candidates.anyVariable.contains (.ofKind .restVariable) ∧
      scanAt ['a', ' ', '$', 'b', '-', '.', '.', '.', ';'] 1 (.ofKind .restVariable) =
        some ⟨.restVariable, 2, 5⟩ ∧
      scanAt ['a', ' ', '$', 'b', '-', '.', '.', '.', '.'] 1 (.ofKind .restVariable) = none := by
  have h : Candidates.anyVariable.contains (.ofKind .restVariable) := by decide
  have hb : Unicode.isAlphabetic 'b' := Unicode.isAlphabetic_of_isAlpha (by decide)
  have hdot : Unicode.isAlphanumeric '.' = false := by decide +kernel
  have hparts : VariableParts ['b', '-'] ['.', '.', '.'] [';'] := by
    constructor <;> simp [hb, Unicode.isAlphanumeric_of_isAlphabetic hb, hdot]
  refine ⟨h, ?_, by decide +kernel⟩
  exact ((scanAt_variable_iff h ['a'] _).1 _).2
    ⟨[' '], _, _, _, rfl, List.all_eq_true.1 rfl, hparts, rfl, rfl⟩

end ScssTokens

import ScssTokens.Decision.Basic
import ScssTokens.Unicode.Alphanumeric

/-!
# Variables

A variable is a dollar sign with a name. Three dots directly after the name are a rest marker,
which decides the kind of the token without being a part of it; any other number of dots is none.

## Main definitions

* `Decision.variableKind` — the kind of a variable by the dots after it.
* `Decision.ofDollar?` — the rule for a dollar sign.
-/

namespace ScssTokens.Decision

/-- The characters that start a name. -/
def startsName (c : Char) : Bool := Unicode.isAlphabetic c || c == '-' || c == '_'

/-- The characters that continue a name. -/
def continuesName (c : Char) : Bool := Unicode.isAlphanumeric c || c == '-' || c == '_'

theorem continuesName_of_startsName {c : Char} (h : startsName c = true) :
    continuesName c = true := by
  simp only [startsName, continuesName, Unicode.isAlphanumeric, Bool.or_eq_true] at h ⊢
  rcases h with (h | h) | h <;> simp [h]

/-- The number of dots of a rest marker. -/
def restDots : Nat := 3

/-- The kind of a variable that has a number of dots after its name. -/
def variableKind (dots : Nat) : Kind := if dots = restDots then .restVariable else .plainVariable

/-- The rule for a dollar sign. The name's kind is fixed first, and only then has to be one of the
candidates. -/
def ofDollar? (V : Candidates) : List Cell → Option Decision
  | [] => none
  | c :: cells =>
    if c.char = '$' then
      some <| after [.advance] <|
        if startsWith startsName cells then
          let name := (cells.takeWhile fun c => continuesName c.char).length
          let dots := ((cells.drop name).takeWhile fun c => c.char == '.').length
          let kind := variableKind dots
          ⟨advances name ++ .markEnd :: advances (min dots restDots),
            if V.accepts kind then some kind else none⟩
        else decline
    else none

end ScssTokens.Decision

import ScssTokens.Candidates.Basic

/-!
# The text of a candidate set

Each known bit of a candidate set has a name. A set is written as the names of its bits in order,
and the bits that have no name follow as one hexadecimal number.

## Main definitions

* `Candidates.flagNames` — the names of the bits that a set holds.
* `Candidates.ofName?` — the set that a name stands for.
* `Candidates.render` — the text of a set.
-/

namespace ScssTokens.Candidates

/-- The name of the bit of a kind. -/
def flagName : Kind → String
  | .descendantCombinator => "DESCENDANT_COMBINATOR"
  | .pseudoClassColon => "PSEUDO_CLASS_COLON"
  | .noWhitespace => "NO_WHITESPACE"
  | .singleQuotedSegment => "SINGLE_QUOTED_STRING_SEGMENT"
  | .doubleQuotedSegment => "DOUBLE_QUOTED_STRING_SEGMENT"
  | .applyValue => "APPLY_VALUE"
  | .plainVariable => "VARIABLE_WITHOUT_REST"
  | .restVariable => "VARIABLE_WITH_REST"

/-- The known bits with their names, in order. -/
def flags : List (String × Candidates) :=
  Kind.all.map (fun k => (flagName k, ofKind k)) ++ [("ERROR_RECOVERY", recovery)]

/-- The names of the known bits that a set holds, in order. -/
def flagNames (V : Candidates) : List String :=
  (flags.filter fun f => V.contains f.2).map Prod.fst

/-- The set that a name stands for: a known bit, or `VARIABLE` for the two kinds of variable. -/
def ofName? (name : String) : Option Candidates :=
  (flags ++ [("VARIABLE", anyVariable)]).lookup name

/-- A number in hexadecimal with lower-case digits. -/
def hexadecimal (n : Nat) : String := "0x" ++ String.ofList (Nat.toDigits 16 n)

/-- The unknown bits of a set as an item of its text, if there are any. -/
def unknownItems (V : Candidates) : List String :=
  let rest := V \ full
  if rest.isEmpty then [] else [hexadecimal rest.bits.toNat]

/-- The items of the text of a set. The empty set has the number zero for its only item. -/
def items (V : Candidates) : List String :=
  if V.isEmpty then [hexadecimal 0] else V.flagNames ++ V.unknownItems

/-- The text of a set. -/
def render (V : Candidates) : String :=
  "ValidTokens(" ++ " | ".intercalate V.items ++ ")"

end ScssTokens.Candidates

import ScssTokens.Candidates.Basic

/-!
# Candidate sets from symbol arrays

A parser states what it would accept as one flag for each symbol: the kinds in order, then error
recovery. An array of any other length is not such a statement.

## Main definitions

* `Candidates.ofSymbols` — the set that an array states.
* `SymbolsError` — why an array states none.

## Main statements

* `Candidates.ofSymbols_isOk_iff` — the length alone decides whether an array states a set.
-/

namespace ScssTokens

/-- Why a symbol array states no candidate set. -/
inductive SymbolsError where
  /-- The array has this many flags, which is not one for each symbol. -/
  | length (found : Nat)
  deriving DecidableEq, Repr

/-- The message for an error. -/
def SymbolsError.message : SymbolsError → String
  | length found =>
    "expected " ++ toString Candidates.flagCount ++ " valid-symbol flags, found " ++ toString found

namespace Candidates

/-- The set that an array of flags states: flag `i` is bit `i`. -/
def ofSymbols (flags : List Bool) : Except SymbolsError Candidates :=
  if flags.length = flagCount then .ok ⟨(BitVec.ofBoolListLE flags).setWidth 16⟩
  else .error (.length flags.length)

theorem ofSymbols_isOk_iff {flags : List Bool} :
    (∃ V, ofSymbols flags = .ok V) ↔ flags.length = flagCount := by
  unfold ofSymbols
  split <;> simp_all

theorem getLsbD_bits_of_ofSymbols {flags : List Bool} {V : Candidates}
    (h : ofSymbols flags = .ok V) (i : Nat) : V.bits.getLsbD i = flags.getD i false := by
  unfold ofSymbols at h
  split at h
  · rename_i hl
    obtain rfl := Except.ok.inj h
    simp only [BitVec.getLsbD_setWidth, BitVec.getLsbD_ofBoolListLE]
    by_cases hi : i < 16
    · simp [hi]
    · have : flags.length ≤ i := by
        simp [flagCount, recoveryIndex, Kind.count, Kind.all] at hl
        omega
      simp [hi, this]
  · cases h

end Candidates

end ScssTokens

import ScssTokens.Candidates.Symbols

/-!
# Candidate sets from kinds

A set may be collected from a list of kinds, or stated by an array of flags, and it lists its kinds
in order. All of these go by the index of a kind: it is the bit of the kind in a word, its place in
an array and its place in the list. So they agree, however long the list is, in whatever order it is
and whatever it repeats.

## Main statements

* `Candidates.ofKinds_eq_iff` — lists of the same kinds give the same set.
* `Candidates.ofSymbols_eq_ofKinds` — an array states the set of the kinds whose flags are set.
* `Candidates.pairwise_kinds` — the kinds of a set in order.
* `Candidates.ofKinds_agree` — the ways to a set from a list of kinds agree.
-/

namespace ScssTokens

/-- Every index below the number of kinds is the index of one. -/
theorem Kind.exists_index {i : Nat} (h : i < count) : ∃ k : Kind, k.index = i := by
  have hall : ∀ i, ∀ h : i < all.length, all[i].index = i := by decide
  exact ⟨all[i], hall i h⟩

namespace Candidates

/-! ## Collected sets -/

/-- Lists of the same kinds give the same set. -/
theorem ofKinds_eq_iff {ks ls : List Kind} : ofKinds ks = ofKinds ls ↔ ∀ k, k ∈ ks ↔ k ∈ ls := by
  constructor
  · intro h k
    have hk := congrArg (accepts · k) h
    simpa using hk
  · intro h
    apply Candidates.ext
    apply BitVec.eq_of_getLsbD_eq
    intro i _
    rw [getLsbD_bits_ofKinds, getLsbD_bits_ofKinds, Bool.eq_iff_iff]
    simp [h]

/-- Collecting from one list after another is the union of what is collected from each. -/
theorem ofKinds_append (ks ls : List Kind) : ofKinds (ks ++ ls) = ofKinds ks ∪ ofKinds ls := by
  apply Candidates.ext
  apply BitVec.eq_of_getLsbD_eq
  intro i _
  simp [getLsbD_bits_ofKinds]

/-- The kinds of a set come in the order of their indices, each of them once. -/
theorem pairwise_kinds (V : Candidates) : V.kinds.Pairwise (·.index < ·.index) := by
  have hall : Kind.all.Pairwise (·.index < ·.index) := by decide
  exact hall.filter V.accepts

/-! ## Stated sets -/

/-- The flag at the place of a bit is set for one of the kinds, or for the mark of error
recovery. -/
theorem getD_flags_iff {flags : List Bool} (h : flags.length = flagCount) {i : Nat} :
    flags.getD i false ↔
      (∃ k : Kind, flags.getD k.index false ∧ k.index = i) ∨
        flags.getD recoveryIndex false ∧ recoveryIndex = i := by
  constructor
  · intro hi
    have hlt : i < flagCount := by
      rw [← h]
      apply Classical.byContradiction
      intro hge
      simp [List.getElem?_eq_none (Nat.not_lt.1 hge)] at hi
    obtain hkind | heq := Nat.lt_or_eq_of_le (Nat.le_of_lt_succ hlt)
    · obtain ⟨k, rfl⟩ := Kind.exists_index hkind
      exact .inl ⟨k, hi, rfl⟩
    · exact .inr ⟨heq ▸ hi, heq.symm⟩
  · rintro (⟨k, hk, rfl⟩ | ⟨hr, rfl⟩)
    · exact hk
    · exact hr

/-- An array of the right length states the set that is collected from the kinds whose flags are
set, with the mark of error recovery if the last flag is. -/
theorem ofSymbols_eq_ofKinds {flags : List Bool} (h : flags.length = flagCount) :
    ofSymbols flags = .ok (ofKinds (Kind.all.filter fun k => flags.getD k.index false) ∪
      if flags.getD recoveryIndex false then recovery else ∅) := by
  obtain ⟨V, hV⟩ := ofSymbols_isOk_iff.2 h
  have hrecovery (i : Nat) :
      (if flags.getD recoveryIndex false then recovery else ∅).bits.getLsbD i =
        (flags.getD recoveryIndex false && recoveryIndex == i) := by
    split <;> simp_all [getLsbD_bits_recovery]
  rw [hV]
  congr 1
  apply Candidates.ext
  apply BitVec.eq_of_getLsbD_eq
  intro i _
  rw [getLsbD_bits_of_ofSymbols hV, bits_union, BitVec.getLsbD_or, getLsbD_bits_ofKinds, hrecovery,
    Bool.eq_iff_iff, getD_flags_iff h]
  simp [Kind.mem_all]

/-- The array that is set exactly at the indices of some kinds states the set of these kinds. -/
theorem ofSymbols_indices (ks : List Kind) :
    ofSymbols ((List.range 9).map fun i => ks.any (·.index == i)) = .ok (ofKinds ks) := by
  let flags := (List.range 9).map fun i => ks.any (·.index == i)
  have hlength : flags.length = flagCount := by
    rw [List.length_map, List.length_range]
    rfl
  have hflag (i : Nat) (hi : i < 9) : flags.getD i false = (ofKinds ks).bits.getLsbD i := by
    simp [flags, getLsbD_bits_ofKinds, hi]
  have hkind (k : Kind) : flags.getD k.index false = ks.contains k := by
    rw [hflag _ (Nat.lt_succ_of_lt k.index_lt)]
    exact accepts_ofKinds ks k
  have hrecovery : flags.getD recoveryIndex false = false :=
    (hflag _ (by decide)).trans (inRecovery_ofKinds ks)
  have hsame : ofKinds (Kind.all.filter fun k => flags.getD k.index false) = ofKinds ks := by
    apply ofKinds_eq_iff.2
    intro k
    rw [List.mem_filter, hkind]
    simp [Kind.mem_all]
  calc ofSymbols flags
      = .ok (ofKinds (Kind.all.filter fun k => flags.getD k.index false) ∪
          if flags.getD recoveryIndex false then recovery else ∅) := ofSymbols_eq_ofKinds hlength
    _ = .ok (ofKinds ks) := by
        rw [hsame, hrecovery, if_neg Bool.false_ne_true, union_empty]

/-- The ways to a set from a list of kinds agree. The set that is collected from the list accepts
the kinds in the list and no others, and it is not in error recovery; the array that is set at the
indices of these kinds states it; its kinds are those of the list, in the order of their indices and
each of them once. Collecting from two lists in a row is the union, so collecting from the kinds of
the set gives the set again. An array states a set exactly if it has nine flags. -/
theorem ofKinds_agree (ks : List Kind) :
    (∀ k, (ofKinds ks).accepts k ↔ k ∈ ks) ∧ (ofKinds ks).inRecovery = false ∧
      ofSymbols ((List.range 9).map fun i => ks.any (·.index == i)) = .ok (ofKinds ks) ∧
      ((ofKinds ks).kinds.Pairwise (·.index < ·.index) ∧ ∀ k, k ∈ (ofKinds ks).kinds ↔ k ∈ ks) ∧
      (∀ ls, ofKinds (ks ++ ls) = ofKinds ks ∪ ofKinds ls) ∧
      ofKinds (ofKinds ks).kinds = ofKinds ks ∧
      ∀ flags, (∃ V, ofSymbols flags = .ok V) ↔ flags.length = 9 := by
  have hkinds (k : Kind) : k ∈ (ofKinds ks).kinds ↔ k ∈ ks := by simp
  exact ⟨by simp, inRecovery_ofKinds ks, ofSymbols_indices ks, ⟨pairwise_kinds _, hkinds⟩,
    ofKinds_append ks, ofKinds_eq_iff.2 hkinds, fun flags => ofSymbols_isOk_iff⟩

end Candidates

end ScssTokens

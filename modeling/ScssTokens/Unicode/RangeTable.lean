/-!
# Range tables

A set of code points as the ascending list of its ranges, with membership by bisection.

## Main definitions

* `RangeTable` — ranges that ascend and do not touch.
* `RangeTable.contains` — membership by bisection.

## Main statements

* `RangeTable.contains_iff` — bisection finds a number exactly when a range holds it.
-/

namespace ScssTokens

/-- Whether each range ends no earlier than it starts and before the next range starts. -/
def RangeTable.ascending : List (Nat × Nat) → Bool
  | [] => true
  | [r] => r.1 ≤ r.2
  | r :: s :: t => r.1 ≤ r.2 && r.2 < s.1 && RangeTable.ascending (s :: t)

/-- A set of numbers as ascending closed ranges. -/
structure RangeTable where
  ranges : Array (Nat × Nat)
  ascending_ranges : RangeTable.ascending ranges.toList = true := by decide +kernel

namespace RangeTable

/-- Looks for `n` among the `count` ranges from the one at `start` on. Each step looks at the
middle range and leaves at most half of the others, so as much `fuel` as there are ranges is more
than enough. -/
def search (ranges : Array (Nat × Nat)) (n : Nat) : (fuel start count : Nat) → Bool
  | 0, _, _ => false
  | fuel + 1, start, count =>
    if count = 0 then false
    else
      match ranges[start + count / 2]? with
      | none => false
      | some r =>
        if n < r.1 then search ranges n fuel start (count / 2)
        else if r.2 < n then
          search ranges n fuel (start + count / 2 + 1) (count - count / 2 - 1)
        else true

/-- Whether a range of the table holds `n`. -/
def contains (t : RangeTable) (n : Nat) : Bool :=
  search t.ranges n t.ranges.size 0 t.ranges.size

/-! ## Bisection finds what the ranges hold -/

theorem fst_le_snd_of_ascending {l : List (Nat × Nat)} (h : ascending l = true) {r : Nat × Nat}
    (hr : r ∈ l) : r.1 ≤ r.2 := by
  fun_induction ascending l with
  | case1 => simp at hr
  | case2 => simp_all
  | case3 a b t ih =>
    simp only [Bool.and_eq_true, decide_eq_true_eq] at h
    rcases List.mem_cons.1 hr with rfl | hr
    · exact h.1.1
    · exact ih h.2 hr

theorem pairwise_of_ascending {l : List (Nat × Nat)} (h : ascending l = true) :
    l.Pairwise fun r s => r.2 < s.1 := by
  fun_induction ascending l with
  | case1 => simp
  | case2 => simp
  | case3 r s t ih =>
    simp only [Bool.and_eq_true, decide_eq_true_eq] at h
    have hst := ih h.2
    refine List.pairwise_cons.2 ⟨fun u hu => ?_, hst⟩
    rcases List.mem_cons.1 hu with rfl | hu
    · exact h.1.2
    · have := fst_le_snd_of_ascending h.2 (List.mem_cons_self (l := t))
      have := (List.pairwise_cons.1 hst).1 u hu
      omega

theorem snd_lt_fst {ranges : Array (Nat × Nat)} (h : ascending ranges.toList = true) {i j : Nat}
    (hij : i < j) (hj : j < ranges.size) : ranges[i].2 < ranges[j].1 :=
  List.pairwise_iff_getElem.1 (pairwise_of_ascending h) i j _ hj hij

/-- A range that starts no later than another ends does not come after it. -/
theorem le_of_fst_le_snd {ranges : Array (Nat × Nat)} (h : ascending ranges.toList = true)
    {i j : Nat} {hi : i < ranges.size} {hj : j < ranges.size} (hle : ranges[i].1 ≤ ranges[j].2) :
    i ≤ j :=
  Nat.le_of_not_lt fun hlt => absurd (snd_lt_fst h hlt hi) (Nat.not_lt.2 hle)

theorem search_iff {ranges : Array (Nat × Nat)} (h : ascending ranges.toList = true) (n : Nat)
    {fuel start count : Nat} (hf : count ≤ fuel) (hs : start + count ≤ ranges.size) :
    search ranges n fuel start count ↔
      ∃ i, ∃ hi : i < ranges.size, start ≤ i ∧ i < start + count ∧
        ranges[i].1 ≤ n ∧ n ≤ ranges[i].2 := by
  induction fuel generalizing start count with
  | zero =>
    obtain rfl : count = 0 := by simpa using hf
    simp only [search, Bool.false_eq_true, false_iff]
    rintro ⟨i, _, h1, h2, _⟩
    omega
  | succ fuel ih =>
    by_cases h0 : count = 0
    · subst h0
      simp only [search, if_true, Bool.false_eq_true, false_iff]
      rintro ⟨i, _, h1, h2, _⟩
      omega
    · have hm : start + count / 2 < ranges.size := by omega
      have hrange := fst_le_snd_of_ascending h (Array.getElem_mem_toList hm)
      simp only [search, h0, if_false, Array.getElem?_eq_getElem hm]
      split
      · next hlt =>
        rw [ih (by omega) (by omega)]
        constructor
        · rintro ⟨i, hi, h1, h2, h3⟩
          exact ⟨i, hi, h1, by omega, h3⟩
        · rintro ⟨i, hi, h1, h2, h3⟩
          have hle := le_of_fst_le_snd h (show ranges[i].1 ≤ ranges[start + count / 2].2 by omega)
          obtain rfl | hbefore := Nat.eq_or_lt_of_le hle
          · omega
          · exact ⟨i, hi, h1, hbefore, h3⟩
      · split
        · next hlt =>
          rw [ih (by omega) (by omega)]
          constructor
          · rintro ⟨i, hi, h1, h2, h3⟩
            exact ⟨i, hi, by omega, by omega, h3⟩
          · rintro ⟨i, hi, h1, h2, h3⟩
            have hle := le_of_fst_le_snd h (show ranges[start + count / 2].1 ≤ ranges[i].2 by omega)
            obtain rfl | hpast := Nat.eq_or_lt_of_le hle
            · omega
            · exact ⟨i, hi, hpast, by omega, h3⟩
        · simp only [true_iff]
          exact ⟨_, hm, by omega, by omega, by omega, by omega⟩

theorem contains_iff {t : RangeTable} {n : Nat} :
    t.contains n ↔ ∃ r ∈ t.ranges, r.1 ≤ n ∧ n ≤ r.2 := by
  rw [contains, search_iff t.ascending_ranges n (Nat.le_refl _) (by omega)]
  constructor
  · rintro ⟨i, hi, _, _, h⟩
    exact ⟨_, Array.getElem_mem hi, h⟩
  · rintro ⟨r, hr, h⟩
    obtain ⟨i, hi, rfl⟩ := Array.mem_iff_getElem.1 hr
    exact ⟨i, hi, by omega, by omega, h⟩

end RangeTable

end ScssTokens

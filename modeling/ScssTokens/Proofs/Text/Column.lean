import ScssTokens.Text.Column

/-!
# Columns along a text

As long as no count reaches the limit, the column that follows a text is what its characters add up
to: they add one each, and a newline starts over.

## Main statements

* `Column.toNat_afterText_le` — a text adds at most its length.
* `Column.toNat_afterText_line` — a text without newlines adds exactly its length.
-/

namespace ScssTokens.Column

/-- The column after another is one more as a word, unless that would wrap around. -/
theorem precedes_iff {j k : Column} : Precedes j k ↔ j.toNat ≠ limit ∧ k = j + 1 := by
  have hj := j.toNat_lt
  have hk := k.toNat_lt
  have hlimit : limit = 2 ^ 32 - 1 := rfl
  rw [Precedes, ← UInt32.toNat_inj, UInt32.toNat_add, UInt32.toNat_one, hlimit]
  omega

theorem toNat_after_le (c : Char) (k : Column) : (after c k).toNat ≤ k.toNat + 1 := by
  unfold after
  split
  · exact Nat.zero_le _
  · rw [toNat_ofCount]
    exact Nat.min_le_left _ _

theorem toNat_afterText_le (k : Column) (t : Text) :
    (afterText k t).toNat ≤ k.toNat + t.length := by
  induction t generalizing k with
  | nil => simp
  | cons c t ih =>
    have h := ih (after c k)
    have hc := toNat_after_le c k
    simp only [afterText_cons, List.length_cons]
    omega

theorem toNat_afterText_line {k : Column} {t : Text} (hn : '\n' ∉ t)
    (hk : k.toNat + t.length ≤ limit) : (afterText k t).toNat = k.toNat + t.length := by
  induction t generalizing k with
  | nil => simp
  | cons c t ih =>
    obtain ⟨hc, ht⟩ : ¬ '\n' = c ∧ '\n' ∉ t := by simpa using hn
    simp only [List.length_cons] at hk ⊢
    have hstep : (after c k).toNat = k.toNat + 1 := by
      rw [after, if_neg (Ne.symm hc), toNat_ofCount]
      omega
    rw [afterText_cons, ih ht (by omega), hstep]
    omega

theorem ofText_eq_afterText (t : Text) : ofText t = afterText 0 t := ofText_append [] t

theorem toNat_ofText_le (t : Text) : (ofText t).toNat ≤ t.length := by
  have h := toNat_afterText_le 0 t
  rw [← ofText_eq_afterText] at h
  simpa using h

/-- After a newline the column is the length of the line. -/
theorem toNat_ofText_line (t : Text) {u : Text} (hn : '\n' ∉ u) (hu : u.length ≤ limit) :
    (ofText (t ++ '\n' :: u)).toNat = u.length := by
  rw [ofText_append, afterText_cons, after, if_pos rfl]
  simpa using toNat_afterText_line (k := 0) hn (by simpa using hu)

end ScssTokens.Column

import ScssTokens.Text.Offset

/-!
# Columns

The column of a character is the number of characters before it on its line. A line ends with a
newline, which belongs to the line it ends. A column is a 32-bit word, and the largest word stands
for every count that does not fit.

## Main definitions

* `Column.after` — the column of a character from the character before it.
* `Column.ofText` — the column that follows a text.
* `Column.Precedes` — two columns of which the second is the next one.
-/

namespace ScssTokens

/-- The number of characters before a character on its line. -/
abbrev Column := UInt32

namespace Column

/-- The largest column, which stands for every greater count too. -/
def limit : Nat := UInt32.size - 1

/-- A count of characters as a column. -/
def ofCount (n : Nat) : Column := UInt32.ofNat (min n limit)

@[simp] theorem toNat_ofCount (n : Nat) : (ofCount n).toNat = min n limit :=
  UInt32.toNat_ofNat_of_lt' (Nat.lt_of_le_of_lt (Nat.min_le_right n limit) (by decide))

/-- The column after a character at column `k`. -/
def after (c : Char) (k : Column) : Column :=
  if c = '\n' then 0 else ofCount (k.toNat + 1)

/-- The column after a text that starts at column `k`. -/
def afterText (k : Column) (t : Text) : Column := t.foldl (fun k c => after c k) k

@[simp] theorem afterText_nil (k : Column) : afterText k [] = k := rfl

@[simp] theorem afterText_cons (k : Column) (c : Char) (t : Text) :
    afterText k (c :: t) = afterText (after c k) t := rfl

@[simp] theorem afterText_append (k : Column) (t u : Text) :
    afterText k (t ++ u) = afterText (afterText k t) u := by
  simp [afterText]

/-- The last line of a text: what follows its last newline. -/
def lastLine (t : Text) : Text := (t.reverse.takeWhile (· ≠ '\n')).reverse

/-- The column that follows a text: the length of its last line. -/
def ofText (t : Text) : Column := ofCount (lastLine t).length

@[simp] theorem ofText_nil : ofText [] = 0 := rfl

theorem ofText_concat (t : Text) (c : Char) : ofText (t ++ [c]) = after c (ofText t) := by
  by_cases h : c = '\n'
  · simp [ofText, lastLine, after, h]
    rfl
  · apply UInt32.toNat_inj.1
    simp [ofText, lastLine, after, h]
    omega

/-- Counting a last line agrees with following the characters one by one. -/
theorem ofText_append (t u : Text) : ofText (t ++ u) = afterText (ofText t) u := by
  induction u generalizing t with
  | nil => simp
  | cons c u ih => rw [List.append_cons, ih, ofText_concat, afterText_cons]

/-- Column `k` is the one that follows column `j`. Nothing follows the largest column. -/
def Precedes (j k : Column) : Prop := j.toNat + 1 = k.toNat

instance (j k : Column) : Decidable (Precedes j k) := inferInstanceAs (Decidable (_ = _))

theorem precedes_after {c : Char} {k : Column} (hc : c ≠ '\n') (hk : k.toNat < limit) :
    Precedes k (after c k) := by
  simp [Precedes, after, hc]
  omega

end Column

end ScssTokens

/-!
# Offsets into a text

A text is its list of characters, and an offset into it counts the bytes of its UTF-8 form. An
offset is a boundary when it falls between two characters or at an end; only boundaries name a
place in the text, and cutting at any other offset moves back to the boundary before it.

## Main definitions

* `Text.size` — the number of bytes.
* `Text.takeBytes`, `Text.dropBytes` — the two sides of a cut.
* `Text.IsBoundary`, `Text.boundaries` — the offsets that name a place.
* `Text.slice?` — the text between two boundaries.
-/

namespace ScssTokens

/-- A text is the list of its characters. -/
abbrev Text := List Char

namespace Text

/-- The number of bytes of the UTF-8 form. -/
def size : Text → Nat
  | [] => 0
  | c :: t => c.utf8Size + size t

@[simp] theorem size_nil : size [] = 0 := rfl

@[simp] theorem size_cons (c : Char) (t : Text) : size (c :: t) = c.utf8Size + size t := rfl

@[simp] theorem size_append (t u : Text) : size (t ++ u) = size t + size u := by
  induction t with
  | nil => simp
  | cons c t ih => simp [ih, Nat.add_assoc]

theorem size_eq_zero {t : Text} : size t = 0 ↔ t = [] := by
  cases t with
  | nil => simp
  | cons c t => simpa using fun h => absurd h (Nat.ne_of_gt c.utf8Size_pos)

/-! ## Cutting at an offset -/

/-- The characters that fit into the first `n` bytes. -/
def takeBytes (n : Nat) : Text → Text
  | [] => []
  | c :: t => if c.utf8Size ≤ n then c :: takeBytes (n - c.utf8Size) t else []

/-- The text without the characters that fit into its first `n` bytes. -/
def dropBytes (n : Nat) : Text → Text
  | [] => []
  | c :: t => if c.utf8Size ≤ n then dropBytes (n - c.utf8Size) t else c :: t

theorem takeBytes_append_dropBytes (n : Nat) (t : Text) :
    takeBytes n t ++ dropBytes n t = t := by
  fun_induction takeBytes n t with
  | case1 => rfl
  | case2 n c t hc ih => simp [dropBytes, hc, ih]
  | case3 n c t hc => simp [dropBytes, hc]

@[simp] theorem takeBytes_size_append (l r : Text) : takeBytes (size l) (l ++ r) = l := by
  induction l with
  | nil =>
    cases r with
    | nil => rfl
    | cons c r => simpa [takeBytes, Nat.pos_iff_ne_zero] using c.utf8Size_pos
  | cons c l ih => simp [takeBytes, ih]

@[simp] theorem dropBytes_size_append (l r : Text) : dropBytes (size l) (l ++ r) = r := by
  simpa using takeBytes_append_dropBytes (size l) (l ++ r)

/-- An offset past the end cuts at the end. -/
theorem takeBytes_of_size_le {n : Nat} {t : Text} (h : size t ≤ n) : takeBytes n t = t := by
  fun_induction takeBytes n t with
  | case1 => rfl
  | case2 n c t _ ih => simp [ih (by simp at h; omega)]
  | case3 n c t hc => simp at h; omega

/-! ## Boundaries -/

/-- An offset between two characters, or at an end. -/
def IsBoundary (t : Text) (n : Nat) : Prop := size (takeBytes n t) = n

instance (t : Text) (n : Nat) : Decidable (IsBoundary t n) := inferInstanceAs (Decidable (_ = _))

theorem isBoundary_iff {t : Text} {n : Nat} :
    IsBoundary t n ↔ ∃ l r, t = l ++ r ∧ size l = n := by
  constructor
  · exact fun h => ⟨takeBytes n t, dropBytes n t, (takeBytes_append_dropBytes n t).symm, h⟩
  · rintro ⟨l, r, rfl, rfl⟩
    simp [IsBoundary]

theorem IsBoundary.le_size {t : Text} {n : Nat} (h : IsBoundary t n) : n ≤ size t := by
  obtain ⟨l, r, rfl, rfl⟩ := isBoundary_iff.1 h
  simp

/-- The boundaries of a text that starts at offset `n`, in ascending order. -/
def boundariesFrom (n : Nat) : Text → List Nat
  | [] => [n]
  | c :: t => n :: boundariesFrom (n + c.utf8Size) t

/-- The boundaries of a text, in ascending order. -/
def boundaries (t : Text) : List Nat := boundariesFrom 0 t

theorem mem_boundariesFrom {m n : Nat} {t : Text} :
    m ∈ boundariesFrom n t ↔ ∃ l r, t = l ++ r ∧ n + size l = m := by
  induction t generalizing n with
  | nil => simp [boundariesFrom, eq_comm]
  | cons c t ih =>
    rw [boundariesFrom, List.mem_cons, ih]
    constructor
    · rintro (rfl | ⟨l, r, rfl, rfl⟩)
      · exact ⟨[], c :: t, rfl, rfl⟩
      · exact ⟨c :: l, r, rfl, by simp [Nat.add_assoc]⟩
    · rintro ⟨l, r, h, rfl⟩
      cases l with
      | nil => simp
      | cons d l =>
        obtain ⟨rfl, rfl⟩ : c = d ∧ t = l ++ r := by simpa using h
        exact .inr ⟨l, r, rfl, by simp [Nat.add_assoc]⟩

@[simp] theorem mem_boundaries {t : Text} {n : Nat} : n ∈ boundaries t ↔ IsBoundary t n := by
  simp [boundaries, mem_boundariesFrom, isBoundary_iff]

/-! ## Slices -/

/-- The text between two boundaries, the first not after the second. -/
def slice? (t : Text) (start stop : Nat) : Option Text :=
  if start ≤ stop ∧ IsBoundary t start ∧ IsBoundary t stop then
    some (takeBytes (stop - start) (dropBytes start t))
  else
    none

theorem slice?_eq_some_iff {t s : Text} {start stop : Nat} :
    slice? t start stop = some s ↔
      ∃ l r, t = l ++ (s ++ r) ∧ size l = start ∧ size l + size s = stop := by
  constructor
  · intro h
    unfold slice? at h
    split at h
    · rename_i hb
      obtain ⟨hle, hs, ht⟩ := hb
      obtain ⟨l, r, rfl, rfl⟩ := isBoundary_iff.1 hs
      obtain ⟨l', r', e, rfl⟩ := isBoundary_iff.1 ht
      obtain ⟨m, rfl, rfl⟩ | ⟨m, rfl, rfl⟩ := List.append_eq_append_iff.1 e
      · refine ⟨l, r', ?_⟩
        simp at h
        simp [h]
      · obtain rfl : m = [] := size_eq_zero.1 (by simp at hle; omega)
        refine ⟨l', r, ?_⟩
        simp at h
        have h0 : takeBytes 0 r = [] := takeBytes_size_append [] r
        simp [← h, h0]
    · simp at h
  · rintro ⟨l, r, rfl, rfl, rfl⟩
    have hb : IsBoundary (l ++ (s ++ r)) (size l + size s) :=
      isBoundary_iff.2 ⟨l ++ s, r, by simp, by simp⟩
    have ha : IsBoundary (l ++ (s ++ r)) (size l) := isBoundary_iff.2 ⟨l, s ++ r, rfl, rfl⟩
    simp [slice?, ha, hb]

end Text

end ScssTokens

import ScssTokens.Text.Column

/-!
# Columns by search

The column of a place can be found without following the characters from the start of the text: one
looks for the last newline among the bytes before the place and counts the characters from there. No
byte of another character looks like a newline, so this is the column that following gives.

The search itself is left to any function that finds the last occurrence of a byte.

## Main definitions

* `Text.bytes` — the UTF-8 form of a text.
* `SearchesBack` — a function finds the last occurrence of a byte.
* `Column.bySearch` — the column at an offset by such a function.

## Main statements

* `Column.exists_lines` — a text is cut into its last line and the lines before it.
* `Column.bySearch_eq` — the search finds the column that follows the text before.
-/

namespace ScssTokens

/-! ## Bytes -/

/-- The bytes of the UTF-8 form. -/
def Text.bytes (t : Text) : List UInt8 := t.flatMap String.utf8EncodeChar

namespace Text

@[simp] theorem bytes_nil : bytes [] = [] := rfl

@[simp] theorem bytes_cons (c : Char) (t : Text) :
    bytes (c :: t) = String.utf8EncodeChar c ++ bytes t := rfl

@[simp] theorem bytes_append (t u : Text) : bytes (t ++ u) = bytes t ++ bytes u :=
  List.flatMap_append

@[simp] theorem length_bytes (t : Text) : (bytes t).length = size t := by
  induction t with
  | nil => rfl
  | cons c t ih => simp [ih]

/-- A byte of a character is the character itself, or else its highest bit is set. -/
theorem toNat_of_mem_utf8EncodeChar {c : Char} {b : UInt8} (h : b ∈ String.utf8EncodeChar c) :
    b.toNat = c.toNat ∨ 128 ≤ b.toNat := by
  have hc : c.val.toNat = c.toNat := rfl
  simp only [String.utf8EncodeChar, hc] at h
  split at h
  · rw [List.mem_singleton.1 h, UInt8.toNat_ofNat']
    omega
  · right
    -- the bytes that follow the first end in six bits of the character each
    split at h
    · simp only [List.mem_cons, List.not_mem_nil, or_false] at h
      rcases h with rfl | rfl <;> rw [UInt8.toNat_ofNat'] <;> omega
    · split at h
      · simp only [List.mem_cons, List.not_mem_nil, or_false] at h
        rcases h with rfl | rfl | rfl <;> rw [UInt8.toNat_ofNat'] <;> omega
      · simp only [List.mem_cons, List.not_mem_nil, or_false] at h
        rcases h with rfl | rfl | rfl | rfl <;> rw [UInt8.toNat_ofNat'] <;> omega

theorem newline_mem_utf8EncodeChar {c : Char} :
    '\n'.toUInt8 ∈ String.utf8EncodeChar c ↔ c = '\n' := by
  constructor
  · intro h
    obtain heq | hge := toNat_of_mem_utf8EncodeChar h
    · exact Char.toNat_inj.1 (heq.symm.trans (by decide))
    · exact absurd hge (by decide)
  · rintro rfl
    decide

theorem newline_mem_bytes {t : Text} : '\n'.toUInt8 ∈ bytes t ↔ '\n' ∈ t := by
  simp [bytes, newline_mem_utf8EncodeChar]

end Text

/-! ## Searches -/

/-- Whether a function finds the index of the last occurrence of a byte, if there is one. -/
def SearchesBack (find : UInt8 → List UInt8 → Option Nat) : Prop :=
  ∀ b bs i, find b bs = some i ↔ bs[i]? = some b ∧ ∀ j, i < j → bs[j]? ≠ some b

section

variable {find : UInt8 → List UInt8 → Option Nat}

theorem SearchesBack.eq_none (h : SearchesBack find) {b : UInt8} {bs : List UInt8} (hb : b ∉ bs) :
    find b bs = none := by
  cases hi : find b bs with
  | none => rfl
  | some i => exact absurd (List.mem_of_getElem? ((h b bs i).1 hi).1) hb

theorem SearchesBack.eq_some (h : SearchesBack find) {b : UInt8} (bs : List UInt8)
    {cs : List UInt8} (hb : b ∉ cs) : find b (bs ++ b :: cs) = some bs.length := by
  refine (h _ _ _).2 ⟨by simp, fun j hj hat => ?_⟩
  obtain ⟨n, rfl⟩ := Nat.exists_eq_add_of_lt hj
  rw [List.getElem?_append_right (by omega)] at hat
  have hrest : (b :: cs)[n + 1]? = some b := by
    rw [← hat]
    congr 1
    omega
  exact hb (List.mem_of_getElem? (by simpa using hrest))

end

/-- The index of the last occurrence of a byte. -/
def lastIndexOf? (b : UInt8) : List UInt8 → Option Nat
  | [] => none
  | c :: bs => ((lastIndexOf? b bs).map (· + 1)).or (if c = b then some 0 else none)

theorem lastIndexOf?_eq_none_iff {b : UInt8} {bs : List UInt8} :
    lastIndexOf? b bs = none ↔ b ∉ bs := by
  induction bs with
  | nil => simp [lastIndexOf?]
  | cons c bs ih => simp [lastIndexOf?, ih, and_comm, eq_comm (a := b)]

theorem searchesBack_lastIndexOf? : SearchesBack lastIndexOf? := by
  intro b bs i
  induction bs generalizing i with
  | nil => simp [lastIndexOf?]
  | cons c bs ih =>
    rw [lastIndexOf?]
    cases i with
    | zero =>
      cases hl : lastIndexOf? b bs with
      | none =>
        have hb := lastIndexOf?_eq_none_iff.1 hl
        have hrest : ∀ j, 0 < j → (c :: bs)[j]? ≠ some b := by
          intro j hj hat
          obtain ⟨n, rfl⟩ := Nat.exists_eq_succ_of_ne_zero (Nat.ne_of_gt hj)
          exact hb (List.mem_of_getElem? hat)
        simpa using fun _ => hrest
      | some n =>
        have hat : (c :: bs)[n + 1]? = some b := ((ih n).1 hl).1
        simpa using fun _ => ⟨n + 1, Nat.succ_pos n, hat⟩
    | succ i =>
      have hnext : (∀ j, i + 1 < j → (c :: bs)[j]? ≠ some b) ↔ ∀ j, i < j → bs[j]? ≠ some b := by
        constructor
        · intro h j hj
          exact h (j + 1) (Nat.succ_lt_succ hj)
        · intro h j hj
          obtain ⟨n, rfl⟩ := Nat.exists_eq_succ_of_ne_zero (Nat.ne_of_gt (Nat.zero_lt_of_lt hj))
          exact h n (Nat.lt_of_succ_lt_succ hj)
      rw [hnext, List.getElem?_cons_succ, ← ih]
      cases lastIndexOf? b bs <;> simp

/-! ## Columns -/

namespace Column

/-- A text is its last line with the lines before it, each of which ends with its newline. -/
theorem exists_lines (t : Text) :
    ∃ lines, t = lines ++ lastLine t ∧ (lines = [] ∨ ∃ l, lines = l ++ ['\n']) ∧
      '\n' ∉ lastLine t := by
  refine ⟨(t.reverse.dropWhile (· ≠ '\n')).reverse, ?_, ?_, ?_⟩
  · rw [lastLine, ← List.reverse_append, List.takeWhile_append_dropWhile, List.reverse_reverse]
  · cases hd : t.reverse.dropWhile (· ≠ '\n') with
    | nil => exact .inl rfl
    | cons c l =>
      have hc := List.head?_dropWhile_not (· ≠ '\n') t.reverse
      rw [hd] at hc
      have hnewline : c = '\n' := by simpa using hc
      exact .inr ⟨l.reverse, by rw [hnewline, List.reverse_cons]⟩
  · rw [lastLine, List.mem_reverse]
    intro h
    have hne := List.all_eq_true.1 List.all_takeWhile _ h
    simp at hne

/-- The column at an offset of a text: the line starts past the last newline among the bytes before
the offset, and its characters up to the offset are counted. -/
def bySearch (find : UInt8 → List UInt8 → Option Nat) (source : Text) (offset : Nat) : Column :=
  let lineStart := (find '\n'.toUInt8 (source.bytes.take offset)).elim 0 (· + 1)
  ofCount ((source.slice? lineStart offset).elim 0 List.length)

/-- The search finds the column that follows the text before. -/
theorem bySearch_eq {find : UInt8 → List UInt8 → Option Nat} (h : SearchesBack find)
    (before after : Text) : bySearch find (before ++ after) before.size = ofText before := by
  obtain ⟨lines, hcut, hlines, hn⟩ := exists_lines before
  have hline : '\n'.toUInt8 ∉ (lastLine before).bytes := mt Text.newline_mem_bytes.1 hn
  have hbytes : (before ++ after).bytes.take before.size = before.bytes := by
    rw [Text.bytes_append, ← Text.length_bytes, List.take_left]
  have hstart : (find '\n'.toUInt8 before.bytes).elim 0 (· + 1) = lines.size := by
    obtain rfl | ⟨l, rfl⟩ := hlines
    · rw [List.nil_append] at hcut
      rw [← hcut] at hline
      rw [h.eq_none hline]
      rfl
    · have hnewline : String.utf8EncodeChar '\n' = ['\n'.toUInt8] := by decide
      have hbefore : before.bytes = l.bytes ++ '\n'.toUInt8 :: (lastLine before).bytes := by
        conv => lhs; rw [hcut]
        simp [hnewline]
      rw [hbefore, h.eq_some l.bytes hline, Option.elim_some, Text.length_bytes, Text.size_append]
      rfl
  have hslice : (before ++ after).slice? lines.size before.size = some (lastLine before) :=
    Text.slice?_eq_some_iff.2 ⟨lines, after, by rw [← List.append_assoc, ← hcut], rfl, by
      rw [← Text.size_append, ← hcut]⟩
  rw [bySearch, hbytes, hstart, hslice]
  rfl

end Column

end ScssTokens

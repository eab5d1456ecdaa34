import ScssTokens.Token.Kind

/-!
# Candidate sets

The set of token kinds that a parser would accept at a place, as a word with one bit for each kind
at the kind's index. The bit above the kinds is set while the parser recovers from an error. Those
nine bits are the known ones; a word may have others, which mean nothing and are kept.

## Main definitions

* `Candidates` — the word.
* `Candidates.accepts`, `Candidates.inRecovery` — the meaning of the known bits.
* `Candidates.ofWord`, `Candidates.ofWord?`, `Candidates.ofKinds` — sets from words and from kinds.
* `Candidates.kinds` — the accepted kinds in order.
-/

namespace ScssTokens

/-- A set of token kinds and the mark of error recovery, one bit each. -/
@[ext]
structure Candidates where
  bits : BitVec 16
  deriving DecidableEq, Repr

namespace Candidates

instance : EmptyCollection Candidates := ⟨⟨0⟩⟩
instance : Inhabited Candidates := ⟨∅⟩

/-! ## Bits -/

/-- The bit above the kinds, set while a parser recovers from an error. -/
def recoveryIndex : Nat := Kind.count

/-- The number of known bits: one for each kind and one for error recovery. -/
def flagCount : Nat := recoveryIndex + 1

/-- The set of one kind. -/
def ofKind (k : Kind) : Candidates := ⟨BitVec.twoPow 16 k.index⟩

/-- The set that holds the mark of error recovery alone. -/
def recovery : Candidates := ⟨BitVec.twoPow 16 recoveryIndex⟩

/-- Whether a set holds a kind. -/
def accepts (V : Candidates) (k : Kind) : Bool := V.bits.getLsbD k.index

/-- Whether a set holds the mark of error recovery. -/
def inRecovery (V : Candidates) : Bool := V.bits.getLsbD recoveryIndex

@[simp] theorem bits_empty : (∅ : Candidates).bits = 0 := rfl

@[simp] theorem accepts_empty (k : Kind) : accepts ∅ k = false := by
  cases k <;> rfl

@[simp] theorem inRecovery_empty : inRecovery ∅ = false := rfl

@[simp] theorem accepts_ofKind (j k : Kind) : (ofKind j).accepts k = decide (j = k) := by
  cases j <;> cases k <;> rfl

@[simp] theorem inRecovery_ofKind (k : Kind) : (ofKind k).inRecovery = false := by
  cases k <;> rfl

@[simp] theorem accepts_recovery (k : Kind) : recovery.accepts k = false := by
  cases k <;> rfl

/-! ## Operations -/

/-- The bits of either set. -/
def union (a b : Candidates) : Candidates := ⟨a.bits ||| b.bits⟩

/-- The bits of both sets. -/
def inter (a b : Candidates) : Candidates := ⟨a.bits &&& b.bits⟩

/-- The bits of the first set that are not in the second. -/
def diff (a b : Candidates) : Candidates := ⟨a.bits &&& ~~~b.bits⟩

/-- The bits of exactly one of the sets. -/
def symmDiff (a b : Candidates) : Candidates := ⟨a.bits ^^^ b.bits⟩

instance : Union Candidates := ⟨union⟩
instance : Inter Candidates := ⟨inter⟩
instance : SDiff Candidates := ⟨diff⟩

@[simp] theorem bits_union (a b : Candidates) : (a ∪ b).bits = a.bits ||| b.bits := rfl
@[simp] theorem bits_inter (a b : Candidates) : (a ∩ b).bits = a.bits &&& b.bits := rfl
@[simp] theorem bits_sdiff (a b : Candidates) : (a \ b).bits = a.bits &&& ~~~b.bits := rfl

@[simp] theorem union_empty (V : Candidates) : V ∪ ∅ = V := by
  apply Candidates.ext
  simp

@[simp] theorem accepts_union (a b : Candidates) (k : Kind) :
    (a ∪ b).accepts k = (a.accepts k || b.accepts k) := by
  simp [accepts]

@[simp] theorem accepts_inter (a b : Candidates) (k : Kind) :
    (a ∩ b).accepts k = (a.accepts k && b.accepts k) := by
  simp [accepts]

@[simp] theorem inRecovery_union (a b : Candidates) :
    (a ∪ b).inRecovery = (a.inRecovery || b.inRecovery) := by
  simp [inRecovery]

@[simp] theorem inRecovery_inter (a b : Candidates) :
    (a ∩ b).inRecovery = (a.inRecovery && b.inRecovery) := by
  simp [inRecovery]

/-- The set of all kinds with the mark of error recovery. -/
def full : Candidates := ⟨(BitVec.allOnes flagCount).setWidth 16⟩

@[simp] theorem accepts_full (k : Kind) : full.accepts k = true := by
  cases k <;> rfl

@[simp] theorem inRecovery_full : full.inRecovery = true := rfl

/-- The known bits that a set does not hold. -/
def complement (V : Candidates) : Candidates := full \ V

/-- Whether the first set holds every bit of the second. -/
def contains (a b : Candidates) : Bool := a ∩ b = b

/-- Whether two sets have a bit in common. -/
def intersects (a b : Candidates) : Bool := a ∩ b ≠ ∅

/-- Whether a set holds no bit at all. -/
def isEmpty (V : Candidates) : Bool := V = ∅

/-- Whether a set holds every known bit. -/
def isFull (V : Candidates) : Bool := V.contains full

/-- The two kinds of variable. -/
def anyVariable : Candidates := ofKind .plainVariable ∪ ofKind .restVariable

theorem intersects_anyVariable (V : Candidates) :
    V.intersects anyVariable = (V.accepts .plainVariable || V.accepts .restVariable) := by
  have hv : anyVariable.bits = BitVec.twoPow 16 6 ||| BitVec.twoPow 16 7 := rfl
  rw [Bool.eq_iff_iff, intersects, decide_eq_true_iff, Ne, Candidates.ext_iff, Bool.or_eq_true]
  simp only [accepts, bits_inter, bits_empty, hv, Kind.index]
  constructor
  · intro h
    apply Classical.byContradiction
    intro hn
    apply h
    ext i hi
    simp [BitVec.getElem_twoPow] at hn ⊢
    by_cases h6 : i = 6
    · simp [h6, hn.1]
    · by_cases h7 : i = 7
      · simp [h7, hn.2]
      · simp [h6, h7]
  · intro h e
    have h6 := congrArg (BitVec.getLsbD · 6) e
    have h7 := congrArg (BitVec.getLsbD · 7) e
    simp at h6 h7
    simp_all

/-! ## Sets from words -/

/-- The set of the known bits of a word. -/
def ofWord (w : BitVec 16) : Candidates := ⟨w⟩ ∩ full

@[simp] theorem accepts_ofWord (w : BitVec 16) (k : Kind) :
    (ofWord w).accepts k = w.getLsbD k.index := by
  rw [ofWord, accepts_inter, accepts_full, Bool.and_true, accepts]

@[simp] theorem inRecovery_ofWord (w : BitVec 16) :
    (ofWord w).inRecovery = w.getLsbD recoveryIndex := by
  rw [ofWord, inRecovery_inter, inRecovery_full, Bool.and_true, inRecovery]

/-- The set of a word, if all its bits are known. -/
def ofWord? (w : BitVec 16) : Option Candidates :=
  if full.contains ⟨w⟩ then some ⟨w⟩ else none

/-! ## Sets from lists of kinds -/

/-- The kinds that a set holds, in order. -/
def kinds (V : Candidates) : List Kind := Kind.all.filter V.accepts

@[simp] theorem mem_kinds {V : Candidates} {k : Kind} : k ∈ V.kinds ↔ V.accepts k := by
  simp [kinds, Kind.mem_all]

/-- The set of the kinds in a list, in any order and with any repeats. -/
def ofKinds (ks : List Kind) : Candidates := ks.foldl (fun V k => V ∪ ofKind k) ∅

theorem getLsbD_bits_ofKind (k : Kind) (i : Nat) :
    (ofKind k).bits.getLsbD i = (k.index == i) := by
  have hk : k.index < 16 := Nat.lt_trans k.index_lt (by decide)
  rw [Bool.eq_iff_iff]
  simp [ofKind, BitVec.getLsbD_twoPow, hk]

theorem getLsbD_bits_recovery (i : Nat) : recovery.bits.getLsbD i = (recoveryIndex == i) := by
  have hr : recoveryIndex < 16 := by decide
  rw [Bool.eq_iff_iff]
  simp [recovery, BitVec.getLsbD_twoPow, hr]

/-- Collecting kinds sets the bits at their indices and leaves the others. -/
theorem getLsbD_bits_foldl_union (ks : List Kind) (V : Candidates) (i : Nat) :
    (ks.foldl (fun V k => V ∪ ofKind k) V).bits.getLsbD i =
      (V.bits.getLsbD i || ks.any (·.index == i)) := by
  induction ks generalizing V with
  | nil => simp
  | cons k ks ih => simp [ih, getLsbD_bits_ofKind, Bool.or_assoc]

theorem getLsbD_bits_ofKinds (ks : List Kind) (i : Nat) :
    (ofKinds ks).bits.getLsbD i = ks.any (·.index == i) := by
  simp [ofKinds, getLsbD_bits_foldl_union]

@[simp] theorem accepts_ofKinds (ks : List Kind) (k : Kind) :
    (ofKinds ks).accepts k = ks.contains k := by
  rw [accepts, getLsbD_bits_ofKinds, Bool.eq_iff_iff]
  simp

@[simp] theorem inRecovery_ofKinds (ks : List Kind) : (ofKinds ks).inRecovery = false := by
  rw [inRecovery, getLsbD_bits_ofKinds, List.any_eq_false]
  intro k _
  have hk : k.index ≠ recoveryIndex := Nat.ne_of_lt k.index_lt
  simpa using hk

end Candidates

end ScssTokens

/-!
# Token kinds

The tokens whose extent a grammar cannot decide with bounded lookahead. The order of the kinds is
the order in which a grammar lists them, and a kind's index is its place in that list.

## Main definitions

* `Kind` — the eight kinds.
* `Kind.index`, `Kind.ofIndex?` — a kind and its place in the list.
* `Kind.symbol` — the name that a grammar gives to a kind.
-/

namespace ScssTokens

/-- The kinds of token, in the order in which a grammar lists them. -/
inductive Kind where
  /-- Whitespace between two selector components, as in `.a .b`; the token is empty. -/
  | descendantCombinator
  /-- The colon that opens a pseudo-class selector. -/
  | pseudoClassColon
  /-- An empty token that asserts that no whitespace stands here. -/
  | noWhitespace
  /-- A literal run inside a string in single quotes. -/
  | singleQuotedSegment
  /-- A literal run inside a string in double quotes. -/
  | doubleQuotedSegment
  /-- One value of an `@apply` directive. -/
  | applyValue
  /-- A variable that no rest marker follows. -/
  | plainVariable
  /-- A variable with the rest marker `...` directly after it. -/
  | restVariable
  deriving DecidableEq, Repr, Inhabited

namespace Kind

/-- Every kind, in order. -/
def all : List Kind :=
  [descendantCombinator, pseudoClassColon, noWhitespace, singleQuotedSegment, doubleQuotedSegment,
    applyValue, plainVariable, restVariable]

theorem mem_all (k : Kind) : k ∈ all := by cases k <;> decide

/-- The number of kinds. -/
def count : Nat := all.length

/-- The place of a kind in the list of all kinds. -/
def index : Kind → Nat
  | descendantCombinator => 0
  | pseudoClassColon => 1
  | noWhitespace => 2
  | singleQuotedSegment => 3
  | doubleQuotedSegment => 4
  | applyValue => 5
  | plainVariable => 6
  | restVariable => 7

/-- The kind at a place of the list of all kinds. -/
def ofIndex? (i : Nat) : Option Kind := all[i]?

theorem index_lt (k : Kind) : k.index < count := by cases k <;> decide

@[simp] theorem ofIndex?_index (k : Kind) : ofIndex? k.index = some k := by cases k <;> rfl

theorem index_injective {j k : Kind} (h : j.index = k.index) : j = k := by
  simpa using congrArg ofIndex? h

@[simp] theorem index_inj {j k : Kind} : j.index = k.index ↔ j = k :=
  ⟨index_injective, fun h => h ▸ rfl⟩

/-- The name of the symbol that a grammar declares for a kind. -/
def symbol : Kind → String
  | descendantCombinator => "_descendant_operator"
  | pseudoClassColon => "_pseudo_class_selector_colon"
  | noWhitespace => "_no_whitespace"
  | singleQuotedSegment => "_single_quoted_string_segment"
  | doubleQuotedSegment => "_double_quoted_string_segment"
  | applyValue => "_apply_value"
  | plainVariable => "_variable_identifier"
  | restVariable => "_variable_identifier_with_following_rest"

instance : ToString Kind := ⟨symbol⟩

end Kind

end ScssTokens

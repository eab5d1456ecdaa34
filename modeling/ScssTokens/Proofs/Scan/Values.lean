import ScssTokens.Proofs.Scan.Apply
import ScssTokens.Proofs.Scan.Chain

/-!
# Values in a row

A scan for a value of an `@apply` directive alone reads whitespace, then characters that may stand
in a value, and looks at the one after them. Read in this way, a list of values that is written with
whitespace between them and a semicolon at its end gives the values back, one scan for each.

## Main definitions

* `SpacedValue` — a value with the whitespace before it.
* `SpacedValue.render` — values written in turn, `SpacedValue.tokens` — where they lie.

## Main statements

* `SpacedValue.scanAt_value` — a scan finds a value where it was written.
* `tokensFrom_render` — the scans of a rendered list of values.
-/

namespace ScssTokens

/-! ## Lists of values -/

/-- A value as it stands in a list, with the whitespace before it. It is not empty, and it has no
whitespace in it and none of the characters that end a statement or open or close a block. -/
structure SpacedValue where
  space : Text
  value : Text
  blank : ∀ c ∈ space, Unicode.isWhiteSpace c
  ne_nil : value ≠ []
  plain : ∀ c ∈ value, Unicode.isWhiteSpace c = false ∧ c ∉ [';', '!', '{', '}']

namespace SpacedValue

/-- The text of values written in turn. -/
def render (vs : List SpacedValue) : Text := vs.flatMap fun v => v.space ++ v.value

@[simp] theorem render_nil : render [] = [] := rfl

@[simp] theorem render_cons (v : SpacedValue) (vs : List SpacedValue) :
    render (v :: vs) = v.space ++ v.value ++ render vs := rfl

/-- Where the values lie that are written in turn from a place on. -/
def tokens (place : Nat) : List SpacedValue → List Token
  | [] => []
  | v :: vs =>
    let start := place + v.space.size
    ⟨.applyValue, start, start + v.value.size⟩ :: tokens (start + v.value.size) vs

theorem reached_tokens (place : Nat) (vs : List SpacedValue) :
    reached place (tokens place vs) = place + (render vs).size := by
  induction vs generalizing place with
  | nil => rfl
  | cons v vs ih => simp [tokens, reached, ih, Nat.add_assoc]

/-- The tokens cover the values. -/
theorem slice_tokens (before : Text) (vs : List SpacedValue) (rest : Text) :
    (tokens before.size vs).map (fun t =>
      Text.slice? (before ++ (render vs ++ rest)) t.span.start t.span.stop) =
        vs.map fun v => some v.value := by
  induction vs generalizing before with
  | nil => rfl
  | cons v vs ih =>
    have hsource : before ++ (render (v :: vs) ++ rest) =
        before ++ v.space ++ v.value ++ (render vs ++ rest) := by simp
    have hslice : Text.slice? (before ++ v.space ++ v.value ++ (render vs ++ rest))
        (before.size + v.space.size) (before.size + v.space.size + v.value.size) = some v.value :=
      Text.slice?_eq_some_iff.2 ⟨before ++ v.space, render vs ++ rest, by simp, by simp, by simp⟩
    have hplace : (before ++ v.space ++ v.value).size =
        before.size + v.space.size + v.value.size := by
      simp [Nat.add_assoc]
    have hrest := ih (before ++ v.space ++ v.value)
    rw [hplace] at hrest
    rw [hsource]
    simp only [tokens, List.map_cons, hslice, hrest]

/-- What ends a value well cuts the text after it. -/
theorem parts (v : SpacedValue) {rest : Text} (h : rest.head?.any Decision.closesValue) :
    ValueParts v.space v.value rest where
  blank := v.blank
  ink := by
    obtain ⟨c, value, hvalue⟩ := List.exists_cons_of_ne_nil v.ne_nil
    simpa [hvalue] using (v.plain c (by simp [hvalue])).1
  plain := v.plain
  stop c hc := by
    rw [Option.mem_def.1 hc, Option.any_some, Decision.closesValue] at h
    grind

/-- Before a character that ends it well a value is found where it was written. -/
theorem scanAt_value (v : SpacedValue) (before : Text) {rest : Text}
    (h : rest.head?.any Decision.closesValue) :
    scanAt (before ++ (v.space ++ (v.value ++ rest))) before.size (.ofKind .applyValue) =
      some ⟨.applyValue, before.size + v.space.size,
        before.size + v.space.size + v.value.size⟩ := by
  rw [(v.parts h).scanAt_eq before, if_pos ⟨v.ne_nil, h⟩]
  simp only [Text.size_append]

/-- Before a semicolon with nothing but whitespace before it no value is found. -/
theorem scanAt_semicolon (before : Text) {space : Text}
    (hblank : ∀ c ∈ space, Unicode.isWhiteSpace c) (after : Text) :
    scanAt (before ++ (space ++ ';' :: after)) before.size (.ofKind .applyValue) = none := by
  have hparts : ValueParts space [] (';' :: after) := ⟨hblank, rfl, by simp, by simp⟩
  exact (hparts.scanAt_eq before).trans (if_neg fun h => h.1 rfl)

/-- Where values go on there is whitespace or what comes after them all. -/
theorem head?_render_append {vs : List SpacedValue} (hvs : ∀ v ∈ vs.head?, v.space ≠ [])
    {rest : Text} (h : rest.head?.any Decision.closesValue) :
    (render vs ++ rest).head?.any Decision.closesValue := by
  cases vs with
  | nil => exact h
  | cons v vs =>
    obtain ⟨c, space, hspace⟩ := List.exists_cons_of_ne_nil (hvs v rfl)
    have hc := v.blank c (by simp [hspace])
    simp [hspace, Decision.closesValue, hc]

/-- One scan after another finds the values that are written in turn, each at its place, up to a
text before which none is found. -/
theorem tokensFrom_render_append {vs : List SpacedValue} (hvs : ∀ v ∈ vs.tail, v.space ≠ [])
    {rest : Text} (hcloses : rest.head?.any Decision.closesValue)
    (hrest : ∀ before, scanAt (before ++ rest) before.size (.ofKind .applyValue) = none)
    (before : Text) (n : Nat) :
    tokensFrom (before ++ (render vs ++ rest)) before.size
        (List.replicate n (.ofKind .applyValue)) =
      (tokens before.size vs).take n := by
  induction vs generalizing before n with
  | nil =>
    cases n with
    | zero => rfl
    | succ n => simp [List.replicate_succ, tokensFrom, tokens, hrest before]
  | cons v vs ih =>
    cases n with
    | zero => rfl
    | succ n =>
      have hnext : (render vs ++ rest).head?.any Decision.closesValue := by
        refine head?_render_append (fun w hw => hvs w ?_) hcloses
        exact List.mem_of_mem_head? hw
      have htail : ∀ w ∈ vs.tail, w.space ≠ [] :=
        fun w hw => hvs w (List.mem_of_mem_tail hw)
      have hsource : before ++ (render (v :: vs) ++ rest) =
          before ++ (v.space ++ (v.value ++ (render vs ++ rest))) := by simp
      have hplace : (before ++ v.space ++ v.value).size =
          before.size + v.space.size + v.value.size := by simp [Nat.add_assoc]
      have hrec := ih htail (before ++ v.space ++ v.value) n
      rw [hplace] at hrec
      rw [hsource, List.replicate_succ, tokensFrom, v.scanAt_value before hnext]
      simp only [List.append_assoc] at hrec ⊢
      rw [hrec]
      rfl

end SpacedValue

/-- A list of values that is written with whitespace between them, and a semicolon past some
whitespace or none after them, gives the values back, whatever stands before and after. Scans for a
value from the start of the list find its values one by one, each where it was written and as it was
written, and the scan after the last one finds none. -/
theorem tokensFrom_render (before : Text) (vs : List SpacedValue)
    (hvs : ∀ v ∈ vs.tail, v.space ≠ []) {space : Text}
    (hspace : ∀ c ∈ space, Unicode.isWhiteSpace c) (after : Text) :
    let V := Candidates.ofKind .applyValue
    let source := before ++ (SpacedValue.render vs ++ (space ++ ';' :: after))
    let tokens := SpacedValue.tokens before.size vs
    (∀ n, tokensFrom source before.size (List.replicate n V) = tokens.take n) ∧
      scanAt source (reached before.size tokens) V = none ∧
      tokens.map (fun t => source.slice? t.span.start t.span.stop) =
        vs.map fun v => some v.value := by
  intro V source tokens
  have hcloses : (space ++ ';' :: after).head?.any Decision.closesValue := by
    cases space with
    | nil => rfl
    | cons c space =>
      have hc := hspace c List.mem_cons_self
      simp [Decision.closesValue, hc]
  refine ⟨?_, ?_, SpacedValue.slice_tokens before vs _⟩
  · intro n
    exact SpacedValue.tokensFrom_render_append hvs hcloses
      (fun before => SpacedValue.scanAt_semicolon before hspace after) before n
  · have hend := SpacedValue.scanAt_semicolon (before ++ SpacedValue.render vs) hspace after
    rw [Text.size_append, ← SpacedValue.reached_tokens, List.append_assoc] at hend
    exact hend

/-- A variable and a name with a colon, an em space between them and a newline before the end. -/
theorem tokensFrom_render_names :
    let V := Candidates.ofKind .applyValue
    let source : Text := ['x', '$', 'a', '\u2003', 'é', ':', '\n', ';', '}']
    tokensFrom source 1 [V, V, V] = [⟨.applyValue, 1, 3⟩, ⟨.applyValue, 6, 9⟩] ∧
      scanAt source 9 V = none := by
  intro V source
  have hspace : ∀ c ∈ ['\u2003'], Unicode.isWhiteSpace c := List.all_eq_true.1 rfl
  have hvariable : ∀ c ∈ ['$', 'a'], Unicode.isWhiteSpace c = false ∧ c ∉ [';', '!', '{', '}'] :=
    List.forall_mem_cons.2 ⟨by decide, List.forall_mem_singleton.2 (by decide)⟩
  have hname : ∀ c ∈ ['é', ':'], Unicode.isWhiteSpace c = false ∧ c ∉ [';', '!', '{', '}'] :=
    List.forall_mem_cons.2 ⟨by decide, List.forall_mem_singleton.2 (by decide)⟩
  let vs : List SpacedValue :=
    [⟨[], ['$', 'a'], by simp, by simp, hvariable⟩,
      ⟨['\u2003'], ['é', ':'], hspace, by simp, hname⟩]
  have hvs : ∀ v ∈ vs.tail, v.space ≠ [] := by simp [vs]
  have hnewline : ∀ c ∈ ['\n'], Unicode.isWhiteSpace c := List.all_eq_true.1 rfl
  obtain ⟨htokens, hend, -⟩ := tokensFrom_render ['x'] vs hvs hnewline ['}']
  exact ⟨htokens 3, hend⟩

end ScssTokens

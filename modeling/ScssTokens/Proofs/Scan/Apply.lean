import ScssTokens.Proofs.Decision.Anatomy
import ScssTokens.Proofs.Scan.Extent

/-!
# Values of `@apply` directives

A scan for a value alone cuts the text ahead at two places: at the first character that is no
whitespace, and at the first one from there on that no value holds. What lies between is a value if
there is anything, and if the character after it is there and ends a value well. A value that runs
into the end of the text, into a brace or into an exclamation mark is none.

## Main definitions

* `ValueParts` — a text cut at these two places.

## Main statements

* `exists_valueParts` — every text can be cut in this way.
* `ValueParts.scanAt_eq` — a scan for a value by the parts.
* `scanAt_value_iff` — where a scan finds a value, and what it is made of.
-/

namespace ScssTokens

namespace Decision

/-- With a value for the only candidate, the rule for a value decides. -/
theorem ofBody_applyValue (body : List Cell) :
    ofBody (.ofKind .applyValue) false body = ofValue body := by
  simp [ofBody]

/-- What the rule for a value finds: the characters up to the first that no value holds, if that is
one that ends it well. -/
theorem found_ofValue (k : Column) (body : Text) :
    let value := body.takeWhile fun c => !endsValue c
    let rest := body.dropWhile fun c => !endsValue c
    (ofValue (Cell.ofText k body)).found body =
      if value ≠ [] ∧ rest.head?.any closesValue then some (.applyValue, value) else none := by
  intro value rest
  have hvalue : ((Cell.ofText k body).takeWhile fun c => !endsValue c.char).length = value.length :=
    Cell.length_takeWhile_ofText (fun c => !endsValue c) k body
  have hrest : startsWith closesValue ((Cell.ofText k body).drop value.length) =
      rest.head?.any closesValue := by
    rw [← hvalue, drop_length_takeWhile]
    exact (congrArg _ (Cell.dropWhile_ofText (fun c => !endsValue c) k body)).trans
      (startsWith_ofText _ _ _)
  have htake : body.take value.length = value := take_length_takeWhile _ body
  rw [ofValue, hvalue, hrest]
  simp only [ne_eq, List.length_eq_zero_iff]
  split
  · simp [found, Move.lastMark_append, Move.lastMark, htake]
  · rfl

theorem endsValue_eq_false_iff {c : Char} :
    endsValue c = false ↔ Unicode.isWhiteSpace c = false ∧ c ∉ [';', '!', '{', '}'] := by
  simp [endsValue, closesValue, and_assoc]

end Decision

open Decision

/-! ## The parts -/

/-- A text cut at the first character that is no whitespace, and at the first one from there on that
no value holds. -/
structure ValueParts (space value rest : Text) : Prop where
  blank : ∀ c ∈ space, Unicode.isWhiteSpace c
  ink : (value ++ rest).head?.any Unicode.isWhiteSpace = false
  plain : ∀ c ∈ value, Unicode.isWhiteSpace c = false ∧ c ∉ [';', '!', '{', '}']
  stop : ∀ c ∈ rest.head?, Unicode.isWhiteSpace c ∨ c ∈ [';', '!', '{', '}']

/-- Every text can be cut in this way. -/
theorem exists_valueParts (text : Text) :
    ∃ space value rest, text = space ++ (value ++ rest) ∧ ValueParts space value rest := by
  let body := text.dropWhile Unicode.isWhiteSpace
  have hbody : (body.takeWhile fun c => !endsValue c) ++ (body.dropWhile fun c => !endsValue c) =
      body := List.takeWhile_append_dropWhile
  refine ⟨text.takeWhile Unicode.isWhiteSpace, body.takeWhile fun c => !endsValue c,
    body.dropWhile fun c => !endsValue c, ?_, List.all_eq_true.1 List.all_takeWhile, ?_, ?_, ?_⟩
  · rw [hbody, List.takeWhile_append_dropWhile]
  · rw [hbody]
    exact any_head?_dropWhile Unicode.isWhiteSpace text
  · intro c hc
    apply endsValue_eq_false_iff.1
    simpa using List.all_eq_true.1 List.all_takeWhile c hc
  · intro c hc
    have hstop := any_head?_dropWhile (fun c => !endsValue c) body
    rw [Option.mem_def.1 hc, Option.any_some, Bool.not_eq_false'] at hstop
    grind [endsValue_eq_false_iff]

namespace ValueParts

variable {space value rest : Text}

theorem plain_value (h : ValueParts space value rest) : ∀ c ∈ value, (!endsValue c) = true := by
  intro c hc
  simp [endsValue_eq_false_iff.2 (h.plain c hc)]

theorem stops_rest (h : ValueParts space value rest) :
    rest.head?.any (fun c => !endsValue c) = false := by
  cases hc : rest.head? with
  | none => rfl
  | some c =>
    have hstop := h.stop c hc
    rw [Option.any_some, Bool.not_eq_false']
    grind [endsValue_eq_false_iff]

/-- A scan for a value finds the second part, if there is anything in it and the third one starts
with a character that ends a value well. -/
theorem scanAt_eq (h : ValueParts space value rest) (before : Text) :
    scanAt (before ++ (space ++ (value ++ rest))) before.size (.ofKind .applyValue) =
      if value ≠ [] ∧ rest.head?.any closesValue then
        some ⟨.applyValue, (before ++ space).size, (before ++ space ++ value).size⟩
      else none := by
  rw [scanAt_append_of_ignoresSpace (by simp) ⟨rfl, rfl⟩ before h.blank h.ink, ofBody_applyValue,
    found_ofValue, takeWhile_append_of_stop h.plain_value h.stops_rest,
    dropWhile_append_of_stop h.plain_value h.stops_rest]
  split <;> rfl

end ValueParts

/-! ## Scans -/

/-- Every text can be cut at its first ink and at the first character from there on that no value
holds, and wherever it is cut so a scan for a value finds what lies between, exactly if there is
anything and whitespace or a semicolon comes after it. So a value is not empty, it holds neither
whitespace nor a character that ends a statement or stands at the edge of a block, and it is not cut
short. -/
theorem scanAt_value_iff (before text : Text) :
    (∃ space value rest, text = space ++ (value ++ rest) ∧ ValueParts space value rest) ∧
      (∀ space value rest, text = space ++ (value ++ rest) → ValueParts space value rest →
        ∀ t, scanAt (before ++ text) before.size (.ofKind .applyValue) = some t ↔
          value ≠ [] ∧ rest.head?.any (fun c => Unicode.isWhiteSpace c || c == ';') ∧
          t = ⟨.applyValue, (before ++ space).size, (before ++ space ++ value).size⟩) ∧
      ∀ t ∈ scanAt (before ++ text) before.size (.ofKind .applyValue), ∃ value,
        (before ++ text).slice? t.span.start t.span.stop = some value ∧ value ≠ [] ∧
        (∀ c ∈ value, Unicode.isWhiteSpace c = false ∧ c ∉ [';', '!', '{', '}']) ∧
        ((before ++ text).dropBytes t.span.stop).head?.any
          fun c => Unicode.isWhiteSpace c || c == ';' := by
  refine ⟨exists_valueParts text, ?_, ?_⟩
  · rintro space value rest rfl hparts t
    rw [hparts.scanAt_eq before, Option.ite_none_right_eq_some, Option.some_inj, and_assoc,
      eq_comm (b := t)]
    rfl
  · intro t ht
    obtain ⟨space, value, rest, rfl, hparts⟩ := exists_valueParts text
    rw [Option.mem_def, hparts.scanAt_eq before, Option.ite_none_right_eq_some] at ht
    obtain ⟨⟨hne, hcloses⟩, ht⟩ := ht
    obtain rfl := Option.some.inj ht
    have hsource : before ++ (space ++ (value ++ rest)) = before ++ space ++ value ++ rest := by
      simp
    refine ⟨value, Text.slice?_eq_some_iff.2 ⟨before ++ space, rest, by simp, rfl, ?_⟩, hne,
      hparts.plain, ?_⟩
    · exact (Text.size_append _ _).symm
    · rw [hsource, Text.dropBytes_size_append]
      exact hcloses

/-- An em space ends a value, and an exclamation mark leaves it without an end. -/
theorem scanAt_value_em_space :
    let V := Candidates.ofKind .applyValue
    scanAt ['x', ' ', 'a', 'é', '\u2003', '}'] 1 V = some ⟨.applyValue, 2, 5⟩ ∧
      ∀ t, scanAt ['x', ' ', 'a', 'é', '!', ';'] 1 V ≠ some t := by
  intro V
  have hblank : ∀ c ∈ [' '], Unicode.isWhiteSpace c := List.all_eq_true.1 rfl
  have hplain : ∀ c ∈ ['a', 'é'], Unicode.isWhiteSpace c = false ∧ c ∉ [';', '!', '{', '}'] :=
    List.forall_mem_cons.2 ⟨by decide, List.forall_mem_singleton.2 (by decide)⟩
  have hspace : ValueParts [' '] ['a', 'é'] ['\u2003', '}'] :=
    ⟨hblank, by decide, hplain, by simp; decide⟩
  have hmark : ValueParts [' '] ['a', 'é'] ['!', ';'] := ⟨hblank, by decide, hplain, by simp⟩
  obtain ⟨-, hfound, -⟩ := scanAt_value_iff ['x'] [' ', 'a', 'é', '\u2003', '}']
  obtain ⟨-, hnone, -⟩ := scanAt_value_iff ['x'] [' ', 'a', 'é', '!', ';']
  refine ⟨(hfound _ _ _ rfl hspace _).2 ⟨by simp, by decide, rfl⟩, ?_⟩
  intro t ht
  obtain ⟨-, hcloses, -⟩ := (hnone _ _ _ rfl hmark t).1 ht
  exact absurd hcloses (by decide)

end ScssTokens

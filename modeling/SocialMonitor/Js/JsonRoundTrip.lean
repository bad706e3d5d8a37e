import SocialMonitor.Js.JsonText

/-!
# Reading JSON back

`JSON.parse` inverts `JSON.stringify` on the values whose numbers are finite, and
reads of any other value what is stored of it.
-/

namespace Js

namespace Json

mutual

def Finite : Json → Prop
  | .num n => ∃ x, n = .finite x
  | .arr vs => FiniteItems vs
  | .obj ms => FiniteMembers ms
  | _ => True

def FiniteItems : List Json → Prop
  | [] => True
  | v :: vs => v.Finite ∧ FiniteItems vs

def FiniteMember : CodeUnits × Json → Prop
  | (_, v) => v.Finite

def FiniteMembers : List (CodeUnits × Json) → Prop
  | [] => True
  | m :: ms => FiniteMember m ∧ FiniteMembers ms

end

end Json

theorem Numeral.WellFormed.text_head {n : Numeral} (h : n.WellFormed) :
    ∃ c cs, n.text = c :: cs ∧ (c = '-' ∨ c.isDigit = true) := by
  obtain ⟨d, ds, hds⟩ := List.exists_cons_of_ne_nil h.nonempty
  have hd := h.whole d (hds ▸ List.mem_cons_self)
  cases hneg : n.negative with
  | true =>
      rw [Numeral.text, hneg]
      exact ⟨'-', _, rfl, Or.inl rfl⟩
  | false =>
      rw [Numeral.text, hneg, hds]
      exact ⟨d, _, rfl, Or.inr hd⟩

theorem skipSpace_cons {c : Char} (hc : isJsonSpace c = false) (cs : List Char) :
    skipSpace (c :: cs) = c :: cs := by
  simp [skipSpace, hc]

theorem numeral_head_ne {c : Char} (hc : c = '-' ∨ c.isDigit = true) :
    isJsonSpace c = false ∧ c ≠ ']' ∧
    c ≠ '"' ∧ c ≠ '[' ∧ c ≠ '{' ∧ c ≠ 'n' ∧ c ≠ 't' ∧ c ≠ 'f' := by
  rcases hc with rfl | hc
  · decide
  · refine ⟨?_, ?_, ?_, ?_, ?_, ?_, ?_, ?_⟩
    · by_contra hspace
      simp only [isJsonSpace, Bool.not_eq_false, Bool.or_eq_true, decide_eq_true_eq] at hspace
      rcases hspace with ((rfl | rfl) | rfl) | rfl <;> exact absurd hc (by decide)
    all_goals
      rintro rfl
      exact absurd hc (by decide)

theorem parseValue_numeral {n : Numeral} (h : n.WellFormed) (fuel : ℕ) {cs : List Char}
    (hcs : Ends cs) :
    parseValue (fuel + 1) (n.text ++ cs) = some (.num n.toNumber, cs) := by
  obtain ⟨c, ds, htext, hc⟩ := h.text_head
  obtain ⟨hspace, -, hquote, hbracket, hbrace, hn, ht, hf⟩ := numeral_head_ne hc
  have hparse := parseNumeral_text h hcs
  rw [htext, List.cons_append] at hparse ⊢
  rw [parseValue, skipSpace_cons hspace]
  split
  case h_1 heq => exact absurd (List.cons.inj heq).1 hquote
  case h_2 heq => exact absurd (List.cons.inj heq).1 hbracket
  case h_3 heq => exact absurd (List.cons.inj heq).1 hbrace
  case h_4 heq => exact absurd (List.cons.inj heq).1 hn
  case h_5 heq => exact absurd (List.cons.inj heq).1 ht
  case h_6 heq => exact absurd (List.cons.inj heq).1 hf
  case h_7 =>
    rw [hparse]
    rfl

theorem parseValue_quote (s : CodeUnits) (fuel : ℕ) (cs : List Char) :
    parseValue (fuel + 1) (quote s ++ cs) = some (.str s, cs) := by
  rw [quote, List.cons_append, List.append_assoc, parseValue, skipSpace_cons (by decide)]
  exact congrArg (Option.map _) (parseChars_quoteUnits s cs)

theorem ends_of_comma (cs : List Char) : Ends (',' :: cs) := by
  rintro c ⟨⟩
  decide

theorem stringifyItems_ends (vs : List Json) (cs : List Char) : Ends (stringifyItems vs ++ cs) := by
  cases vs with
  | nil =>
      rintro c ⟨⟩
      decide
  | cons v vs => exact ends_of_comma _

theorem stringifyMembers_ends (ms : List (CodeUnits × Json)) (cs : List Char) :
    Ends (stringifyMembers ms ++ cs) := by
  cases ms with
  | nil =>
      rintro c ⟨⟩
      decide
  | cons m ms => exact ends_of_comma _

theorem stringify_head (v : Json) :
    ∃ c cs, stringify v = c :: cs ∧ isJsonSpace c = false ∧ c ≠ ']' := by
  cases v with
  | null => exact ⟨'n', _, rfl, by decide⟩
  | bool b => cases b <;> exact ⟨_, _, rfl, by decide⟩
  | num n =>
      cases n with
      | finite x =>
          obtain ⟨c, cs, htext, hc⟩ := (numeralOf_spec x).1.text_head
          exact ⟨c, cs, htext, (numeral_head_ne hc).1, (numeral_head_ne hc).2.1⟩
      | infinite negative => exact ⟨'n', _, rfl, by decide⟩
      | nan => exact ⟨'n', _, rfl, by decide⟩
  | str s => exact ⟨'"', _, rfl, by decide⟩
  | arr vs => cases vs <;> exact ⟨'[', _, rfl, by decide⟩
  | obj ms => cases ms <;> exact ⟨'{', _, rfl, by decide⟩

theorem exists_fuel (k : ℕ) {fuel : ℕ} (h : k ≤ fuel) : ∃ rest, fuel = rest + k :=
  ⟨fuel - k, (Nat.sub_add_cancel h).symm⟩

theorem stringify_length_pos (v : Json) : 0 < (stringify v).length := by
  obtain ⟨c, cs, htext, -⟩ := stringify_head v
  simp [htext]

mutual

/-- A value is read back from its text, whatever follows it, with two calls for
each character. -/
theorem parseValue_stringify : ∀ (v : Json) (fuel : ℕ) {cs : List Char}, v.Finite → Ends cs →
    2 * (stringify v).length ≤ fuel → parseValue fuel (stringify v ++ cs) = some (v, cs)
  | .null, fuel, cs, _, _, hfuel => by
      obtain ⟨fuel, rfl⟩ := exists_fuel 1 (le_trans (by decide : 1 ≤ 2 * 4) hfuel)
      rfl
  | .bool true, fuel, cs, _, _, hfuel => by
      obtain ⟨fuel, rfl⟩ := exists_fuel 1 (le_trans (by decide : 1 ≤ 2 * 4) hfuel)
      rfl
  | .bool false, fuel, cs, _, _, hfuel => by
      obtain ⟨fuel, rfl⟩ := exists_fuel 1 (le_trans (by decide : 1 ≤ 2 * 5) hfuel)
      rfl
  | .num n, fuel, cs, hv, hcs, hfuel => by
      obtain ⟨x, rfl⟩ := hv
      obtain ⟨hwell, hnumber⟩ := numeralOf_spec x
      have hpos := stringify_length_pos (.num (.finite x))
      obtain ⟨fuel, rfl⟩ := exists_fuel 1 (show 1 ≤ fuel by omega)
      exact (parseValue_numeral hwell fuel hcs).trans (by rw [hnumber])
  | .str s, fuel, cs, _, _, hfuel => by
      have hpos := stringify_length_pos (.str s)
      obtain ⟨fuel, rfl⟩ := exists_fuel 1 (show 1 ≤ fuel by omega)
      exact parseValue_quote s fuel cs
  | .arr [], fuel, cs, _, _, hfuel => by
      obtain ⟨fuel, rfl⟩ := exists_fuel 2 (le_trans (by decide : 2 ≤ 2 * 2) hfuel)
      rfl
  | .arr (v :: vs), fuel, cs, hv, hcs, hfuel => by
      have hlength : (stringify (.arr (v :: vs))).length =
          (stringify v).length + (stringifyItems vs).length + 1 := by simp [stringify]
      obtain ⟨fuel, rfl⟩ := exists_fuel 2 (show 2 ≤ fuel by omega)
      have hfirst := parseValue_stringify v fuel hv.1 (stringifyItems_ends vs cs)
        (by omega)
      have hrest := parseMoreItems_stringify vs fuel cs hv.2 (by omega)
      obtain ⟨c, ds, htext, hspace, hbracket⟩ := stringify_head v
      have hitems : parseItems (fuel + 1) (stringify v ++ (stringifyItems vs ++ cs)) =
          some (v :: vs, cs) := by
        rw [htext, List.cons_append] at hfirst ⊢
        rw [parseItems, skipSpace_cons hspace]
        split
        case h_1 heq => exact absurd (List.cons.inj heq).1 hbracket
        case h_2 =>
          rw [hfirst]
          simp only [Option.bind_eq_bind, Option.bind_some, hrest]
      rw [stringify, List.cons_append, List.append_assoc, parseValue, skipSpace_cons (by decide)]
      simp only [hitems, Option.map_some]
  | .obj [], fuel, cs, _, _, hfuel => by
      obtain ⟨fuel, rfl⟩ := exists_fuel 2 (le_trans (by decide : 2 ≤ 2 * 2) hfuel)
      rfl
  | .obj (m :: ms), fuel, cs, hv, hcs, hfuel => by
      have hlength : (stringify (.obj (m :: ms))).length =
          (stringifyMember m).length + (stringifyMembers ms).length + 1 := by simp [stringify]
      obtain ⟨fuel, rfl⟩ := exists_fuel 2 (show 2 ≤ fuel by omega)
      have hfirst := parseMember_stringify m fuel hv.1 (stringifyMembers_ends ms cs)
        (by omega)
      have hrest := parseMoreMembers_stringify ms fuel cs hv.2 (by omega)
      have hmembers : parseMembers (fuel + 1) (stringifyMember m ++ (stringifyMembers ms ++ cs)) =
          some (m :: ms, cs) := by
        obtain ⟨name, v⟩ := m
        rw [stringifyMember, quote, List.cons_append, List.cons_append] at hfirst ⊢
        rw [parseMembers, skipSpace_cons (by decide)]
        split
        case h_1 heq => exact absurd (List.cons.inj heq).1 (by decide)
        case h_2 =>
          rw [hfirst]
          simp only [Option.bind_eq_bind, Option.bind_some, hrest]
      rw [stringify, List.cons_append, List.append_assoc, parseValue, skipSpace_cons (by decide)]
      simp only [hmembers, Option.map_some]

theorem parseMoreItems_stringify : ∀ (vs : List Json) (fuel : ℕ) (cs : List Char),
    Json.FiniteItems vs → 2 * (stringifyItems vs).length ≤ fuel →
      parseMoreItems fuel (stringifyItems vs ++ cs) = some (vs, cs)
  | [], fuel, cs, _, hfuel => by
      obtain ⟨fuel, rfl⟩ := exists_fuel 1 (le_trans (by decide : 1 ≤ 2 * 1) hfuel)
      rfl
  | v :: vs, fuel, cs, hv, hfuel => by
      have hlength : (stringifyItems (v :: vs)).length =
          (stringify v).length + (stringifyItems vs).length + 1 := by simp [stringifyItems]
      obtain ⟨fuel, rfl⟩ := exists_fuel 1 (show 1 ≤ fuel by omega)
      have hfirst := parseValue_stringify v fuel hv.1 (stringifyItems_ends vs cs)
        (by omega)
      have hrest := parseMoreItems_stringify vs fuel cs hv.2 (by omega)
      rw [stringifyItems, List.cons_append, List.append_assoc, parseMoreItems,
        skipSpace_cons (by decide)]
      simp only [hfirst, Option.bind_eq_bind, Option.bind_some, hrest]

theorem parseMember_stringify : ∀ (m : CodeUnits × Json) (fuel : ℕ) {cs : List Char},
    Json.FiniteMember m → Ends cs → 2 * (stringifyMember m).length ≤ fuel →
      parseMember fuel (stringifyMember m ++ cs) = some (m, cs)
  | (name, v), fuel, cs, hv, hcs, hfuel => by
      have hlength : (stringifyMember (name, v)).length =
          (quote name).length + (stringify v).length + 1 := by
        simp [stringifyMember, add_assoc]
      obtain ⟨fuel, rfl⟩ := exists_fuel 1 (show 1 ≤ fuel by omega)
      have hvalue := parseValue_stringify v fuel hv hcs (by omega)
      rw [stringifyMember, quote]
      simp only [List.cons_append, List.append_assoc, List.nil_append]
      rw [parseMember, skipSpace_cons (by decide)]
      simp only [parseChars_quoteUnits, Option.bind_eq_bind, Option.bind_some]
      rw [skipSpace_cons (by decide)]
      simp only [hvalue, Option.map_some]

theorem parseMoreMembers_stringify : ∀ (ms : List (CodeUnits × Json)) (fuel : ℕ)
    (cs : List Char),
    Json.FiniteMembers ms → 2 * (stringifyMembers ms).length ≤ fuel →
      parseMoreMembers fuel (stringifyMembers ms ++ cs) = some (ms, cs)
  | [], fuel, cs, _, hfuel => by
      obtain ⟨fuel, rfl⟩ := exists_fuel 1 (le_trans (by decide : 1 ≤ 2 * 1) hfuel)
      rfl
  | m :: ms, fuel, cs, hv, hfuel => by
      have hlength : (stringifyMembers (m :: ms)).length =
          (stringifyMember m).length + (stringifyMembers ms).length + 1 := by
        simp [stringifyMembers]
      obtain ⟨fuel, rfl⟩ := exists_fuel 1 (show 1 ≤ fuel by omega)
      have hfirst := parseMember_stringify m fuel hv.1 (stringifyMembers_ends ms cs)
        (by omega)
      have hrest := parseMoreMembers_stringify ms fuel cs hv.2 (by omega)
      rw [stringifyMembers, List.cons_append, List.append_assoc, parseMoreMembers,
        skipSpace_cons (by decide)]
      simp only [hfirst, Option.bind_eq_bind, Option.bind_some, hrest]

end

/-- A value without infinite numbers is read back from its text. -/
theorem jsonParse_stringify {v : Json} (hv : v.Finite) : jsonParse (stringify v) = some v := by
  have hends : Ends [] := by simp [Ends]
  have hparse := parseValue_stringify v _ hv hends (Nat.le_add_right _ 2)
  rw [List.append_nil] at hparse
  rw [jsonParse, hparse]
  rfl

/-! ## What is stored of a value -/

mutual

theorem finite_stored : ∀ v : Json, v.stored.Finite
  | .null => trivial
  | .bool _ => trivial
  | .num (.finite x) => ⟨x, rfl⟩
  | .num (.infinite _) => trivial
  | .num .nan => trivial
  | .str _ => trivial
  | .arr vs => finite_storedItems vs
  | .obj ms => finite_storedMembers ms

theorem finite_storedItems : ∀ vs : List Json, Json.FiniteItems (Json.storedItems vs)
  | [] => trivial
  | v :: vs => ⟨finite_stored v, finite_storedItems vs⟩

theorem finite_storedMember : ∀ m : CodeUnits × Json, Json.FiniteMember (Json.storedMember m)
  | (_, v) => finite_stored v

theorem finite_storedMembers : ∀ ms : List (CodeUnits × Json),
    Json.FiniteMembers (Json.storedMembers ms)
  | [] => trivial
  | m :: ms => ⟨finite_storedMember m, finite_storedMembers ms⟩

end

mutual

theorem stringify_stored : ∀ v : Json, stringify v.stored = stringify v
  | .null => rfl
  | .bool _ => rfl
  | .num (.finite _) => rfl
  | .num (.infinite _) => rfl
  | .num .nan => rfl
  | .str _ => rfl
  | .arr [] => rfl
  | .arr (v :: vs) => by
      simp only [Json.stored, Json.storedItems, stringify, stringify_stored v,
        stringify_storedItems vs]
  | .obj [] => rfl
  | .obj (m :: ms) => by
      simp only [Json.stored, Json.storedMembers, stringify, stringify_storedMember m,
        stringify_storedMembers ms]

theorem stringify_storedItems : ∀ vs : List Json,
    stringifyItems (Json.storedItems vs) = stringifyItems vs
  | [] => rfl
  | v :: vs => by
      simp only [Json.storedItems, stringifyItems, stringify_stored v, stringify_storedItems vs]

theorem stringify_storedMember : ∀ m : CodeUnits × Json,
    stringifyMember (Json.storedMember m) = stringifyMember m
  | (name, v) => by simp only [Json.storedMember, stringifyMember, stringify_stored v]

theorem stringify_storedMembers : ∀ ms : List (CodeUnits × Json),
    stringifyMembers (Json.storedMembers ms) = stringifyMembers ms
  | [] => rfl
  | m :: ms => by
      simp only [Json.storedMembers, stringifyMembers, stringify_storedMember m,
        stringify_storedMembers ms]

end

/-- What is stored of a value is what its text is read as. -/
theorem jsonParse_stringify_stored (v : Json) : jsonParse (stringify v) = some v.stored := by
  rw [← stringify_stored, jsonParse_stringify (finite_stored v)]

end Js

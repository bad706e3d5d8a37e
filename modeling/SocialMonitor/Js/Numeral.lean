import SocialMonitor.Js.Decimal
import SocialMonitor.Js.Number

/-!
# Numbers as text

`Number::toString` writes the fewest digits from which rounding gives the
number back; the grammar of JSON reads a numeral and rounds its exact value.
-/

namespace Js

theorem IsDouble.neg {q : ℚ} (h : IsDouble q) : IsDouble (-q) := by
  obtain ⟨hlt, m, e, rfl, hm, he⟩ := h
  exact ⟨by rwa [abs_neg], -m, e, by push_cast; ring, by rwa [abs_neg], he⟩

def Double.neg (x : Double) : Double := ⟨-x.val, x.isDouble.neg⟩

theorem Double.neg_involutive (x : Double) : x.neg.neg = x := Double.ext (by simp [Double.neg])

def Number.neg : Number → Number
  | finite x => finite x.neg
  | infinite negative => infinite (!negative)
  | nan => nan

/-! ## Numerals -/

structure Numeral where
  negative : Bool
  whole : List Char
  fraction : List Char
  exponent : Option ℤ
deriving DecidableEq

namespace Numeral

/-- The exact value without the sign. -/
def magnitude (n : Numeral) : ℚ :=
  ofDigits (n.whole ++ n.fraction) * 10 ^ (n.exponent.getD 0 - n.fraction.length)

def toNumber (n : Numeral) : Number :=
  if n.negative then (round n.magnitude).neg else round n.magnitude

def signText (negative : Bool) : List Char := if negative then ['-'] else []

def fractionText : List Char → List Char
  | [] => []
  | c :: cs => '.' :: c :: cs

def exponentText : Option ℤ → List Char
  | none => []
  | some e => 'e' :: (if e < 0 then '-' else '+') :: digits e.natAbs

def text (n : Numeral) : List Char :=
  signText n.negative ++ (n.whole ++ (fractionText n.fraction ++ exponentText n.exponent))

structure WellFormed (n : Numeral) : Prop where
  whole : ∀ c ∈ n.whole, c.isDigit = true
  nonempty : n.whole ≠ []
  leading : n.whole = ['0'] ∨ n.whole.head? ≠ some '0'
  fraction : ∀ c ∈ n.fraction, c.isDigit = true

end Numeral

/-! ## Reading -/

def parseFraction : List Char → Option (List Char × List Char)
  | '.' :: cs =>
      if cs.takeWhile Char.isDigit = [] then none
      else some (cs.takeWhile Char.isDigit, cs.dropWhile Char.isDigit)
  | cs => some ([], cs)

def parsePower (negative : Bool) (cs : List Char) : Option (Option ℤ × List Char) :=
  let power : ℤ := ofDigits (cs.takeWhile Char.isDigit)
  if cs.takeWhile Char.isDigit = [] then none
  else some (some (if negative then -power else power), cs.dropWhile Char.isDigit)

def parseExponent : List Char → Option (Option ℤ × List Char)
  | [] => some (none, [])
  | c :: cs =>
      if c = 'e' ∨ c = 'E' then
        match cs with
        | '-' :: cs => parsePower true cs
        | '+' :: cs => parsePower false cs
        | cs => parsePower false cs
      else some (none, c :: cs)

def parseMagnitude (negative : Bool) (cs : List Char) : Option (Numeral × List Char) := do
  let whole := cs.takeWhile Char.isDigit
  if whole = [] ∨ whole ≠ ['0'] ∧ whole.head? = some '0' then none
  let (fraction, cs) ← parseFraction (cs.dropWhile Char.isDigit)
  let (exponent, cs) ← parseExponent cs
  some (⟨negative, whole, fraction, exponent⟩, cs)

def parseNumeral : List Char → Option (Numeral × List Char)
  | '-' :: cs => parseMagnitude true cs
  | cs => parseMagnitude false cs

/-- `StrUnsignedDecimalLiteral`: digits may be missing on one side of the point. -/
def parseDecimal (negative : Bool) (cs : List Char) : Option (Numeral × List Char) := do
  let whole := cs.takeWhile Char.isDigit
  let (fraction, cs) := match cs.dropWhile Char.isDigit with
    | '.' :: cs => (cs.takeWhile Char.isDigit, cs.dropWhile Char.isDigit)
    | cs => ([], cs)
  if whole = [] ∧ fraction = [] then none
  let (exponent, cs) ← parseExponent cs
  some (⟨negative, whole, fraction, exponent⟩, cs)

def signedNumber (negative : Bool) (cs : List Char) : Number :=
  if cs = "Infinity".toList then .infinite negative
  else
    match parseDecimal negative cs with
    | some (n, []) => n.toNumber
    | _ => .nan

/-- The value of a digit of any base up to sixteen. -/
def digitValue? (c : Char) : Option ℕ :=
  if c.isDigit then some (c.toNat - 48)
  else if 'a' ≤ c ∧ c ≤ 'f' then some (c.toNat - 87)
  else if 'A' ≤ c ∧ c ≤ 'F' then some (c.toNat - 55)
  else none

def radixNumber (base : ℕ) (cs : List Char) : Number :=
  match cs.mapM digitValue? with
  | some (d :: ds) =>
      if (d :: ds).all (· < base) then round ((d :: ds).foldl (fun n d => n * base + d) 0 : ℕ)
      else .nan
  | _ => .nan

/-- `Number(s)` of a trimmed text. -/
def stringToNumber : List Char → Number
  | [] => .finite (.ofInt 0 (by norm_num))
  | '0' :: 'x' :: cs => radixNumber 16 cs
  | '0' :: 'X' :: cs => radixNumber 16 cs
  | '0' :: 'o' :: cs => radixNumber 8 cs
  | '0' :: 'O' :: cs => radixNumber 8 cs
  | '0' :: 'b' :: cs => radixNumber 2 cs
  | '0' :: 'B' :: cs => radixNumber 2 cs
  | '+' :: cs => signedNumber false cs
  | '-' :: cs => signedNumber true cs
  | cs => signedNumber false cs

/-- What follows does not continue a numeral. -/
def Ends (cs : List Char) : Prop :=
  ∀ c ∈ cs.head?, c.isDigit = false ∧ c ≠ '.' ∧ c ≠ 'e' ∧ c ≠ 'E'

theorem takeWhile_digits {ds cs : List Char} (hds : ∀ c ∈ ds, c.isDigit = true)
    (hcs : ∀ c ∈ cs.head?, c.isDigit = false) :
    (ds ++ cs).takeWhile Char.isDigit = ds ∧ (ds ++ cs).dropWhile Char.isDigit = cs := by
  rw [List.takeWhile_append_of_pos hds, List.dropWhile_append_of_pos hds]
  cases cs with
  | nil => simp
  | cons c cs => simp [hcs c rfl]

theorem parsePower_digits (negative : Bool) (k : ℕ) {cs : List Char} (hcs : Ends cs) :
    parsePower negative (digits k ++ cs) = some (some (if negative then -(k : ℤ) else k), cs) := by
  obtain ⟨htake, hdrop⟩ := takeWhile_digits (fun _ => digits_isDigit) fun c hc => (hcs c hc).1
  rw [parsePower, htake, hdrop, if_neg (digits_ne_nil k), ofDigits_digits]

theorem parseExponent_text (exponent : Option ℤ) {cs : List Char} (hcs : Ends cs) :
    parseExponent (Numeral.exponentText exponent ++ cs) = some (exponent, cs) := by
  cases exponent with
  | none =>
      cases cs with
      | nil => rfl
      | cons c cs =>
          have hc := hcs c rfl
          simp [Numeral.exponentText, parseExponent, hc.2.2.1, hc.2.2.2]
  | some e =>
      rcases lt_or_ge e 0 with he | he
      · have hparse := parsePower_digits true e.natAbs hcs
        simp only [Numeral.exponentText, if_pos he, List.cons_append,
          parseExponent, true_or, if_true]
        rw [hparse]
        simp only [if_true, Option.some.injEq, Prod.mk.injEq, and_true]
        omega
      · have hparse := parsePower_digits false e.natAbs hcs
        simp only [Numeral.exponentText, if_neg he.not_gt, List.cons_append, parseExponent, true_or,
          if_true]
        rw [hparse]
        simp only [Bool.false_eq_true, if_false, Option.some.injEq, Prod.mk.injEq, and_true]
        omega

theorem exponentText_head (exponent : Option ℤ) {cs : List Char} (hcs : Ends cs) :
    ∀ c ∈ (Numeral.exponentText exponent ++ cs).head?, c.isDigit = false ∧ c ≠ '.' := by
  cases exponent with
  | none => exact fun c hc => ⟨(hcs c hc).1, (hcs c hc).2.1⟩
  | some e =>
      intro c hc
      obtain rfl : 'e' = c := by simpa [Numeral.exponentText] using hc
      decide

theorem parseFraction_text {fraction : List Char} (hfraction : ∀ c ∈ fraction, c.isDigit = true)
    {cs : List Char} (hcs : ∀ c ∈ cs.head?, c.isDigit = false ∧ c ≠ '.') :
    parseFraction (Numeral.fractionText fraction ++ cs) = some (fraction, cs) := by
  cases fraction with
  | nil =>
      cases cs with
      | nil => rfl
      | cons c cs =>
          have hc := (hcs c rfl).2
          simp only [Numeral.fractionText, List.nil_append]
          unfold parseFraction
          split
          · rename_i heq
            exact absurd (List.cons.inj heq).1 hc
          · rfl
  | cons d ds =>
      obtain ⟨htake, hdrop⟩ := takeWhile_digits hfraction fun c hc => (hcs c hc).1
      rw [Numeral.fractionText, List.cons_append, parseFraction, htake, hdrop,
        if_neg (List.cons_ne_nil d ds)]

theorem fractionText_head (fraction : List Char) {cs : List Char}
    (hcs : ∀ c ∈ cs.head?, c.isDigit = false) :
    ∀ c ∈ (Numeral.fractionText fraction ++ cs).head?, c.isDigit = false := by
  cases fraction with
  | nil => exact hcs
  | cons d ds =>
      intro c hc
      obtain rfl : '.' = c := by simpa [Numeral.fractionText] using hc
      decide

/-- A well-formed numeral is read back from its text. -/
theorem parseNumeral_text {n : Numeral} (h : n.WellFormed) {cs : List Char} (hcs : Ends cs) :
    parseNumeral (n.text ++ cs) = some (n, cs) := by
  obtain ⟨negative, whole, fraction, exponent⟩ := n
  obtain ⟨hwhole, hnonempty, hleading, hfraction⟩ := h
  dsimp only at hwhole hnonempty hleading hfraction
  have hexp := exponentText_head exponent hcs
  obtain ⟨htake, hdrop⟩ := takeWhile_digits hwhole
    (fractionText_head fraction fun c hc => (hexp c hc).1)
  have hmagnitude : parseMagnitude negative (whole ++ (Numeral.fractionText fraction ++
      (Numeral.exponentText exponent ++ cs))) =
        some (⟨negative, whole, fraction, exponent⟩, cs) := by
    have hguard : ¬ (whole = [] ∨ whole ≠ ['0'] ∧ whole.head? = some '0') := by
      rintro (hnil | ⟨hzero, hhead⟩)
      · exact hnonempty hnil
      · exact hleading.elim hzero fun h => h hhead
    simp only [parseMagnitude, htake, hdrop, if_neg hguard, parseFraction_text hfraction hexp,
      parseExponent_text exponent hcs, Option.bind_eq_bind, Option.bind_some]
  simp only [Numeral.text, List.append_assoc]
  cases negative with
  | true => exact hmagnitude
  | false =>
      obtain ⟨d, ds, rfl⟩ := List.exists_cons_of_ne_nil hnonempty
      have hd : d ≠ '-' := by
        rintro rfl
        exact absurd (hwhole '-' List.mem_cons_self) (by decide)
      rw [← hmagnitude]
      simp only [Numeral.signText, Bool.false_eq_true, if_false, List.nil_append, List.cons_append]
      unfold parseNumeral
      split
      · rename_i heq
        exact absurd (List.cons.inj heq).1 hd
      · rfl

end Js

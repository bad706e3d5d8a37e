import SocialMonitor.Js.Json
import SocialMonitor.Js.NumberText

/-!
# JSON text

`JSON.stringify` without white space, and `JSON.parse`.  Lone surrogates are
written as escapes, so that every string is read back.
-/

namespace Js

/-! ## Strings -/

/-- `\uXXXX`. -/
def escapeUnit (u : UInt16) : List Char :=
  ['\\', 'u', Nat.digitChar (u.toNat / 0x1000), Nat.digitChar (u.toNat / 0x100 % 0x10),
    Nat.digitChar (u.toNat / 0x10 % 0x10), Nat.digitChar (u.toNat % 0x10)]

/-- The letter that stands for a control character after a backslash. -/
def shortEscape (u : UInt16) : Option Char :=
  if u = 0x08 then some 'b'
  else if u = 0x09 then some 't'
  else if u = 0x0A then some 'n'
  else if u = 0x0C then some 'f'
  else if u = 0x0D then some 'r'
  else if u = 0x22 then some '"'
  else if u = 0x5C then some '\\'
  else none

/-- A code unit that is no surrogate. -/
def quoteUnit (u : UInt16) : List Char :=
  match shortEscape u with
  | some e => ['\\', e]
  | none => if u < 0x20 then escapeUnit u else [.ofNat u.toNat]

def quoteUnits : CodeUnits → List Char
  | [] => []
  | u :: us =>
      if isHighSurrogate u then
        match us with
        | [] => escapeUnit u
        | v :: vs =>
            if isLowSurrogate v then surrogatePair u v :: quoteUnits vs
            else escapeUnit u ++ quoteUnits (v :: vs)
      else if isLowSurrogate u then escapeUnit u ++ quoteUnits us
      else quoteUnit u ++ quoteUnits us

def quote (s : CodeUnits) : List Char := '"' :: (quoteUnits s ++ ['"'])

def unescape? (e : Char) : Option UInt16 :=
  if e = 'b' then some 0x08
  else if e = 't' then some 0x09
  else if e = 'n' then some 0x0A
  else if e = 'f' then some 0x0C
  else if e = 'r' then some 0x0D
  else if e = '"' then some 0x22
  else if e = '\\' then some 0x5C
  else if e = '/' then some 0x2F
  else none

def hexUnit? (a b c d : Char) : Option UInt16 := do
  let a ← digitValue? a
  let b ← digitValue? b
  let c ← digitValue? c
  let d ← digitValue? d
  some (.ofNat (a * 0x1000 + b * 0x100 + c * 0x10 + d))

/-- The rest of a string after its opening quotation mark. -/
def parseChars : List Char → Option (CodeUnits × List Char)
  | [] => none
  | c :: cs =>
      if c = '"' then some ([], cs)
      else if c = '\\' then
        match cs with
        | 'u' :: a :: b :: c :: d :: cs => do
            let u ← hexUnit? a b c d
            let (us, cs) ← parseChars cs
            some (u :: us, cs)
        | e :: cs => do
            let u ← unescape? e
            let (us, cs) ← parseChars cs
            some (u :: us, cs)
        | [] => none
      else if c.toNat < 0x20 then none
      else do
        let (us, cs) ← parseChars cs
        some (utf16Char c ++ us, cs)

/-! A string is read back from its text. -/

/-- Put code units before those of a string that has been read. -/
def prepend (us : CodeUnits) (r : CodeUnits × List Char) : CodeUnits × List Char := (us ++ r.1, r.2)

theorem digitValue?_digitChar : ∀ n < 16, digitValue? (Nat.digitChar n) = some n := by decide

theorem parseChars_escapeUnit (u : UInt16) (cs : List Char) :
    parseChars (escapeUnit u ++ cs) = (parseChars cs).map (prepend [u]) := by
  have hu := u.toNat_lt
  have hunit : UInt16.ofNat (u.toNat / 0x1000 * 0x1000 + u.toNat / 0x100 % 0x10 * 0x100 +
      u.toNat / 0x10 % 0x10 * 0x10 + u.toNat % 0x10) = u := by
    have hsum : u.toNat / 0x1000 * 0x1000 + u.toNat / 0x100 % 0x10 * 0x100 +
        u.toNat / 0x10 % 0x10 * 0x10 + u.toNat % 0x10 = u.toNat := by omega
    rw [hsum, UInt16.ofNat_toNat]
  have hhex : hexUnit? (Nat.digitChar (u.toNat / 0x1000)) (Nat.digitChar (u.toNat / 0x100 % 0x10))
      (Nat.digitChar (u.toNat / 0x10 % 0x10)) (Nat.digitChar (u.toNat % 0x10)) = some u := by
    rw [hexUnit?, digitValue?_digitChar _ (by omega), digitValue?_digitChar _ (by omega),
      digitValue?_digitChar _ (by omega), digitValue?_digitChar _ (by omega)]
    exact congrArg some hunit
  have hne : '\\' ≠ '"' := by decide
  rw [escapeUnit]
  simp only [List.cons_append, List.nil_append]
  rw [parseChars, if_neg hne, if_pos rfl]
  simp only [hhex, Option.bind_eq_bind, Option.bind_some]
  cases parseChars cs <;> rfl

theorem shortEscape_spec {u : UInt16} {e : Char} (h : shortEscape u = some e) :
    unescape? e = some u ∧ e ≠ 'u' := by
  unfold shortEscape at h
  split_ifs at h with h₁ h₂ h₃ h₄ h₅ h₆ h₇ <;> obtain rfl := Option.some_inj.mp h <;> subst u <;>
    decide

theorem parseChars_shortEscape {u : UInt16} {e : Char} (h : shortEscape u = some e)
    (cs : List Char) : parseChars ('\\' :: e :: cs) = (parseChars cs).map (prepend [u]) := by
  obtain ⟨hunescape, hne⟩ := shortEscape_spec h
  have hquote : '\\' ≠ '"' := by decide
  rw [parseChars, if_neg hquote, if_pos rfl, hunescape]
  · cases parseChars cs <;> rfl
  · exact fun _ _ _ _ _ heq _ => hne heq

theorem parseChars_plain {c : Char} (hquote : c ≠ '"') (hslash : c ≠ '\\') (hc : 0x20 ≤ c.toNat)
    (cs : List Char) : parseChars (c :: cs) = (parseChars cs).map (prepend (utf16Char c)) := by
  rw [parseChars.eq_def]
  simp only [if_neg hquote, if_neg hslash, if_neg hc.not_gt]
  cases parseChars cs <;> rfl

theorem parseChars_quoteUnit {u : UInt16} (hhigh : isHighSurrogate u = false)
    (hlow : isLowSurrogate u = false) (cs : List Char) :
    parseChars (quoteUnit u ++ cs) = (parseChars cs).map (prepend [u]) := by
  have hnat := toNat_ofNat_unit hhigh hlow
  have hne : ∀ c : Char, (shortEscape (.ofNat c.toNat)).isSome → shortEscape u = none →
      Char.ofNat u.toNat ≠ c := by
    rintro c hsome hnone rfl
    rw [hnat, UInt16.ofNat_toNat, hnone] at hsome
    cases hsome
  unfold quoteUnit
  split
  · rename_i e he
    exact parseChars_shortEscape he cs
  · rename_i hnone
    split_ifs with hcontrol
    · exact parseChars_escapeUnit u cs
    · have hplain : 0x20 ≤ (Char.ofNat u.toNat).toNat := by
        rw [hnat]
        exact not_lt.mp hcontrol
      rw [List.singleton_append, parseChars_plain (hne _ (by decide) hnone)
        (hne _ (by decide) hnone) hplain, utf16Char_unit hhigh hlow]

theorem parseChars_surrogatePair {u v : UInt16} (hu : isHighSurrogate u = true)
    (hv : isLowSurrogate v = true) (cs : List Char) :
    parseChars (surrogatePair u v :: cs) = (parseChars cs).map (prepend [u, v]) := by
  have hnat := toNat_surrogatePair hu hv
  have hne : ∀ c : Char, c.toNat < 0x10000 → surrogatePair u v ≠ c := by
    rintro c hc rfl
    omega
  rw [parseChars_plain (hne _ (by decide)) (hne _ (by decide)) (by omega),
    utf16Char_surrogatePair hu hv]

theorem parseChars_quoteUnits (s : CodeUnits) (cs : List Char) :
    parseChars (quoteUnits s ++ '"' :: cs) = some (s, cs) := by
  have hend : parseChars ('"' :: cs) = some ([], cs) := by
    rw [parseChars.eq_def]
    exact if_pos rfl
  fun_induction quoteUnits s with
  | case1 => exact hend
  | case2 u hu =>
      rw [parseChars_escapeUnit, hend]
      rfl
  | case3 u hu v vs hv ih =>
      rw [List.cons_append, parseChars_surrogatePair hu hv, ih]
      rfl
  | case4 u hu v vs hv ih =>
      rw [List.append_assoc, parseChars_escapeUnit, ih]
      rfl
  | case5 u us hu hlow ih =>
      rw [List.append_assoc, parseChars_escapeUnit, ih]
      rfl
  | case6 u us hu hlow ih =>
      rw [List.append_assoc, parseChars_quoteUnit (by simpa using hu) (by simpa using hlow), ih]
      rfl

/-! ## Values -/

mutual

def stringify : Json → List Char
  | .null => "null".toList
  | .bool b => if b then "true".toList else "false".toList
  | .num (.finite x) => numberText (.finite x)
  | .num _ => "null".toList
  | .str s => quote s
  | .arr [] => "[]".toList
  | .arr (v :: vs) => '[' :: (stringify v ++ stringifyItems vs)
  | .obj [] => "{}".toList
  | .obj (m :: ms) => '{' :: (stringifyMember m ++ stringifyMembers ms)

/-- The items after the first, and the closing bracket. -/
def stringifyItems : List Json → List Char
  | [] => [']']
  | v :: vs => ',' :: (stringify v ++ stringifyItems vs)

def stringifyMember : CodeUnits × Json → List Char
  | (name, v) => quote name ++ ':' :: stringify v

def stringifyMembers : List (CodeUnits × Json) → List Char
  | [] => ['}']
  | m :: ms => ',' :: (stringifyMember m ++ stringifyMembers ms)

end

def isJsonSpace (c : Char) : Bool := c = ' ' || c = '\t' || c = '\n' || c = '\r'

def skipSpace (cs : List Char) : List Char := cs.dropWhile isJsonSpace

def parseLiteral (word : String) (v : Json) (cs : List Char) : Option (Json × List Char) :=
  if word.toList <+: cs then some (v, cs.drop word.length) else none

mutual

def parseValue : ℕ → List Char → Option (Json × List Char)
  | 0, _ => none
  | fuel + 1, cs =>
      match skipSpace cs with
      | '"' :: cs => (parseChars cs).map fun (s, cs) => (.str s, cs)
      | '[' :: cs => (parseItems fuel cs).map fun (vs, cs) => (.arr vs, cs)
      | '{' :: cs => (parseMembers fuel cs).map fun (ms, cs) => (.obj ms, cs)
      | 'n' :: cs => parseLiteral "ull" .null cs
      | 't' :: cs => parseLiteral "rue" (.bool true) cs
      | 'f' :: cs => parseLiteral "alse" (.bool false) cs
      | cs => (parseNumeral cs).map fun (n, cs) => (.num n.toNumber, cs)

def parseItems : ℕ → List Char → Option (List Json × List Char)
  | 0, _ => none
  | fuel + 1, cs =>
      match skipSpace cs with
      | ']' :: cs => some ([], cs)
      | cs => do
          let (v, cs) ← parseValue fuel cs
          let (vs, cs) ← parseMoreItems fuel cs
          some (v :: vs, cs)

def parseMoreItems : ℕ → List Char → Option (List Json × List Char)
  | 0, _ => none
  | fuel + 1, cs =>
      match skipSpace cs with
      | ']' :: cs => some ([], cs)
      | ',' :: cs => do
          let (v, cs) ← parseValue fuel cs
          let (vs, cs) ← parseMoreItems fuel cs
          some (v :: vs, cs)
      | _ => none

def parseMember : ℕ → List Char → Option ((CodeUnits × Json) × List Char)
  | 0, _ => none
  | fuel + 1, cs =>
      match skipSpace cs with
      | '"' :: cs => do
          let (name, cs) ← parseChars cs
          match skipSpace cs with
          | ':' :: cs => (parseValue fuel cs).map fun (v, cs) => ((name, v), cs)
          | _ => none
      | _ => none

def parseMembers : ℕ → List Char → Option (List (CodeUnits × Json) × List Char)
  | 0, _ => none
  | fuel + 1, cs =>
      match skipSpace cs with
      | '}' :: cs => some ([], cs)
      | cs => do
          let (m, cs) ← parseMember fuel cs
          let (ms, cs) ← parseMoreMembers fuel cs
          some (m :: ms, cs)

def parseMoreMembers : ℕ → List Char → Option (List (CodeUnits × Json) × List Char)
  | 0, _ => none
  | fuel + 1, cs =>
      match skipSpace cs with
      | '}' :: cs => some ([], cs)
      | ',' :: cs => do
          let (m, cs) ← parseMember fuel cs
          let (ms, cs) ← parseMoreMembers fuel cs
          some (m :: ms, cs)
      | _ => none

end

/-- `JSON.parse`; every character of the text pays for two calls. -/
def jsonParse (cs : List Char) : Option Json :=
  match parseValue (2 * cs.length + 2) cs with
  | some (v, cs) => if skipSpace cs = [] then some v else none
  | none => none

end Js

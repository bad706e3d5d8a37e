import SocialMonitor.Js.Utf16

/-!
# Base64

Bytes as text, in the alphabet for URLs without padding and in the standard one
with it.  Reading takes the digits of both alphabets, passes over every other
character and ends at the first padding.
-/

namespace Js

def sextetChar (n : ℕ) : Char :=
  if n < 26 then .ofNat (65 + n)
  else if n < 52 then .ofNat (97 + (n - 26))
  else if n < 62 then .ofNat (48 + (n - 52))
  else if n = 62 then '-'
  else '_'

def sextet? (c : Char) : Option ℕ :=
  if c.isUpper then some (c.toNat - 65)
  else if c.isLower then some (c.toNat - 97 + 26)
  else if c.isDigit then some (c.toNat - 48 + 52)
  else if c = '-' ∨ c = '+' then some 62
  else if c = '_' ∨ c = '/' then some 63
  else none

def toSextets : List UInt8 → List ℕ
  | a :: b :: c :: bytes =>
      a.toNat / 4 :: (a.toNat % 4 * 16 + b.toNat / 16) :: (b.toNat % 16 * 4 + c.toNat / 64) ::
        c.toNat % 64 :: toSextets bytes
  | [a, b] => [a.toNat / 4, a.toNat % 4 * 16 + b.toNat / 16, b.toNat % 16 * 4]
  | [a] => [a.toNat / 4, a.toNat % 4 * 16]
  | [] => []

def ofSextets : List ℕ → List UInt8
  | p :: q :: r :: s :: digits =>
      .ofNat (p * 4 + q / 16) :: .ofNat (q % 16 * 16 + r / 4) :: .ofNat (r % 4 * 64 + s) ::
        ofSextets digits
  | [p, q, r] => [.ofNat (p * 4 + q / 16), .ofNat (q % 16 * 16 + r / 4)]
  | [p, q] => [.ofNat (p * 4 + q / 16)]
  | _ => []

/-- `buffer.toString("base64url")`. -/
def base64url (bytes : List UInt8) : List Char := (toSextets bytes).map sextetChar

def standardChar (n : ℕ) : Char :=
  if n = 62 then '+'
  else if n = 63 then '/'
  else sextetChar n

/-- `buffer.toString("base64")`. -/
def base64 (bytes : List UInt8) : List Char :=
  let digits := (toSextets bytes).map standardChar
  digits ++ List.replicate ((4 - digits.length % 4) % 4) '='

/-- Only the low byte of a code unit is looked at. -/
def lowByte (u : UInt16) : Char := .ofNat (u.toNat % 256)

/-- What is read of a text. -/
def unpadded (s : List Char) : List Char := ((utf16 s).map lowByte).takeWhile (· ≠ '=')

/-- `Buffer.from(s, "base64url")`. -/
def decodeBase64url (s : List Char) : List UInt8 := ofSextets ((unpadded s).filterMap sextet?)

/-- `Buffer.from(s, "base64")`. -/
def decodeBase64 (s : List Char) : List UInt8 := decodeBase64url s

theorem sextet?_sextetChar : ∀ n < 64, sextet? (sextetChar n) = some n := by decide

theorem sextet?_standardChar : ∀ n < 64, sextet? (standardChar n) = some n := by decide

theorem toSextets_lt (bytes : List UInt8) : ∀ n ∈ toSextets bytes, n < 64 := by
  fun_induction toSextets bytes with
  | case1 a b c bytes ih =>
      have ha := a.toNat_lt
      have hb := b.toNat_lt
      have hc := c.toNat_lt
      intro n hn
      simp only [List.mem_cons] at hn
      rcases hn with rfl | rfl | rfl | rfl | hn
      · omega
      · omega
      · omega
      · omega
      · exact ih n hn
  | case2 a b =>
      have ha := a.toNat_lt
      have hb := b.toNat_lt
      intro n hn
      simp only [List.mem_cons, List.not_mem_nil, or_false] at hn
      omega
  | case3 a =>
      have ha := a.toNat_lt
      intro n hn
      simp only [List.mem_cons, List.not_mem_nil, or_false] at hn
      omega
  | case4 => simp

theorem ofNat_eq {a : UInt8} {n : ℕ} (h : n = a.toNat) : UInt8.ofNat n = a := by
  rw [h, UInt8.ofNat_toNat]

theorem ofSextets_toSextets (bytes : List UInt8) : ofSextets (toSextets bytes) = bytes := by
  fun_induction toSextets bytes with
  | case1 a b c bytes ih =>
      have ha := a.toNat_lt
      have hb := b.toNat_lt
      have hc := c.toNat_lt
      rw [ofSextets, ih, ofNat_eq (a := a) (by omega), ofNat_eq (a := b) (by omega),
        ofNat_eq (a := c) (by omega)]
  | case2 a b =>
      have ha := a.toNat_lt
      have hb := b.toNat_lt
      rw [ofSextets, ofNat_eq (a := a) (by omega), ofNat_eq (a := b) (by omega)]
  | case3 a =>
      have ha := a.toNat_lt
      rw [ofSextets, ofNat_eq (a := a) (by omega)]
  | case4 => rfl

theorem filterMap_sextet? {char : ℕ → Char} (hchar : ∀ n < 64, sextet? (char n) = some n)
    {digits : List ℕ} (hdigits : ∀ n ∈ digits, n < 64) :
    (digits.map char).filterMap sextet? = digits := by
  induction digits with
  | nil => rfl
  | cons n digits ih =>
      obtain ⟨hn, hrest⟩ := List.forall_mem_cons.mp hdigits
      rw [List.map_cons, List.filterMap_cons_some (hchar n hn), ih hrest]

/-- A character that is read as itself. -/
def IsPlain (c : Char) : Prop := c.toNat < 256 ∧ c ≠ '='

instance : DecidablePred IsPlain := fun _ => inferInstanceAs (Decidable (_ ∧ _))

theorem isPlain_sextetChar : ∀ n < 64, IsPlain (sextetChar n) := by decide

theorem isPlain_standardChar : ∀ n < 64, IsPlain (standardChar n) := by decide

theorem lowByte_utf16Char {c : Char} (h : c.toNat < 256) : (utf16Char c).map lowByte = [c] := by
  have hunit : (UInt16.ofNat c.toNat).toNat % 256 = c.toNat := by
    rw [UInt16.toNat_ofNat']
    omega
  rw [utf16Char, if_pos (by omega), List.map_singleton, lowByte, hunit, Char.ofNat_toNat]

theorem unpadded_append {s : List Char} (hs : ∀ c ∈ s, IsPlain c) (padding : List Char) :
    unpadded (s ++ padding) = s ++ unpadded padding := by
  induction s with
  | nil => rfl
  | cons c s ih =>
      obtain ⟨⟨hbyte, hdigit⟩, hrest⟩ := List.forall_mem_cons.mp hs
      have hc : (utf16 (c :: (s ++ padding))).map lowByte =
          c :: (utf16 (s ++ padding)).map lowByte := by
        rw [utf16, List.flatMap_cons, List.map_append, lowByte_utf16Char hbyte]
        rfl
      rw [List.cons_append, unpadded, hc, List.takeWhile_cons_of_pos (by simpa using hdigit)]
      exact congrArg (c :: ·) (ih hrest)

theorem unpadded_replicate (k : ℕ) : unpadded (List.replicate k '=') = [] := by
  cases k with
  | zero => rfl
  | succ k => rfl

theorem unpadded_digits {char : ℕ → Char} (hchar : ∀ n < 64, IsPlain (char n)) {digits : List ℕ}
    (hdigits : ∀ n ∈ digits, n < 64) (k : ℕ) :
    unpadded (digits.map char ++ List.replicate k '=') = digits.map char := by
  rw [unpadded_append, unpadded_replicate, List.append_nil]
  intro c hc
  obtain ⟨n, hn, rfl⟩ := List.mem_map.mp hc
  exact hchar n (hdigits n hn)

@[simp] theorem decodeBase64url_base64url (bytes : List UInt8) :
    decodeBase64url (base64url bytes) = bytes := by
  have hdigits := toSextets_lt bytes
  have hread := unpadded_digits isPlain_sextetChar hdigits 0
  rw [List.replicate_zero, List.append_nil] at hread
  rw [decodeBase64url, base64url, hread, filterMap_sextet? sextet?_sextetChar hdigits,
    ofSextets_toSextets]

@[simp] theorem decodeBase64_base64 (bytes : List UInt8) : decodeBase64 (base64 bytes) = bytes := by
  have hdigits := toSextets_lt bytes
  rw [decodeBase64, decodeBase64url, base64, unpadded_digits isPlain_standardChar hdigits,
    filterMap_sextet? sextet?_standardChar hdigits, ofSextets_toSextets]

/-- The text after the first padding is not read. -/
example : decodeBase64 "VFSy1w==AAAA".toList = decodeBase64 "VFSy1w==".toList := by
  decide +kernel

/-- The alphabet: what holds of its 64 characters holds of every one written. -/
theorem mem_base64url {bytes : List UInt8} {c : Char} (h : c ∈ base64url bytes) :
    ∃ n < 64, c = sextetChar n := by
  obtain ⟨n, hn, rfl⟩ := List.mem_map.mp h
  exact ⟨n, toSextets_lt bytes n hn, rfl⟩

theorem mem_base64 {bytes : List UInt8} {c : Char} (h : c ∈ base64 bytes) :
    (∃ n < 64, c = standardChar n) ∨ c = '=' := by
  rcases List.mem_append.mp h with hdigit | hpadding
  · obtain ⟨n, hn, rfl⟩ := List.mem_map.mp hdigit
    exact Or.inl ⟨n, toSextets_lt bytes n hn, rfl⟩
  · exact Or.inr (List.eq_of_mem_replicate hpadding)

end Js

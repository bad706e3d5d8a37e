import SocialMonitor.Js.Utf16

/-!
# UTF-8

The bytes of a text, and the text that bytes are read as.  Bytes that begin no
character are read as replacement characters, one for each longest start of a
character among them.  Percent encoding takes the bytes of the characters and so
fails on a surrogate without its partner.
-/

namespace Js

def utf8Char (c : Char) : List UInt8 :=
  let n := c.toNat
  if n < 0x80 then [.ofNat n]
  else if n < 0x800 then [.ofNat (0xC0 + n / 0x40), .ofNat (0x80 + n % 0x40)]
  else if n < 0x10000 then
    [.ofNat (0xE0 + n / 0x1000), .ofNat (0x80 + n / 0x40 % 0x40), .ofNat (0x80 + n % 0x40)]
  else
    [.ofNat (0xF0 + n / 0x40000), .ofNat (0x80 + n / 0x1000 % 0x40),
      .ofNat (0x80 + n / 0x40 % 0x40), .ofNat (0x80 + n % 0x40)]

def utf8 (s : List Char) : List UInt8 := s.flatMap utf8Char

/-- A character of which some bytes are read: the value of their bits, the
bounds of the next byte, and how many follow that one. -/
structure Pending where
  value : ℕ
  low : ℕ
  high : ℕ
  owed : ℕ

def replacement : Char := .ofNat 0xFFFD

/-- The characters that the first byte of a character completes, and what is
pending after it. -/
def leadByte (b : ℕ) : List Char × Option Pending :=
  if b < 0x80 then ([.ofNat b], none)
  else if b < 0xC2 then ([replacement], none)
  else if b < 0xE0 then ([], some ⟨b - 0xC0, 0x80, 0xBF, 0⟩)
  else if b < 0xF0 then
    ([], some ⟨b - 0xE0, if b = 0xE0 then 0xA0 else 0x80, if b = 0xED then 0x9F else 0xBF, 1⟩)
  else if b < 0xF5 then
    ([], some ⟨b - 0xF0, if b = 0xF0 then 0x90 else 0x80, if b = 0xF4 then 0x8F else 0xBF, 2⟩)
  else ([replacement], none)

def nextByte : Option Pending → ℕ → List Char × Option Pending
  | none, b => leadByte b
  | some p, b =>
      if p.low ≤ b ∧ b ≤ p.high then
        let value := p.value * 0x40 + (b - 0x80)
        match p.owed with
        | 0 => ([.ofNat value], none)
        | owed + 1 => ([], some ⟨value, 0x80, 0xBF, owed⟩)
      else (replacement :: (leadByte b).1, (leadByte b).2)

def decodeFrom : Option Pending → List UInt8 → List Char
  | none, [] => []
  | some _, [] => [replacement]
  | pending, b :: bytes =>
      (nextByte pending b.toNat).1 ++ decodeFrom (nextByte pending b.toNat).2 bytes

/-- `buffer.toString("utf8")`. -/
def decodeUtf8 (bytes : List UInt8) : List Char := decodeFrom none bytes

theorem decodeFrom_cons (pending : Option Pending) {n : ℕ} (hn : n < 256) (bytes : List UInt8) :
    decodeFrom pending (.ofNat n :: bytes) =
      (nextByte pending n).1 ++ decodeFrom (nextByte pending n).2 bytes := by
  have hmod : (UInt8.ofNat n).toNat = n := by simp [Nat.mod_eq_of_lt hn]
  cases pending <;> rw [decodeFrom, hmod]

theorem nextByte_last {p : Pending} (howed : p.owed = 0) {b : ℕ} (hlow : p.low ≤ b)
    (hhigh : b ≤ p.high) :
    nextByte (some p) b = ([.ofNat (p.value * 0x40 + (b - 0x80))], none) := by
  simp [nextByte, hlow, hhigh, howed]

theorem nextByte_more {p : Pending} {owed : ℕ} (howed : p.owed = owed + 1) {b : ℕ}
    (hlow : p.low ≤ b) (hhigh : b ≤ p.high) :
    nextByte (some p) b = ([], some ⟨p.value * 0x40 + (b - 0x80), 0x80, 0xBF, owed⟩) := by
  simp [nextByte, hlow, hhigh, howed]

theorem toNat_valid (c : Char) : c.toNat < 0xD800 ∨ 0xDFFF < c.toNat ∧ c.toNat < 0x110000 := c.valid

theorem leadByte_ascii {b : ℕ} (h : b < 0x80) : leadByte b = ([.ofNat b], none) := by
  simp [leadByte, h]

theorem leadByte_two {b : ℕ} (hlow : 0xC2 ≤ b) (hhigh : b < 0xE0) :
    leadByte b = ([], some ⟨b - 0xC0, 0x80, 0xBF, 0⟩) := by
  rw [leadByte, if_neg (by omega), if_neg (by omega), if_pos hhigh]

theorem leadByte_three {b : ℕ} (hlow : 0xE0 ≤ b) (hhigh : b < 0xF0) :
    leadByte b = ([], some ⟨b - 0xE0, if b = 0xE0 then 0xA0 else 0x80,
      if b = 0xED then 0x9F else 0xBF, 1⟩) := by
  rw [leadByte, if_neg (by omega), if_neg (by omega), if_neg (by omega), if_pos hhigh]

theorem leadByte_four {b : ℕ} (hlow : 0xF0 ≤ b) (hhigh : b < 0xF5) :
    leadByte b = ([], some ⟨b - 0xF0, if b = 0xF0 then 0x90 else 0x80,
      if b = 0xF4 then 0x8F else 0xBF, 2⟩) := by
  rw [leadByte, if_neg (by omega), if_neg (by omega), if_neg (by omega), if_neg (by omega),
    if_pos hhigh]

theorem decodeFrom_utf8Char (c : Char) (bytes : List UInt8) :
    decodeFrom none (utf8Char c ++ bytes) = c :: decodeFrom none bytes := by
  have hvalid := toNat_valid c
  have hchar : ∀ n, n = c.toNat → Char.ofNat n = c := fun n hn => by
    rw [hn, Char.ofNat_toNat]
  unfold utf8Char
  dsimp only
  split_ifs with h₁ h₂ h₃
  · rw [List.singleton_append, decodeFrom_cons _ (by omega), nextByte, leadByte_ascii h₁,
      hchar _ rfl]
    rfl
  · simp only [List.cons_append, List.nil_append]
    rw [decodeFrom_cons _ (by omega), nextByte, leadByte_two (by omega) (by omega),
      decodeFrom_cons _ (by omega), nextByte_last rfl (by dsimp only; omega) (by dsimp only; omega),
      hchar _ (by dsimp only; omega)]
    rfl
  · simp only [List.cons_append, List.nil_append]
    rw [decodeFrom_cons _ (by omega), nextByte, leadByte_three (by omega) (by omega),
      decodeFrom_cons _ (by omega),
      nextByte_more rfl (by dsimp only; split_ifs <;> omega) (by dsimp only; split_ifs <;> omega),
      decodeFrom_cons _ (by omega), nextByte_last rfl (by dsimp only; omega) (by dsimp only; omega),
      hchar _ (by dsimp only; omega)]
    rfl
  · simp only [List.cons_append, List.nil_append]
    rw [decodeFrom_cons _ (by omega), nextByte, leadByte_four (by omega) (by omega),
      decodeFrom_cons _ (by omega),
      nextByte_more rfl (by dsimp only; split_ifs <;> omega) (by dsimp only; split_ifs <;> omega),
      decodeFrom_cons _ (by omega), nextByte_more rfl (by dsimp only; omega) (by dsimp only; omega),
      decodeFrom_cons _ (by omega), nextByte_last rfl (by dsimp only; omega) (by dsimp only; omega),
      hchar _ (by dsimp only; omega)]
    rfl

@[simp] theorem decodeUtf8_utf8 (s : List Char) : decodeUtf8 (utf8 s) = s := by
  induction s with
  | nil => rfl
  | cons c s ih =>
      have hcons : utf8 (c :: s) = utf8Char c ++ utf8 s := rfl
      rw [decodeUtf8, hcons, decodeFrom_utf8Char]
      exact congrArg (c :: ·) ih

theorem utf8_injective {s s' : List Char} (h : utf8 s = utf8 s') : s = s' := by
  rw [← decodeUtf8_utf8 s, h, decodeUtf8_utf8]

/-! ## Percent encoding -/

def isUriUnreserved (c : Char) : Bool :=
  c.isAlphanum || c ∈ "-_.!~*'()".toList

def upperHex (n : ℕ) : Char := (Nat.digitChar n).toUpper

def percentEncode (b : UInt8) : List Char := ['%', upperHex (b.toNat / 16), upperHex (b.toNat % 16)]

/-- `encodeURIComponent(s)`, or nothing where it throws a `URIError`. -/
def encodeURIComponent? (s : CodeUnits) : Option (List Char) :=
  (decodeUtf16? s).map fun cs =>
    cs.flatMap fun c => if isUriUnreserved c then [c] else (utf8Char c).flatMap percentEncode

end Js

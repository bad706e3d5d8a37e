import Mathlib.Tactic

/-!
# UTF-16

A string of the language is a list of UTF-16 code units.  A character outside
the basic plane takes a high and a low surrogate; a surrogate without its
partner is not the code of any character.
-/

namespace Js

abbrev CodeUnits := List UInt16

def isHighSurrogate (u : UInt16) : Bool := 0xD800 ≤ u.toNat && u.toNat < 0xDC00

def isLowSurrogate (u : UInt16) : Bool := 0xDC00 ≤ u.toNat && u.toNat < 0xE000

def utf16Char (c : Char) : CodeUnits :=
  if c.toNat < 0x10000 then [.ofNat c.toNat]
  else [.ofNat (0xD800 + (c.toNat - 0x10000) / 0x400),
    .ofNat (0xDC00 + (c.toNat - 0x10000) % 0x400)]

def utf16 (s : List Char) : CodeUnits := s.flatMap utf16Char

def surrogatePair (high low : UInt16) : Char :=
  .ofNat (0x10000 + (high.toNat - 0xD800) * 0x400 + (low.toNat - 0xDC00))

/-- The characters of a well-formed text. -/
def decodeUtf16? : CodeUnits → Option (List Char)
  | [] => some []
  | u :: us =>
      if isHighSurrogate u then
        match us with
        | v :: us =>
            if isLowSurrogate v then (decodeUtf16? us).map (surrogatePair u v :: ·) else none
        | [] => none
      else if isLowSurrogate u then none
      else (decodeUtf16? us).map (.ofNat u.toNat :: ·)

theorem toNat_ofNat_of_valid {n : ℕ} (h : n.isValidChar) : (Char.ofNat n).toNat = n := by
  rw [Char.ofNat, dif_pos h]
  rfl

/-- A code unit outside the surrogates is a character. -/
theorem toNat_ofNat_unit {u : UInt16} (hhigh : isHighSurrogate u = false)
    (hlow : isLowSurrogate u = false) : (Char.ofNat u.toNat).toNat = u.toNat := by
  have hu := u.toNat_lt
  simp only [isHighSurrogate, isLowSurrogate, Bool.and_eq_false_iff, decide_eq_false_iff_not]
    at hhigh hlow
  apply toNat_ofNat_of_valid
  unfold Nat.isValidChar
  omega

theorem utf16Char_unit {u : UInt16} (hhigh : isHighSurrogate u = false)
    (hlow : isLowSurrogate u = false) : utf16Char (.ofNat u.toNat) = [u] := by
  rw [utf16Char, toNat_ofNat_unit hhigh hlow, if_pos u.toNat_lt, UInt16.ofNat_toNat]

theorem toNat_surrogatePair {u v : UInt16} (hu : isHighSurrogate u = true)
    (hv : isLowSurrogate v = true) : (surrogatePair u v).toNat =
      0x10000 + (u.toNat - 0xD800) * 0x400 + (v.toNat - 0xDC00) := by
  simp only [isHighSurrogate, isLowSurrogate, Bool.and_eq_true, decide_eq_true_eq] at hu hv
  apply toNat_ofNat_of_valid
  unfold Nat.isValidChar
  omega

/-- A surrogate pair is the code of its character. -/
theorem utf16Char_surrogatePair {u v : UInt16} (hu : isHighSurrogate u = true)
    (hv : isLowSurrogate v = true) : utf16Char (surrogatePair u v) = [u, v] := by
  have hnat := toNat_surrogatePair hu hv
  simp only [isHighSurrogate, isLowSurrogate, Bool.and_eq_true, decide_eq_true_eq] at hu hv
  have hhigh : 0xD800 + ((surrogatePair u v).toNat - 0x10000) / 0x400 = u.toNat := by omega
  have hlow : 0xDC00 + ((surrogatePair u v).toNat - 0x10000) % 0x400 = v.toNat := by omega
  rw [utf16Char, if_neg (by omega), hhigh, hlow, UInt16.ofNat_toNat, UInt16.ofNat_toNat]

end Js

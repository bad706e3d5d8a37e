import SocialMonitor.Js.Utf16

/-!
# Hexadecimal

Bytes from pairs of digits.  Reading ends at the first pair that is not of
digits, and without an error.
-/

namespace Js

def hexDigit? (u : UInt16) : Option ℕ :=
  let n := u.toNat
  if 48 ≤ n ∧ n < 58 then some (n - 48)
  else if 65 ≤ n ∧ n < 71 then some (n - 55)
  else if 97 ≤ n ∧ n < 103 then some (n - 87)
  else none

def isHexDigit (u : UInt16) : Bool := (hexDigit? u).isSome

/-- `Buffer.from(s, "hex")`, for a decoder that stops at the first pair that is not
hexadecimal.  Node reads only the low byte of each code unit. -/
def decodeHex : CodeUnits → List UInt8
  | u :: v :: us =>
      match hexDigit? u, hexDigit? v with
      | some high, some low => .ofNat (high * 16 + low) :: decodeHex us
      | _, _ => []
  | _ => []

theorem decodeHex_pair {u v : UInt16} (us : CodeUnits) {high low : ℕ}
    (hu : hexDigit? u = some high) (hv : hexDigit? v = some low) :
    decodeHex (u :: v :: us) = .ofNat (high * 16 + low) :: decodeHex us := by
  rw [decodeHex, hu, hv]

theorem decodeHex_stop {u v : UInt16} (us : CodeUnits)
    (h : isHexDigit u = false ∨ isHexDigit v = false) : decodeHex (u :: v :: us) = [] := by
  simp only [isHexDigit, Option.isSome_eq_false_iff, Option.isNone_iff_eq_none] at h
  rcases h with hu | hv
  · rw [decodeHex, hu]
  · rw [decodeHex, hv]
    cases hexDigit? u <;> rfl

/-- All pairs are read exactly where every character is a digit. -/
theorem length_decodeHex_iff (n : ℕ) {s : CodeUnits} (hs : s.length = 2 * n) :
    (decodeHex s).length = n ↔ ∀ u ∈ s, isHexDigit u = true := by
  induction n generalizing s with
  | zero =>
      obtain rfl := List.length_eq_zero_iff.mp hs
      simp [decodeHex]
  | succ n ih =>
      obtain ⟨u, v, us, rfl⟩ : ∃ u v us, s = u :: v :: us := by
        cases s with
        | nil => simp at hs
        | cons u s =>
            cases s with
            | nil => simp at hs; omega
            | cons v us => exact ⟨u, v, us, rfl⟩
      have hrest : us.length = 2 * n := by
        simp only [List.length_cons] at hs
        omega
      simp only [List.forall_mem_cons]
      by_cases hpair : isHexDigit u = true ∧ isHexDigit v = true
      · obtain ⟨hu, hv⟩ := hpair
        obtain ⟨high, hhigh⟩ := Option.isSome_iff_exists.mp hu
        obtain ⟨low, hlow⟩ := Option.isSome_iff_exists.mp hv
        rw [decodeHex_pair us hhigh hlow, List.length_cons, Nat.add_right_cancel_iff, ih hrest]
        simp [hu, hv]
      · have hstop : isHexDigit u = false ∨ isHexDigit v = false := by
          rwa [not_and_or, Bool.not_eq_true, Bool.not_eq_true] at hpair
        rw [decodeHex_stop us hstop]
        constructor
        · intro hzero
          cases hzero
        · rintro ⟨hu, hv, -⟩
          exact absurd ⟨hu, hv⟩ hpair

end Js

import Mathlib.Data.List.Basic

/-!
# Strings of the language

Trimming and joining.  A well-formed string is a list of characters.
-/

namespace Js

/-- `WhiteSpace` and `LineTerminator` of the language. -/
def isWhiteSpace (c : Char) : Bool :=
  c.toNat ∈ [0x9, 0xA, 0xB, 0xC, 0xD, 0x20, 0xA0, 0x1680, 0x2028, 0x2029, 0x202F, 0x205F, 0x3000,
    0xFEFF] || (0x2000 ≤ c.toNat && c.toNat ≤ 0x200A)

def trimStart (cs : List Char) : List Char := cs.dropWhile isWhiteSpace

def trimChars (cs : List Char) : List Char := (trimStart (trimStart cs).reverse).reverse

/-- `s.trim()`. -/
def trim (s : String) : String := String.ofList (trimChars s.toList)

theorem trimStart_of_head {cs : List Char} (h : ∀ c ∈ cs.head?, isWhiteSpace c = false) :
    trimStart cs = cs := by
  cases cs with
  | nil => rfl
  | cons c cs => simp [trimStart, h c rfl]

theorem trim_of_clean {s : String} (hhead : ∀ c ∈ s.toList.head?, isWhiteSpace c = false)
    (hlast : ∀ c ∈ s.toList.getLast?, isWhiteSpace c = false) : trim s = s := by
  have hreverse : ∀ c ∈ s.toList.reverse.head?, isWhiteSpace c = false := by
    rw [List.head?_reverse]
    exact hlast
  rw [trim, trimChars, trimStart_of_head hhead, trimStart_of_head hreverse, List.reverse_reverse,
    String.ofList_toList]

theorem head?_trimStart (cs : List Char) : ∀ c ∈ (trimStart cs).head?, isWhiteSpace c = false := by
  induction cs with
  | nil => simp [trimStart]
  | cons c cs ih =>
      cases hc : isWhiteSpace c with
      | true => simpa [trimStart, hc] using ih
      | false => simp [trimStart, hc]

theorem getLast?_trimChars (cs : List Char) :
    ∀ c ∈ (trimChars cs).getLast?, isWhiteSpace c = false := by
  rw [trimChars, List.getLast?_reverse]
  exact head?_trimStart _

theorem head?_trimChars (cs : List Char) : ∀ c ∈ (trimChars cs).head?, isWhiteSpace c = false := by
  intro c hc
  rw [trimChars, List.head?_reverse] at hc
  obtain ⟨dropped, hdropped⟩ : trimStart (trimStart cs).reverse <:+ (trimStart cs).reverse :=
    List.dropWhile_suffix _
  refine head?_trimStart cs c ?_
  rw [← List.getLast?_reverse, ← hdropped, List.getLast?_append, Option.mem_def.mp hc]
  rfl

@[simp] theorem trim_trim (s : String) : trim (trim s) = trim s := by
  apply trim_of_clean
  · rw [trim, String.toList_ofList]
    exact head?_trimChars _
  · rw [trim, String.toList_ofList]
    exact getLast?_trimChars _

theorem mem_trimStart {cs : List Char} {c : Char} (hc : c ∈ cs) (hblank : isWhiteSpace c = false) :
    c ∈ trimStart cs := by
  induction cs with
  | nil => exact absurd hc (by simp)
  | cons d cs ih =>
      cases hd : isWhiteSpace d with
      | false => simpa [trimStart, hd] using hc
      | true =>
          have hne : c ≠ d := by
            rintro rfl
            simp [hblank] at hd
          simpa [trimStart, hd] using ih (List.mem_of_ne_of_mem hne hc)

theorem mem_trim {s : String} {c : Char} (hc : c ∈ s.toList) (hblank : isWhiteSpace c = false) :
    c ∈ (trim s).toList := by
  rw [trim, trimChars, String.toList_ofList, List.mem_reverse]
  exact mem_trimStart (List.mem_reverse.mpr (mem_trimStart hc hblank)) hblank

/-- `s || undefined`. -/
def nonempty? (s : String) : Option String := if s = "" then none else some s

theorem nonempty?_eq_some {s t : String} : nonempty? s = some t ↔ s = t ∧ t ≠ "" := by
  unfold nonempty?
  split_ifs with hs
  · simp only [false_iff, not_and, not_not]
    rintro rfl
    exact hs
  · rw [Option.some_inj]
    refine ⟨?_, And.left⟩
    rintro rfl
    exact ⟨rfl, hs⟩

/-- `parts.filter(Boolean).join(sep)`. -/
def joinNonempty (sep : String) (parts : List (Option String)) : String :=
  sep.intercalate ((parts.filterMap id).filter (· ≠ ""))

end Js

import SocialMonitor.Js.Utf16

/-!
# Well-formed UTF-16

A text without an unpaired surrogate, and where such a text can be cut.
-/

namespace Js

theorem isLowSurrogate_of_high {u : UInt16} (h : isHighSurrogate u = true) :
    isLowSurrogate u = false := by
  simp only [isHighSurrogate, isLowSurrogate, Bool.and_eq_true, decide_eq_true_eq,
    Bool.and_eq_false_iff, decide_eq_false_iff_not] at *
  omega

/-- Every high surrogate is followed by a low one, and every low one follows a
high one. -/
structure WellFormed (s : CodeUnits) : Prop where
  high : ∀ i u, s[i]? = some u → isHighSurrogate u = true →
    ∃ v, s[i + 1]? = some v ∧ isLowSurrogate v = true
  low : ∀ i v, s[i]? = some v → isLowSurrogate v = true →
    ∃ j u, i = j + 1 ∧ s[j]? = some u ∧ isHighSurrogate u = true

/-- The cut at `n` leaves a high surrogate as the last unit. -/
def SplitsPair (s : CodeUnits) (n : ℕ) : Prop :=
  ∃ j u, n = j + 1 ∧ s[j]? = some u ∧ isHighSurrogate u = true

theorem WellFormed.nil : WellFormed [] where
  high _ _ hu := by simp at hu
  low _ _ hv := by simp at hv

theorem WellFormed.singleton {u : UInt16} (hhigh : isHighSurrogate u = false)
    (hlow : isLowSurrogate u = false) : WellFormed [u] where
  high i v hv hvhigh := by
    obtain rfl := List.mem_singleton.mp (List.mem_of_getElem? hv)
    exact absurd hvhigh (by simp [hhigh])
  low i v hv hvlow := by
    obtain rfl := List.mem_singleton.mp (List.mem_of_getElem? hv)
    exact absurd hvlow (by simp [hlow])

theorem WellFormed.pair {u v : UInt16} (hu : isHighSurrogate u = true)
    (hv : isLowSurrogate v = true) : WellFormed [u, v] where
  high i w hw hwhigh := by
    cases i with
    | zero => exact ⟨v, rfl, hv⟩
    | succ i =>
        have hwv : w = v := by
          have := List.mem_of_getElem? (show [v][i]? = some w from hw)
          simpa using this
        have hnot := isLowSurrogate_of_high (hwv ▸ hwhigh)
        exact absurd hv (by simp [hnot])
  low i w hw hwlow := by
    cases i with
    | zero =>
        obtain rfl : u = w := by simpa using hw
        exact absurd hwlow (by simp [isLowSurrogate_of_high hu])
    | succ i =>
        cases i with
        | zero => exact ⟨0, u, rfl, rfl, hu⟩
        | succ i => simp at hw

theorem WellFormed.append {s t : CodeUnits} (hs : WellFormed s) (ht : WellFormed t) :
    WellFormed (s ++ t) where
  high i u hu huhigh := by
    by_cases hi : i < s.length
    · rw [List.getElem?_append_left hi] at hu
      obtain ⟨v, hv, hvlow⟩ := hs.high i u hu huhigh
      refine ⟨v, ?_, hvlow⟩
      rwa [List.getElem?_append_left (List.getElem?_eq_some_iff.mp hv).1]
    · rw [List.getElem?_append_right (by omega)] at hu
      obtain ⟨v, hv, hvlow⟩ := ht.high _ u hu huhigh
      refine ⟨v, ?_, hvlow⟩
      rwa [List.getElem?_append_right (by omega), Nat.sub_add_comm (by omega)]
  low i v hv hvlow := by
    by_cases hi : i < s.length
    · rw [List.getElem?_append_left hi] at hv
      obtain ⟨j, u, rfl, hu, huhigh⟩ := hs.low i v hv hvlow
      refine ⟨j, u, rfl, ?_, huhigh⟩
      rwa [List.getElem?_append_left (by omega)]
    · rw [List.getElem?_append_right (by omega)] at hv
      obtain ⟨j, u, hj, hu, huhigh⟩ := ht.low _ v hv hvlow
      refine ⟨s.length + j, u, by omega, ?_, huhigh⟩
      rwa [List.getElem?_append_right (by omega), Nat.add_sub_cancel_left]

theorem toNat_unit {n : ℕ} (h : n < 0x10000) : (UInt16.ofNat n).toNat = n := by
  simpa using Nat.mod_eq_of_lt h

theorem wellFormed_utf16Char (c : Char) : WellFormed (utf16Char c) := by
  have hscalar : c.toNat < 0xD800 ∨ 0xDFFF < c.toNat ∧ c.toNat < 0x110000 := c.valid
  by_cases hplane : c.toNat < 0x10000
  · rw [utf16Char, if_pos hplane]
    apply WellFormed.singleton
    · simp only [isHighSurrogate, toNat_unit hplane, Bool.and_eq_false_iff,
        decide_eq_false_iff_not]
      omega
    · simp only [isLowSurrogate, toNat_unit hplane, Bool.and_eq_false_iff,
        decide_eq_false_iff_not]
      omega
  · rw [utf16Char, if_neg hplane]
    apply WellFormed.pair
    · rw [isHighSurrogate, toNat_unit (by omega), Bool.and_eq_true, decide_eq_true_eq,
        decide_eq_true_eq]
      omega
    · rw [isLowSurrogate, toNat_unit (by omega), Bool.and_eq_true, decide_eq_true_eq,
        decide_eq_true_eq]
      omega

/-- Characters are written without an unpaired surrogate. -/
theorem wellFormed_utf16 (cs : List Char) : WellFormed (utf16 cs) := by
  induction cs with
  | nil => exact .nil
  | cons c cs ih => exact (wellFormed_utf16Char c).append ih

/-- A part of a text is well-formed unless a pair was split. -/
theorem wellFormed_take_iff {s : CodeUnits} (hs : WellFormed s) {n : ℕ} (hn : n < s.length) :
    WellFormed (s.take n) ↔ ¬ SplitsPair s n := by
  constructor
  · rintro htake ⟨j, u, rfl, hu, huhigh⟩
    have hkept : (s.take (j + 1))[j]? = some u := by
      rwa [List.getElem?_take_of_lt (Nat.lt_succ_self j)]
    obtain ⟨v, hv, -⟩ := htake.high j u hkept huhigh
    have hlast := (List.getElem?_eq_some_iff.mp hv).1
    rw [List.length_take] at hlast
    omega
  · intro hsplits
    constructor
    · intro i u hu huhigh
      have hi : i < n := by
        have := (List.getElem?_eq_some_iff.mp hu).1
        rw [List.length_take] at this
        omega
      rw [List.getElem?_take_of_lt hi] at hu
      obtain ⟨v, hv, hvlow⟩ := hs.high i u hu huhigh
      by_cases hnext : i + 1 < n
      · exact ⟨v, by rwa [List.getElem?_take_of_lt hnext], hvlow⟩
      · exact absurd ⟨i, u, by omega, hu, huhigh⟩ hsplits
    · intro i v hv hvlow
      have hi : i < n := by
        have := (List.getElem?_eq_some_iff.mp hv).1
        rw [List.length_take] at this
        omega
      rw [List.getElem?_take_of_lt hi] at hv
      obtain ⟨j, u, rfl, hu, huhigh⟩ := hs.low i v hv hvlow
      exact ⟨j, u, rfl, by rwa [List.getElem?_take_of_lt (by omega)], huhigh⟩

/-- What follows a text does not pair with its surrogates when it is
well-formed itself. -/
theorem wellFormed_append_iff {s t : CodeUnits} (ht : WellFormed t) :
    WellFormed (s ++ t) ↔ WellFormed s := by
  refine ⟨fun h => ?_, fun hs => hs.append ht⟩
  constructor
  · intro i u hu huhigh
    have hi := (List.getElem?_eq_some_iff.mp hu).1
    obtain ⟨v, hv, hvlow⟩ := h.high i u (by rwa [List.getElem?_append_left hi]) huhigh
    by_cases hnext : i + 1 < s.length
    · exact ⟨v, by rwa [List.getElem?_append_left hnext] at hv, hvlow⟩
    · rw [List.getElem?_append_right (by omega), Nat.sub_eq_zero_of_le (by omega)] at hv
      obtain ⟨j, -, hj, -⟩ := ht.low 0 v hv hvlow
      omega
  · intro i v hv hvlow
    have hi := (List.getElem?_eq_some_iff.mp hv).1
    obtain ⟨j, u, rfl, hu, huhigh⟩ := h.low i v (by rwa [List.getElem?_append_left hi]) hvlow
    exact ⟨j, u, rfl, by rwa [List.getElem?_append_left (by omega)] at hu, huhigh⟩

end Js

import Mathlib.Data.List.DropRight
import SocialMonitor.Js.Numeral

/-!
# The shortest text of a number

`Number::toString` takes the fewest digits that are read back as the number,
and among these the nearest to it.
-/

namespace Js

/-! ## The shortest decimal -/

/-- Of the decimals of `k + 1` digits next to `x`, one that is read back as `x`,
the nearest if there are two. -/
def decimalOf (x : Double) (k : ℕ) : Option (ℤ × ℤ) :=
  let p := Int.log 10 x.val - k
  let y := x.val / 10 ^ p
  ([halfEven y, ⌊y⌋, ⌊y⌋ + 1].find? fun s : ℤ => round (s * 10 ^ p) = .finite x).map
    fun s => (s, p)

def exactLength (x : Double) : ℕ := (Int.log 10 x.val + 1074).toNat

def shortest (x : Double) : ℤ × ℤ :=
  ((List.range (exactLength x + 1)).findSome? (decimalOf x)).getD (0, 0)

theorem decimalOf_exact (x : Double) : (decimalOf x (exactLength x)).isSome := by
  obtain ⟨-, m, e, hx, -, he⟩ := x.isDouble
  have hp : Int.log 10 x.val - exactLength x ≤ -1074 := by
    unfold exactLength
    omega
  obtain ⟨j, hj⟩ := Int.le.dest hp
  set p := Int.log 10 x.val - exactLength x
  have hint : x.val / 10 ^ p = ((m * 2 ^ (e - p).toNat * 5 ^ (-p).toNat : ℤ) : ℚ) := by
    have hten : (10 : ℚ) ^ p = 2 ^ p * 5 ^ p := by rw [← mul_zpow]; norm_num
    have htwo : (2 : ℚ) ^ (e - p).toNat = 2 ^ e / 2 ^ p := by
      rw [← zpow_natCast, Int.toNat_of_nonneg (by omega), zpow_sub₀ (by norm_num)]
    have hfive : (5 : ℚ) ^ (-p).toNat = (5 ^ p)⁻¹ := by
      rw [← zpow_natCast, Int.toNat_of_nonneg (by omega), zpow_neg]
    push_cast
    rw [htwo, hfive, hx, hten]
    field_simp
  have hround : round (halfEven (x.val / 10 ^ p) * 10 ^ p) = .finite x := by
    rw [hint, halfEven_intCast, ← hint, div_mul_cancel₀ _ (by positivity), round_val]
  rw [decimalOf, Option.isSome_map, List.find?_isSome]
  exact ⟨_, List.mem_cons_self, by simpa using hround⟩

theorem decimalOf_spec {x : Double} {k : ℕ} {s p : ℤ} (h : decimalOf x k = some (s, p)) :
    round (s * 10 ^ p) = .finite x ∧ (0 < x.val → 0 ≤ s) := by
  obtain ⟨s', hfind, hs⟩ := Option.map_eq_some_iff.mp h
  obtain ⟨rfl, rfl⟩ := Prod.mk.inj hs
  refine ⟨by simpa using List.find?_some hfind, fun hx => ?_⟩
  have hy : (0 : ℚ) ≤ x.val / 10 ^ (Int.log 10 x.val - k) := by positivity
  have hfloor : 0 ≤ ⌊x.val / 10 ^ (Int.log 10 x.val - k)⌋ := Int.floor_nonneg.mpr hy
  have hmem := List.mem_of_find?_eq_some hfind
  simp only [List.mem_cons, List.not_mem_nil, or_false] at hmem
  rcases hmem with rfl | rfl | rfl
  · rcases halfEven_mem (x.val / 10 ^ (Int.log 10 x.val - k)) with heq | heq <;> omega
  · omega
  · omega

theorem shortest_spec (x : Double) :
    round ((shortest x).1 * 10 ^ (shortest x).2) = .finite x ∧
      (0 < x.val → 0 ≤ (shortest x).1) := by
  obtain ⟨⟨s, p⟩, hfind⟩ :
      ∃ d, (List.range (exactLength x + 1)).findSome? (decimalOf x) = some d := by
    apply Option.isSome_iff_exists.mp
    rw [List.findSome?_isSome_iff]
    exact ⟨exactLength x, by simp, decimalOf_exact x⟩
  obtain ⟨k, -, hk⟩ := List.exists_of_findSome?_eq_some hfind
  rw [shortest, hfind]
  exact decimalOf_spec hk

def shortDigits (x : Double) : List Char :=
  (digits (shortest x).1.toNat).rdropWhile fun c => c = '0'

/-- Where the point stands, counted from the first digit. -/
def pointOf (x : Double) : ℤ := (shortest x).2 + (digits (shortest x).1.toNat).length

theorem rdropWhile_zeros (ds : List Char) :
    ∃ j, ds = ds.rdropWhile (fun c => c = '0') ++ List.replicate j '0' := by
  refine ⟨(ds.rtakeWhile fun c => c = '0').length, ?_⟩
  have hzeros : ds.rtakeWhile (fun c => c = '0') =
      List.replicate (ds.rtakeWhile fun c => c = '0').length '0' :=
    List.eq_replicate_of_mem fun c hc => by simpa using List.mem_rtakeWhile_imp hc
  rw [← hzeros]
  exact List.rdropWhile_append_rtakeWhile.symm

theorem shortDigits_isDigit (x : Double) : ∀ c ∈ shortDigits x, c.isDigit = true := fun _ hc =>
  digits_isDigit ((List.rdropWhile_prefix _ _).subset hc)

section Positive

variable {x : Double} (hx : 0 < x.val)

include hx

theorem shortest_toNat_ne_zero : (shortest x).1.toNat ≠ 0 := by
  obtain ⟨hround, hnonneg⟩ := shortest_spec x
  intro hzero
  have hs : (shortest x).1 = 0 := le_antisymm (Int.toNat_eq_zero.mp hzero) (hnonneg hx)
  rw [hs, Int.cast_zero, zero_mul] at hround
  have hfinite : Number.finite (Double.ofInt 0 (by norm_num)) = .finite x := by
    rw [← hround, ← round_intCast (by norm_num), Int.cast_zero]
  have hval := congrArg Double.val (Number.finite.inj hfinite)
  have hval' : (0 : ℚ) = x.val := by simpa [Double.ofInt] using hval
  exact hx.ne hval'

theorem round_shortDigits :
    round (ofDigits (shortDigits x) * 10 ^ (pointOf x - (shortDigits x).length)) = .finite x := by
  obtain ⟨hround, hnonneg⟩ := shortest_spec x
  obtain ⟨j, hj⟩ := rdropWhile_zeros (digits (shortest x).1.toNat)
  change _ = shortDigits x ++ _ at hj
  have hvalue : (ofDigits (shortDigits x) : ℚ) * 10 ^ j = (shortest x).1 := by
    have hnat : ofDigits (shortDigits x) * 10 ^ j = (shortest x).1.toNat := by
      rw [← ofDigits_append_zeros, ← hj, ofDigits_digits]
    have hcast : ((shortest x).1.toNat : ℤ) = (shortest x).1 := Int.toNat_of_nonneg (hnonneg hx)
    rw [← hcast, Int.cast_natCast, ← hnat]
    push_cast
    rfl
  have hpoint : pointOf x - (shortDigits x).length = j + (shortest x).2 := by
    have hlength := congrArg List.length hj
    rw [List.length_append, List.length_replicate] at hlength
    rw [pointOf, hlength]
    push_cast
    ring
  rw [hpoint, zpow_add₀ (by norm_num), zpow_natCast, ← mul_assoc, hvalue]
  exact hround

theorem shortDigits_head :
    shortDigits x ≠ [] ∧ (shortDigits x).head? ≠ some '0' := by
  have hhead := digits_head (shortest_toNat_ne_zero hx)
  obtain ⟨d, ds, hds⟩ := List.exists_cons_of_ne_nil (digits_ne_nil (shortest x).1.toNat)
  have hd : d ≠ '0' := by simpa [hds] using hhead
  have hne : shortDigits x ≠ [] := by
    rw [shortDigits, hds, Ne, List.rdropWhile_eq_nil_iff]
    intro hall
    exact hd (by simpa using hall d List.mem_cons_self)
  refine ⟨hne, ?_⟩
  obtain ⟨j, hj⟩ := rdropWhile_zeros (digits (shortest x).1.toNat)
  change _ = shortDigits x ++ _ at hj
  rw [hj, List.head?_append_of_ne_nil _ hne] at hhead
  exact hhead

end Positive

/-! ## The layout of the digits -/

/-- Digits `ds` with the point after the first `n` of them. -/
def layout (ds : List Char) (n : ℤ) : Numeral :=
  if ds.length ≤ n ∧ n ≤ 21 then
    ⟨false, ds ++ List.replicate (n - ds.length).toNat '0', [], none⟩
  else if 0 < n ∧ n ≤ 21 then ⟨false, ds.take n.toNat, ds.drop n.toNat, none⟩
  else if -6 < n ∧ n ≤ 0 then ⟨false, ['0'], List.replicate (-n).toNat '0' ++ ds, none⟩
  else ⟨false, ds.take 1, ds.drop 1, some (n - 1)⟩

theorem layout_negative (ds : List Char) (n : ℤ) : (layout ds n).negative = false := by
  unfold layout
  split_ifs <;> rfl

theorem isDigit_zeros {j : ℕ} {c : Char} (h : c ∈ List.replicate j '0') : c.isDigit = true := by
  rw [(List.mem_replicate.mp h).2]
  decide

theorem take_wellFormed {ds : List Char} (hds : ∀ c ∈ ds, c.isDigit = true) (hne : ds ≠ [])
    (hhead : ds.head? ≠ some '0') {k : ℕ} (hk : 0 < k) (exponent : Option ℤ) :
    (⟨false, ds.take k, ds.drop k, exponent⟩ : Numeral).WellFormed where
  whole c hc := hds c (List.mem_of_mem_take hc)
  nonempty := by simp [hne, hk.ne']
  leading := by
    rw [List.head?_take, if_neg hk.ne']
    exact Or.inr hhead
  fraction c hc := hds c (List.mem_of_mem_drop hc)

theorem layout_wellFormed {ds : List Char} (hds : ∀ c ∈ ds, c.isDigit = true) (hne : ds ≠ [])
    (hhead : ds.head? ≠ some '0') (n : ℤ) : (layout ds n).WellFormed := by
  unfold layout
  split_ifs with h₁ h₂ h₃
  · refine ⟨fun c hc => ?_, by simp [hne], Or.inr ?_, by simp⟩
    · exact (List.mem_append.mp hc).elim (hds c) isDigit_zeros
    · rwa [List.head?_append_of_ne_nil _ hne]
  · exact take_wellFormed hds hne hhead (by omega) none
  · have hzero : ∀ c ∈ ['0'], c.isDigit = true := by simp
    refine ⟨hzero, by simp, Or.inl rfl, fun c hc => ?_⟩
    exact (List.mem_append.mp hc).elim isDigit_zeros (hds c)
  · exact take_wellFormed hds hne hhead Nat.one_pos _

theorem layout_magnitude {ds : List Char} (hne : ds ≠ []) (n : ℤ) :
    (layout ds n).magnitude = ofDigits ds * 10 ^ (n - ds.length) := by
  unfold layout
  split_ifs with h₁ h₂ h₃
  · have hlength : ((n - ds.length).toNat : ℤ) = n - ds.length := Int.toNat_of_nonneg (by omega)
    simp only [Numeral.magnitude, List.append_nil, ofDigits_append_zeros, Option.getD_none,
      List.length_nil, Nat.cast_zero, sub_zero, zpow_zero, mul_one]
    rw [← hlength, zpow_natCast]
    push_cast
    rfl
  · simp only [Numeral.magnitude, List.take_append_drop, Option.getD_none, List.length_drop]
    congr 2
    omega
  · have hzeros : ofDigits (['0'] ++ (List.replicate (-n).toNat '0' ++ ds)) = ofDigits ds := by
      rw [← List.append_assoc]
      exact ofDigits_zeros_append ((-n).toNat + 1) ds
    simp only [Numeral.magnitude, hzeros, Option.getD_none, List.length_append,
      List.length_replicate]
    congr 2
    omega
  · have hpos := List.length_pos_iff.mpr hne
    simp only [Numeral.magnitude, List.take_append_drop, Option.getD_some, List.length_drop]
    congr 2
    omega

/-! ## The text of a number -/

def numeralOf (x : Double) : Numeral :=
  if x.val = 0 then ⟨false, ['0'], [], none⟩
  else if x.val < 0 then
    { layout (shortDigits x.neg) (pointOf x.neg) with negative := true }
  else layout (shortDigits x) (pointOf x)

/-- `String(n)`. -/
def numberText : Number → List Char
  | .finite x => (numeralOf x).text
  | .infinite negative => Numeral.signText negative ++ "Infinity".toList
  | .nan => "NaN".toList

theorem layout_shortDigits {x : Double} (hx : 0 < x.val) :
    (layout (shortDigits x) (pointOf x)).WellFormed ∧
      round (layout (shortDigits x) (pointOf x)).magnitude = .finite x := by
  obtain ⟨hne, hhead⟩ := shortDigits_head hx
  refine ⟨layout_wellFormed (shortDigits_isDigit x) hne hhead _, ?_⟩
  rw [layout_magnitude hne, round_shortDigits hx]

/-- The text of a number is a numeral of the number. -/
theorem numeralOf_spec (x : Double) :
    (numeralOf x).WellFormed ∧ (numeralOf x).toNumber = .finite x := by
  unfold numeralOf
  split_ifs with hzero hneg
  · have hx : Double.ofInt 0 (by norm_num) = x := Double.ext (by simp [Double.ofInt, hzero])
    refine ⟨⟨by simp, by simp, Or.inl rfl, by simp⟩, ?_⟩
    rw [← hx, ← round_intCast (by norm_num)]
    have hdigits : ofDigits ['0'] = 0 := rfl
    simp [Numeral.toNumber, Numeral.magnitude, hdigits]
  · obtain ⟨hwell, hround⟩ := layout_shortDigits (x := x.neg) (by simpa [Double.neg] using hneg)
    refine ⟨⟨hwell.whole, hwell.nonempty, hwell.leading, hwell.fraction⟩, ?_⟩
    change (round (layout (shortDigits x.neg) (pointOf x.neg)).magnitude).neg = _
    rw [hround, Number.neg, Double.neg_involutive]
  · obtain ⟨hwell, hround⟩ := layout_shortDigits (x := x) (by
      exact lt_of_le_of_ne (not_lt.mp hneg) (Ne.symm hzero))
    refine ⟨hwell, ?_⟩
    rw [Numeral.toNumber, layout_negative, hround]
    rfl

end Js

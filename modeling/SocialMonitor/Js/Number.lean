import Mathlib.Data.Int.Log
import Mathlib.Data.Rat.Floor
import Mathlib.Tactic

/-!
# Numbers of the language

A number is a binary64 value: a rational with a significand of 53 bits, an
infinity or not-a-number.  The two zeros are one value here.  Every arithmetic
result is the exact rational result rounded to the nearest binary64 value, ties
to an even significand.
-/

namespace Js

/-- The rationals that binary64 represents. -/
def IsDouble (q : ℚ) : Prop :=
  |q| < 2 ^ 1024 ∧ ∃ m e : ℤ, q = m * 2 ^ e ∧ |m| ≤ 2 ^ 53 ∧ -1074 ≤ e

structure Double where
  val : ℚ
  isDouble : IsDouble val

@[ext] theorem Double.ext {x y : Double} (h : x.val = y.val) : x = y := by
  cases x
  cases y
  simpa using h

instance : DecidableEq Double := fun _ _ => decidable_of_iff _ ⟨Double.ext, congrArg Double.val⟩

inductive Number where
  | finite (value : Double)
  | infinite (negative : Bool)
  | nan
deriving DecidableEq

/-- The nearest integer, ties to even. -/
def halfEven (q : ℚ) : ℤ :=
  if q - ⌊q⌋ < 1 / 2 then ⌊q⌋
  else if 1 / 2 < q - ⌊q⌋ then ⌊q⌋ + 1
  else if ⌊q⌋ % 2 = 0 then ⌊q⌋ else ⌊q⌋ + 1

@[simp] theorem halfEven_intCast (n : ℤ) : halfEven n = n := by simp [halfEven]

theorem halfEven_mem (q : ℚ) : halfEven q = ⌊q⌋ ∨ halfEven q = ⌊q⌋ + 1 := by
  unfold halfEven
  split_ifs <;> simp

theorem abs_halfEven_le {q : ℚ} {n : ℤ} (h : |q| < n) : |halfEven q| ≤ n := by
  obtain ⟨hlow, hhigh⟩ := abs_lt.mp h
  have hfloor : -n ≤ ⌊q⌋ := Int.le_floor.mpr (by push_cast; exact hlow.le)
  have hceil : ⌊q⌋ < n := Int.floor_lt.mpr hhigh
  rcases halfEven_mem q with heq | heq <;> rw [heq, abs_le] <;> omega

/-- The exponent of the last place of the binary64 grid around `q`. -/
def ulpExponent (q : ℚ) : ℤ := max (Int.log 2 |q| - 52) (-1074)

def roundVal (q : ℚ) : ℚ := halfEven (q / 2 ^ ulpExponent q) * 2 ^ ulpExponent q

theorem abs_div_ulp_lt (q : ℚ) : |q / 2 ^ ulpExponent q| < (2 ^ 53 : ℤ) := by
  have hpow : (0 : ℚ) < 2 ^ ulpExponent q := by positivity
  rw [abs_div, abs_of_pos hpow, div_lt_iff₀ hpow]
  calc
    |q| < (2 : ℚ) ^ (Int.log 2 |q| + 1) := by
      simpa using Int.lt_zpow_succ_log_self (b := 2) (by norm_num) |q|
    _ ≤ (2 : ℚ) ^ (53 + ulpExponent q) := by
      apply zpow_le_zpow_right₀ (by norm_num)
      have := le_max_left (Int.log 2 |q| - 52) (-1074)
      unfold ulpExponent
      omega
    _ = ((2 ^ 53 : ℤ) : ℚ) * 2 ^ ulpExponent q := by
      rw [zpow_add₀ (by norm_num)]
      norm_num

theorem isDouble_roundVal {q : ℚ} (h : |roundVal q| < 2 ^ 1024) : IsDouble (roundVal q) :=
  ⟨h, halfEven (q / 2 ^ ulpExponent q), ulpExponent q, rfl,
    abs_halfEven_le (abs_div_ulp_lt q), le_max_right _ _⟩

/-- Round a rational to the nearest binary64 value. -/
def round (q : ℚ) : Number :=
  if h : |roundVal q| < 2 ^ 1024 then .finite ⟨roundVal q, isDouble_roundVal h⟩
  else .infinite (decide (q < 0))

/-- Only a significand of exactly `2 ^ 53` lies above its own exponent. -/
theorem significand_of_ulp_gt {q : ℚ} {m e : ℤ} (hq : q = m * 2 ^ e) (hq0 : q ≠ 0)
    (hm : |m| ≤ 2 ^ 53) (hlt : e < ulpExponent q) (he : -1074 ≤ e) :
    ulpExponent q = e + 1 ∧ |m| = 2 ^ 53 := by
  have hlog : ulpExponent q = Int.log 2 |q| - 52 := by
    unfold ulpExponent at hlt ⊢
    omega
  have hlower : (2 : ℚ) ^ Int.log 2 |q| ≤ |q| := by
    simpa using Int.zpow_log_le_self (b := 2) (by norm_num) (abs_pos.mpr hq0)
  have hpow : (0 : ℚ) < 2 ^ e := by positivity
  have habs : |q| = |(m : ℚ)| * 2 ^ e := by rw [hq, abs_mul, abs_of_pos hpow]
  have hmq : |(m : ℚ)| ≤ 2 ^ 53 := by exact_mod_cast hm
  have hbound : (2 : ℚ) ^ Int.log 2 |q| ≤ 2 ^ (53 + e) := by
    calc
      (2 : ℚ) ^ Int.log 2 |q| ≤ |(m : ℚ)| * 2 ^ e := habs ▸ hlower
      _ ≤ 2 ^ (53 : ℤ) * 2 ^ e := by
        rw [zpow_ofNat]
        gcongr
      _ = 2 ^ (53 + e) := (zpow_add₀ (by norm_num) _ _).symm
  have hgap : Int.log 2 |q| ≤ 53 + e := (zpow_le_zpow_iff_right₀ (by norm_num)).mp hbound
  have htop : Int.log 2 |q| = 53 + e := by omega
  refine ⟨by omega, ?_⟩
  rw [htop, habs, zpow_add₀ (by norm_num)] at hlower
  have hmlow : (2 : ℚ) ^ (53 : ℤ) ≤ |(m : ℚ)| := le_of_mul_le_mul_right hlower hpow
  have hmlow' : (2 : ℤ) ^ 53 ≤ |m| := by exact_mod_cast hmlow
  exact le_antisymm hm hmlow'

/-- A binary64 value lies on its own grid. -/
theorem IsDouble.div_ulp {q : ℚ} (h : IsDouble q) : ∃ n : ℤ, q / 2 ^ ulpExponent q = n := by
  obtain ⟨-, m, e, hq, hm, he⟩ := h
  rcases eq_or_ne q 0 with rfl | hq0
  · exact ⟨0, by simp⟩
  by_cases hle : ulpExponent q ≤ e
  · obtain ⟨k, hk⟩ := Int.le.dest hle
    refine ⟨m * 2 ^ k, ?_⟩
    calc
      q / 2 ^ ulpExponent q = m * 2 ^ (e - ulpExponent q) := by
        rw [zpow_sub₀ (by norm_num), ← mul_div_assoc, ← hq]
      _ = m * 2 ^ (k : ℤ) := by rw [← hk, add_sub_cancel_left]
      _ = ((m * 2 ^ k : ℤ) : ℚ) := by push_cast; rw [zpow_natCast]
  · obtain ⟨hulp, hmabs⟩ := significand_of_ulp_gt hq hq0 hm (by omega) he
    have hhalf : ∃ n : ℤ, m = n * 2 := by
      rcases abs_choice m with hsign | hsign <;> rw [hsign] at hmabs
      · exact ⟨2 ^ 52, by omega⟩
      · exact ⟨-2 ^ 52, by omega⟩
    obtain ⟨n, rfl⟩ := hhalf
    refine ⟨n, ?_⟩
    have hpow : (2 : ℚ) ^ e ≠ 0 := by positivity
    rw [hulp, zpow_add₀ (by norm_num), hq]
    push_cast
    field_simp

theorem IsDouble.roundVal_eq {q : ℚ} (h : IsDouble q) : roundVal q = q := by
  obtain ⟨n, hn⟩ := h.div_ulp
  have hpow : (2 : ℚ) ^ ulpExponent q ≠ 0 := by positivity
  rw [roundVal, hn, halfEven_intCast, ← hn, div_mul_cancel₀ _ hpow]

@[simp] theorem round_val (x : Double) : round x.val = .finite x := by
  have hval : roundVal x.val = x.val := x.isDouble.roundVal_eq
  have hlt : |roundVal x.val| < 2 ^ 1024 := by
    rw [hval]
    exact x.isDouble.1
  simp only [round, hlt, dif_pos]
  congr 1
  exact Double.ext hval

theorem isDouble_intCast {n : ℤ} (h : |n| ≤ 2 ^ 53) : IsDouble n := by
  have hq : |(n : ℚ)| ≤ 2 ^ 53 := by exact_mod_cast h
  exact ⟨hq.trans_lt (pow_lt_pow_right₀ (by norm_num) (by norm_num)), n, 0, by simp, h, by norm_num⟩

/-- The number of an integer in the safe range. -/
def Double.ofInt (n : ℤ) (h : |n| ≤ 2 ^ 53) : Double := ⟨n, isDouble_intCast h⟩

def thousand : Double := .ofInt 1000 (by norm_num)

theorem round_intCast {n : ℤ} (h : |n| ≤ 2 ^ 53) : round n = .finite (Double.ofInt n h) :=
  round_val (Double.ofInt n h)

namespace Double

def add (x y : Double) : Number := round (x.val + y.val)

def mul (x y : Double) : Number := round (x.val * y.val)

end Double

/-! ## Dates -/

/-- The largest time value of a date, in milliseconds. -/
def maxTime : ℤ := 8640000000000000

/-- The integer part, towards zero. -/
def truncate (q : ℚ) : ℤ := if 0 ≤ q then ⌊q⌋ else ⌈q⌉

@[simp] theorem truncate_intCast (n : ℤ) : truncate n = n := by simp [truncate]

/-- The time value of `new Date(x)`; an invalid date has none. -/
def timeClip : Number → Option ℤ
  | .finite x => if |x.val| ≤ maxTime then some (truncate x.val) else none
  | .infinite _ => none
  | .nan => none

/-- A whole number of seconds whose milliseconds are in the range of dates is
multiplied by a thousand without rounding. -/
theorem timeClip_mul_thousand {n : ℤ} {x y : Double} (hx : x.val = n) (hy : y.val = 1000)
    (hn : |n * 1000| ≤ maxTime) : timeClip (x.mul y) = some (n * 1000) := by
  have hsafe : |n * 1000| ≤ 2 ^ 53 := hn.trans (by norm_num [maxTime])
  have hmul : x.mul y = .finite (Double.ofInt (n * 1000) hsafe) := by
    rw [Double.mul, hx, hy, ← round_intCast hsafe]
    push_cast
    rfl
  have hcast : |((n * 1000 : ℤ) : ℚ)| ≤ maxTime := by exact_mod_cast hn
  rw [hmul]
  simp only [timeClip, Double.ofInt, hcast, if_true, truncate_intCast]

end Js

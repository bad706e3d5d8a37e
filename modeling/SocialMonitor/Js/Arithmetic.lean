import SocialMonitor.Js.Number

/-!
# Sums, quotients and whole parts

How far rounding goes, and when a result is finite.
-/

namespace Js

namespace Number

def add : Number → Number → Number
  | finite x, finite y => x.add y
  | nan, _ => nan
  | _, nan => nan
  | infinite a, infinite b => if a = b then infinite a else nan
  | infinite a, finite _ => infinite a
  | finite _, infinite b => infinite b

def mul : Number → Number → Number
  | finite x, finite y => x.mul y
  | nan, _ => nan
  | _, nan => nan
  | infinite a, infinite b => infinite (a != b)
  | infinite a, finite y => if y.val = 0 then nan else infinite (a != decide (y.val < 0))
  | finite x, infinite b => if x.val = 0 then nan else infinite (decide (x.val < 0) != b)

def div : Number → Double → Number
  | finite x, y => round (x.val / y.val)
  | infinite a, _ => infinite a
  | nan, _ => nan

/-- `Math.floor`. -/
def floor : Number → Number
  | finite x => round ⌊x.val⌋
  | n => n

/-- `x < y`. -/
def lt : Number → Number → Bool
  | finite x, finite y => x.val < y.val
  | infinite true, finite _ => true
  | finite _, infinite false => true
  | infinite true, infinite false => true
  | _, _ => false

/-- `x <= y`. -/
def le : Number → Number → Bool
  | nan, _ => false
  | _, nan => false
  | x, y => !y.lt x

end Number

/-! ## Rounding errors -/

theorem abs_halfEven_sub_le (q : ℚ) : |halfEven q - q| ≤ 1 / 2 := by
  have hlow := Int.floor_le q
  have hhigh := Int.lt_floor_add_one q
  unfold halfEven
  split_ifs with h₁ h₂ h₃ <;> rw [abs_le] <;> push_cast <;> constructor <;> linarith

theorem abs_roundVal_sub_le (q : ℚ) : |roundVal q - q| ≤ 2 ^ ulpExponent q / 2 := by
  have hpow : (0 : ℚ) < 2 ^ ulpExponent q := by positivity
  have hdiff : roundVal q - q =
      (halfEven (q / 2 ^ ulpExponent q) - q / 2 ^ ulpExponent q) * 2 ^ ulpExponent q := by
    rw [roundVal, sub_mul, div_mul_cancel₀ _ hpow.ne']
  rw [hdiff, abs_mul, abs_of_pos hpow]
  have hhalf := mul_le_mul_of_nonneg_right (abs_halfEven_sub_le (q / 2 ^ ulpExponent q)) hpow.le
  linarith

theorem ulpExponent_le {q : ℚ} {k : ℤ} (hq0 : q ≠ 0) (hq : |q| < 2 ^ k) (hk : -1021 ≤ k) :
    ulpExponent q ≤ k - 53 := by
  have hlog : Int.log 2 |q| < k := by
    rw [← Int.lt_zpow_iff_log_lt (by norm_num) (abs_pos.mpr hq0)]
    exact_mod_cast hq
  unfold ulpExponent
  omega

/-! ## Rounding and order -/

theorem halfEven_le {q : ℚ} {n : ℤ} (h : q ≤ n) : halfEven q ≤ n := by
  have hfloor : ⌊q⌋ ≤ n := Int.floor_le_iff.mpr (h.trans_lt (by linarith))
  rcases eq_or_lt_of_le hfloor with heq | hlt
  · have hq : q = n := le_antisymm h (heq ▸ Int.floor_le q)
    rw [hq, halfEven_intCast]
  · rcases halfEven_mem q with hsame | hnext <;> omega

theorem halfEven_nonneg {q : ℚ} (h : 0 ≤ q) : 0 ≤ halfEven q := by
  have hfloor : 0 ≤ ⌊q⌋ := Int.floor_nonneg.mpr h
  rcases halfEven_mem q with hsame | hnext <;> omega

theorem roundVal_nonneg {q : ℚ} (h : 0 ≤ q) : 0 ≤ roundVal q := by
  have hquot : 0 ≤ q / 2 ^ ulpExponent q := by positivity
  have hcast : (0 : ℚ) ≤ halfEven (q / 2 ^ ulpExponent q) := by
    exact_mod_cast halfEven_nonneg hquot
  exact mul_nonneg hcast (by positivity)

theorem ulpExponent_mono {q r : ℚ} (hq : 0 < q) (h : q ≤ r) : ulpExponent q ≤ ulpExponent r := by
  have hlog : Int.log 2 |q| ≤ Int.log 2 |r| := by
    rw [abs_of_pos hq, abs_of_pos (hq.trans_le h)]
    exact Int.log_mono_right hq h
  unfold ulpExponent
  omega

/-- Rounding does not pass a binary64 value. -/
theorem roundVal_le {q r : ℚ} (hr : IsDouble r) (h0 : 0 ≤ r) (h : q ≤ r) : roundVal q ≤ r := by
  have hpow : (0 : ℚ) < 2 ^ ulpExponent q := by positivity
  rcases le_or_gt q 0 with hq | hq
  · have hquot : q / 2 ^ ulpExponent q ≤ (0 : ℤ) := by
      simpa using div_nonpos_of_nonpos_of_nonneg hq hpow.le
    have hcast : (halfEven (q / 2 ^ ulpExponent q) : ℚ) ≤ 0 := by exact_mod_cast halfEven_le hquot
    exact (mul_nonpos_of_nonpos_of_nonneg hcast hpow.le).trans h0
  · obtain ⟨m, hm⟩ := hr.div_ulp
    obtain ⟨k, hk⟩ := Int.le.dest (ulpExponent_mono hq h)
    -- the grid around `r` is a part of the grid around `q`
    have hgrid : r / 2 ^ ulpExponent q = ((m * 2 ^ k : ℤ) : ℚ) := by
      push_cast
      rw [← hm, ← hk, zpow_add₀ two_ne_zero, zpow_natCast]
      field_simp
    have hquot : q / 2 ^ ulpExponent q ≤ ((m * 2 ^ k : ℤ) : ℚ) := by
      rw [← hgrid]
      gcongr
    have hcast : (halfEven (q / 2 ^ ulpExponent q) : ℚ) ≤ ((m * 2 ^ k : ℤ) : ℚ) := by
      exact_mod_cast halfEven_le hquot
    calc
      roundVal q ≤ ((m * 2 ^ k : ℤ) : ℚ) * 2 ^ ulpExponent q := by
        unfold roundVal
        gcongr
      _ = r := by rw [← hgrid, div_mul_cancel₀ _ hpow.ne']

/-! ## Whole seconds -/

/-- Rounding the quotient of a time value by a thousand moves it past no whole
number. -/
theorem floor_roundVal_thousandth {n : ℕ} (hn : n ≤ maxTime) :
    ⌊roundVal (n / 1000)⌋ = (n / 1000 : ℕ) := by
  have hsplit : (n : ℚ) / 1000 = (n / 1000 : ℕ) + (n % 1000 : ℕ) / 1000 := by
    have hdiv := Nat.div_add_mod n 1000
    have hcast : (n : ℚ) = 1000 * (n / 1000 : ℕ) + (n % 1000 : ℕ) := by exact_mod_cast hdiv.symm
    rw [hcast]
    field_simp
  have hnat : n < 2 ^ 53 := by
    have htop : maxTime < 2 ^ 53 := by norm_num [maxTime]
    omega
  rcases Nat.eq_zero_or_pos (n % 1000) with hzero | hpos
  · have hwhole : (n : ℚ) / 1000 = ((n / 1000 : ℕ) : ℤ) := by
      rw [hsplit, hzero, Int.cast_natCast, Nat.cast_zero, zero_div, add_zero]
    have hdouble : IsDouble (((n / 1000 : ℕ) : ℤ) : ℚ) := isDouble_intCast (by
      rw [abs_of_nonneg (by positivity)]
      omega)
    rw [hwhole, hdouble.roundVal_eq, Int.floor_intCast]
  · have hq : (n : ℚ) / 1000 ≠ 0 := by
      have hnpos : 0 < n := Nat.pos_of_ne_zero fun h => by simp [h] at hpos
      positivity
    have hlt : |(n : ℚ) / 1000| < 2 ^ (44 : ℤ) := by
      have hcast : (n : ℚ) < 2 ^ 53 := by exact_mod_cast hnat
      rw [abs_of_nonneg (by positivity), div_lt_iff₀ (by norm_num)]
      norm_num at hcast ⊢
      linarith
    have hulp := ulpExponent_le hq hlt (by norm_num)
    have herror : |roundVal ((n : ℚ) / 1000) - n / 1000| ≤ 2 ^ (-10 : ℤ) := by
      have hpow : (2 : ℚ) ^ ulpExponent ((n : ℚ) / 1000) ≤ 2 ^ (-9 : ℤ) :=
        zpow_le_zpow_right₀ (by norm_num) hulp
      have hle := abs_roundVal_sub_le ((n : ℚ) / 1000)
      norm_num at hpow ⊢
      linarith
    have hlow : (1 : ℚ) ≤ (n % 1000 : ℕ) := by exact_mod_cast hpos
    have hhigh : ((n % 1000 : ℕ) : ℚ) ≤ 999 := by exact_mod_cast (by omega : n % 1000 ≤ 999)
    obtain ⟨hbelow, habove⟩ := abs_le.mp herror
    rw [Int.floor_eq_iff]
    norm_num at hbelow habove
    rw [Int.cast_natCast]
    constructor <;> linarith

/-! ## Finite results -/

theorem two_zpow_top : (2 : ℚ) ^ (1024 : ℤ) = 2 ^ 53 * 2 ^ (971 : ℤ) :=
  zpow_add₀ two_ne_zero 53 971

theorem two_zpow_971 : (2 : ℚ) ^ (971 : ℤ) = 2 * 2 ^ (970 : ℤ) :=
  zpow_one_add₀ two_ne_zero 970

/-- No finite value lies above the largest one. -/
theorem IsDouble.abs_le {q : ℚ} (h : IsDouble q) : |q| ≤ (2 ^ 53 - 1) * 2 ^ (971 : ℤ) := by
  obtain ⟨hlt, m, e, rfl, hm, -⟩ := h
  have hpow : (0 : ℚ) < 2 ^ e := by positivity
  rw [abs_mul, abs_of_pos hpow] at hlt ⊢
  rcases lt_or_ge e 971 with he | he
  · have hmq : |(m : ℚ)| ≤ 2 ^ 53 := by exact_mod_cast hm
    have hpowle : (2 : ℚ) ^ e ≤ 2 ^ (970 : ℤ) := zpow_le_zpow_right₀ (by norm_num) (by omega)
    calc
      |(m : ℚ)| * 2 ^ e ≤ 2 ^ 53 * 2 ^ (970 : ℤ) := by gcongr
      _ ≤ (2 ^ 53 - 1) * 2 ^ (971 : ℤ) := by
        rw [two_zpow_971, mul_left_comm, ← mul_assoc]
        gcongr
        norm_num
  · obtain ⟨k, hk⟩ := Int.le.dest he
    have hsplit : (2 : ℚ) ^ e = 2 ^ k * 2 ^ (971 : ℤ) := by
      rw [← hk, add_comm, zpow_add₀ (by norm_num), zpow_natCast]
    have hint : |m| * 2 ^ k < 2 ^ 53 := by
      have htop : (2 : ℚ) ^ 1024 = 2 ^ 53 * 2 ^ (971 : ℤ) := two_zpow_top
      rw [hsplit, ← mul_assoc, htop] at hlt
      exact_mod_cast lt_of_mul_lt_mul_right hlt (by positivity)
    have hle : |(m : ℚ)| * 2 ^ k ≤ 2 ^ 53 - 1 := by
      have hle' : |m| * 2 ^ k ≤ 2 ^ 53 - 1 := by omega
      exact_mod_cast hle'
    rw [hsplit, ← mul_assoc]
    gcongr

/-- A result nearer to the largest finite value than to the next power of two is
rounded to a finite value. -/
theorem round_finite {q : ℚ} (h : |q| < (2 ^ 53 - 1 / 2) * 2 ^ (971 : ℤ)) :
    ∃ x, round q = .finite x := by
  suffices hlt : |roundVal q| < 2 ^ 1024 by
    exact ⟨_, by rw [round, dif_pos hlt]⟩
  rcases eq_or_ne q 0 with rfl | hq0
  · have hzero : roundVal 0 = 0 := by
      simpa using (isDouble_intCast (n := 0) (by norm_num)).roundVal_eq
    rw [hzero]
    norm_num
  have htop : |q| < 2 ^ (1024 : ℤ) := by
    refine h.trans ?_
    rw [two_zpow_top]
    gcongr
    norm_num
  have hulp := ulpExponent_le hq0 htop (by norm_num)
  have hpow : (0 : ℚ) < 2 ^ ulpExponent q := by positivity
  have hsignificand : |(halfEven (q / 2 ^ ulpExponent q) : ℚ)| * 2 ^ ulpExponent q <
      2 ^ (1024 : ℤ) := by
    rcases lt_or_eq_of_le hulp with hlt | heq
    · have hle : |(halfEven (q / 2 ^ ulpExponent q) : ℚ)| ≤ 2 ^ 53 := by
        exact_mod_cast abs_halfEven_le (abs_div_ulp_lt q)
      have hpowle : (2 : ℚ) ^ ulpExponent q ≤ 2 ^ (970 : ℤ) :=
        zpow_le_zpow_right₀ (by norm_num) (by omega)
      calc
        _ ≤ (2 : ℚ) ^ 53 * 2 ^ (970 : ℤ) := by gcongr
        _ < 2 ^ 53 * 2 ^ (971 : ℤ) :=
          mul_lt_mul_of_pos_left (zpow_lt_zpow_right₀ one_lt_two (by decide)) (by norm_num)
        _ = 2 ^ (1024 : ℤ) := two_zpow_top.symm
    · have hulp971 : ulpExponent q = 971 := heq
      have hquot : |q / 2 ^ (971 : ℤ)| < 2 ^ 53 - 1 / 2 := by
        rwa [abs_div, abs_of_pos (by positivity : (0 : ℚ) < 2 ^ (971 : ℤ)),
          div_lt_iff₀ (by positivity)]
      have hnear := abs_halfEven_sub_le (q / 2 ^ (971 : ℤ))
      have hlt : |(halfEven (q / 2 ^ (971 : ℤ)) : ℚ)| < 2 ^ 53 := by
        have htriangle := abs_sub_abs_le_abs_sub (halfEven (q / 2 ^ (971 : ℤ)) : ℚ)
          (q / 2 ^ (971 : ℤ))
        linarith
      rw [hulp971]
      have hpow971 : (0 : ℚ) < 2 ^ (971 : ℤ) := by positivity
      calc
        _ < (2 : ℚ) ^ 53 * 2 ^ (971 : ℤ) := mul_lt_mul_of_pos_right hlt hpow971
        _ = 2 ^ (1024 : ℤ) := two_zpow_top.symm
  rw [roundVal, abs_mul, abs_of_pos hpow]
  exact_mod_cast hsignificand

theorem round_add_finite {q r : ℚ} (hq : |q| ≤ 2 ^ 53) (hr : IsDouble r) :
    ∃ x, round (q + r) = .finite x := by
  apply round_finite
  have hle := hr.abs_le
  have hsum := abs_add_le q r
  have hgap : (2 : ℚ) ^ (54 : ℤ) < 2 ^ (971 : ℤ) := zpow_lt_zpow_right₀ one_lt_two (by decide)
  generalize (2 : ℚ) ^ (971 : ℤ) = top at hle hgap ⊢
  norm_num at hgap hq hle ⊢
  linarith

theorem round_eq_finite {q : ℚ} {x : Double} (h : round q = .finite x) : x.val = roundVal q := by
  unfold round at h
  split_ifs at h
  exact congrArg Double.val (Number.finite.inj h).symm

/-- Below a whole number of the safe range, a result is finite and stays below it. -/
theorem round_le {q : ℚ} {n : ℤ} (hq : |q| ≤ 2 ^ 53) (h0 : 0 ≤ n) (hn : n ≤ 2 ^ 53) (h : q ≤ n) :
    ∃ x, round q = .finite x ∧ x.val ≤ n ∧ (0 ≤ q → 0 ≤ x.val) := by
  obtain ⟨x, hx⟩ : ∃ x, round q = .finite x := by
    simpa using round_add_finite hq (isDouble_intCast (n := 0) (by norm_num))
  refine ⟨x, hx, ?_, ?_⟩
  · rw [round_eq_finite hx]
    exact roundVal_le (isDouble_intCast (by rwa [abs_of_nonneg h0])) (by exact_mod_cast h0) h
  · rw [round_eq_finite hx]
    exact roundVal_nonneg

end Js

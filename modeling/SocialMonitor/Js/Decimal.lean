import Mathlib.Tactic

/-!
# Integers in decimal

The digits of an integer as `String(n)` writes them, and how they are read.
-/

namespace Js

def digits (n : ℕ) : List Char := Nat.toDigits 10 n

theorem digits_isDigit {n : ℕ} {c : Char} (h : c ∈ digits n) : c.isDigit = true :=
  Nat.isDigit_of_mem_toDigits (by decide) (by decide) h

theorem digits_ne_nil (n : ℕ) : digits n ≠ [] := Nat.toDigits_ne_nil

theorem digits_head {n : ℕ} (hn : n ≠ 0) : (digits n).head? ≠ some '0' := by
  induction n using Nat.base_induction 10 (by decide) with
  | single m hm =>
      rw [digits, Nat.toDigits_of_lt_base hm]
      interval_cases m
      · exact absurd rfl hn
      all_goals decide
  | digit m k hk hm ih =>
      rw [digits, ← Nat.toDigits_append_toDigits (by decide) hm hk,
        List.head?_append_of_ne_nil _ Nat.toDigits_ne_nil]
      exact ih hm.ne'

def ofDigits (cs : List Char) : ℕ := Nat.ofDigitChars 10 cs 0

@[simp] theorem ofDigits_digits (n : ℕ) : ofDigits (digits n) = n := Nat.ofDigitChars_ten_toDigits

theorem ofDigits_append_zeros (cs : List Char) (j : ℕ) :
    ofDigits (cs ++ List.replicate j '0') = ofDigits cs * 10 ^ j := by
  rw [ofDigits, Nat.ofDigitChars_append, Nat.ofDigitChars_replicate_zero, mul_comm]
  rfl

theorem ofDigits_zeros_append (j : ℕ) (cs : List Char) :
    ofDigits (List.replicate j '0' ++ cs) = ofDigits cs := by
  rw [ofDigits, Nat.ofDigitChars_append, Nat.ofDigitChars_replicate_zero, mul_zero]
  rfl

theorem digits_injective {m n : ℕ} (h : digits m = digits n) : m = n := by
  rw [← ofDigits_digits m, h, ofDigits_digits]

def decimal (n : ℤ) : List Char :=
  if n < 0 then '-' :: digits n.natAbs else digits n.natAbs

theorem toString_int (n : ℤ) : toString n = String.ofList (decimal n) := by
  cases n with
  | ofNat n => rfl
  | negSucc n =>
      have hneg : decimal (Int.negSucc n) = '-' :: digits (n + 1) := by
        rw [decimal, if_pos (Int.negSucc_lt_zero n), Int.natAbs_negSucc]
      have htext : toString (Int.negSucc n) = "-" ++ String.ofList (digits (n + 1)) := rfl
      rw [htext, hneg]
      apply String.toList_inj.mp
      simp

theorem mem_decimal {n : ℤ} {c : Char} (h : c ∈ decimal n) : c = '-' ∨ c.isDigit = true := by
  unfold decimal at h
  split_ifs at h
  · exact (List.mem_cons.mp h).imp_right digits_isDigit
  · exact Or.inr (digits_isDigit h)

theorem decimal_injective {m n : ℤ} (h : decimal m = decimal n) : m = n := by
  have hminus : ∀ k : ℕ, ∀ cs, digits k ≠ '-' :: cs := by
    intro k cs hk
    have := digits_isDigit (n := k) (c := '-') (by rw [hk]; exact List.mem_cons_self)
    exact absurd this (by decide)
  unfold decimal at h
  split_ifs at h with hm hn hn
  · have := digits_injective (List.cons.inj h).2
    omega
  · exact absurd h.symm (hminus _ _)
  · exact absurd h (hminus _ _)
  · have := digits_injective h
    omega

end Js

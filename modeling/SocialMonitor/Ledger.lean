import Mathlib.Data.ENat.Basic
import Mathlib.Logic.Relation

/-!
# Ledgers

A ledger keeps an account for each key.  An account is opened once, counts up
while it is open, and is closed for good.
-/

namespace Ledger

variable {κ : Type}

/-- `⊥` before the account is opened, and `⊤` once it is closed. -/
abbrev Account := WithBot ℕ∞

/-- An open account that has counted to `n`. -/
def counting (n : ℕ) : Account := ((n : ℕ∞) : WithBot ℕ∞)

inductive Move : Account → Account → Prop where
  | opened : Move ⊥ (counting 0)
  | counted (n : ℕ) : Move (counting n) (counting (n + 1))
  | closed (n : ℕ) : Move (counting n) ⊤

/-- In one step an account moves at most once. -/
def Step (book book' : κ → Account) : Prop := ∀ k, book' k = book k ∨ Move (book k) (book' k)

abbrev Steps : (κ → Account) → (κ → Account) → Prop := Relation.ReflTransGen Step

theorem Move.lt {a b : Account} (h : Move a b) : a < b := by
  cases h with
  | opened => exact WithBot.bot_lt_coe _
  | counted n => exact WithBot.coe_lt_coe.mpr (Nat.cast_lt.mpr n.lt_succ_self)
  | closed n => exact WithBot.coe_lt_coe.mpr (ENat.natCast_lt_top n)

variable {book book' : κ → Account}

theorem Step.le (h : Step book book') : book ≤ book' := by
  intro k
  rcases h k with heq | hmove
  · exact heq.ge
  · exact hmove.lt.le

theorem Steps.le (h : Steps book book') : book ≤ book' := by
  induction h with
  | refl => exact le_rfl
  | tail _ hstep ih => exact ih.trans hstep.le

theorem Steps.closed (h : Steps book book') {k : κ} (hk : book k = ⊤) : book' k = ⊤ :=
  top_le_iff.mp (hk ▸ h.le k)

/-- An open account counts on. -/
theorem steps_count [DecidableEq κ] {k : κ} {n : ℕ} (hk : book k = counting n) (m : ℕ) :
    Steps book (Function.update book k (counting (n + m))) := by
  induction m with
  | zero =>
      rw [Nat.add_zero, ← hk, Function.update_eq_self]
  | succ m ih =>
      refine ih.tail fun k' => ?_
      by_cases hk' : k' = k
      · subst hk'
        rw [Function.update_self, Function.update_self]
        exact Or.inr (.counted (n + m))
      · rw [Function.update_of_ne hk', Function.update_of_ne hk']
        exact Or.inl rfl

end Ledger

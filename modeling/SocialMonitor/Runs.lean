import Mathlib.Tactic.Common

/-!
# Runs of a machine

A machine is a step function: an event takes a state to the next one.  A
condition says which events are admitted in which states.
-/

namespace Machine

variable {S E : Type}

section Definitions

variable (step : S → E → S) (allowed : S → E → Prop)

/-- The states reached by events that `allowed` admits where they happen. -/
inductive Run (s₀ : S) : S → Prop where
  | refl : Run s₀ s₀
  | step {s : S} {e : E} : Run s₀ s → allowed s e → Run s₀ (step s e)

/-- The events of a list, each admitted where it happens. -/
def AllowedList : S → List E → Prop
  | _, [] => True
  | s, e :: es => allowed s e ∧ AllowedList (step s e) es

/-- The machine together with a record of its past, which `note` keeps. -/
def record {H : Type} (note : S → E → H → H) (p : S × H) (e : E) : S × H :=
  (step p.1 e, note p.1 e p.2)

instance AllowedList.decidable [∀ s e, Decidable (allowed s e)] :
    ∀ s es, Decidable (AllowedList step allowed s es)
  | _, [] => .isTrue trivial
  | s, e :: es => @instDecidableAnd _ _ _ (AllowedList.decidable (step s e) es)

end Definitions

variable {step : S → E → S} {allowed : S → E → Prop} {s₀ s : S}

/-- What every event keeps holds after any events. -/
theorem foldl_invariant (Inv : S → Prop) (hinit : Inv s₀) (hstep : ∀ s e, Inv s → Inv (step s e))
    (es : List E) : Inv (es.foldl step s₀) := by
  induction es generalizing s₀ with
  | nil => exact hinit
  | cons e es ih => exact ih (hstep _ _ hinit)

theorem AllowedList.append {es fs : List E} : AllowedList step allowed s₀ (es ++ fs) ↔
    AllowedList step allowed s₀ es ∧ AllowedList step allowed (es.foldl step s₀) fs := by
  induction es generalizing s₀ with
  | nil => simp [AllowedList]
  | cons e es ih =>
      rw [List.cons_append, AllowedList, ih]
      exact and_assoc.symm

/-- Two conditions that agree wherever an invariant holds admit the same lists;
the events that the first one admits keep the invariant. -/
theorem AllowedList.congr {allowed' : S → E → Prop} (Inv : S → Prop) (hinit : Inv s₀)
    (hstep : ∀ s e, Inv s → allowed s e → Inv (step s e))
    (h : ∀ s e, Inv s → (allowed s e ↔ allowed' s e)) (es : List E) :
    AllowedList step allowed s₀ es ↔ AllowedList step allowed' s₀ es := by
  induction es generalizing s₀ with
  | nil => exact Iff.rfl
  | cons e es ih =>
      rw [AllowedList, AllowedList, ← h _ _ hinit]
      exact and_congr_right fun he => ih (hstep _ _ hinit he)

namespace Run

theorem list (hrun : Run step allowed s₀ s) {es : List E} (hes : AllowedList step allowed s es) :
    Run step allowed s₀ (es.foldl step s) := by
  induction es generalizing s with
  | nil => exact hrun
  | cons e es ih => exact ih (hrun.step hes.1) hes.2

theorem trans {s' : S} (hrun : Run step allowed s₀ s) (hrest : Run step allowed s s') :
    Run step allowed s₀ s' := by
  induction hrest with
  | refl => exact hrun
  | step _ he ih => exact ih.step he

theorem mono {allowed' : S → E → Prop} (hrun : Run step allowed s₀ s)
    (h : ∀ s e, allowed s e → allowed' s e) : Run step allowed' s₀ s := by
  induction hrun with
  | refl => exact .refl
  | step _ he ih => exact ih.step (h _ _ he)

/-- A view of the states that commutes with every step takes runs to runs. -/
theorem map {S' E' : Type} {step' : S' → E' → S'} (allowed' : S' → E' → Prop)
    (f : S → S') (g : E → E')
    (hrun : Run step allowed s₀ s) (hstep : ∀ s e, f (step s e) = step' (f s) (g e))
    (hallowed : ∀ s e, allowed s e → allowed' (f s) (g e)) : Run step' allowed' (f s₀) (f s) := by
  induction hrun with
  | refl => exact .refl
  | step _ he ih => exact hstep _ _ ▸ ih.step (hallowed _ _ he)

/-- What holds at the start and is kept by every admitted event of a state
reached holds in every state reached. -/
theorem invariant (hrun : Run step allowed s₀ s) (Inv : S → Prop) (hinit : Inv s₀)
    (hstep : ∀ s e, Run step allowed s₀ s → Inv s → allowed s e → Inv (step s e)) : Inv s := by
  induction hrun with
  | refl => exact hinit
  | step hrun he ih => exact hstep _ _ hrun ih he

end Run

end Machine

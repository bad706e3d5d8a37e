import SocialMonitor.Async.Facts

/-!
# Programs of one component in a larger system

The operations of a component are some of those of a system.  A program over
them is a program of the system, and what it obeys there is what it obeys on
its own view of the states and histories.
-/

namespace Async

namespace Program

variable {Op Op' : Type} {Ans : Op → Type} {Ans' : Op' → Type} {ε α β S S' Choice : Type}

theorem obeys_trivial {step : (op : Op) → S → Except ε (Ans op) → S → Prop}
    (p : Program Op Ans ε α) (s : S) : p.Obeys step (fun _ _ => True) (fun _ _ => True) s :=
  obeys_of_stable p (fun _ _ _ _ _ h => h) trivial

/-- A program whose operations all leave the state as it is. -/
theorem Awaits.obeys_kept {P : Op → Prop} {step : (op : Op) → S → Except ε (Ans op) → S → Prop}
    {before : S → Op → Prop} {after : S → Except ε α → Prop} {p : Program Op Ans ε α} {s : S}
    (hp : p.Awaits P) (hbefore : ∀ op, P op → before s op)
    (hstep : ∀ op r s', P op → step op s r s' → s' = s) (hafter : ∀ r, after s r) :
    p.Obeys step before after s := by
  induction p with
  | ret a => exact hafter _
  | raise e => exact hafter _
  | call op next ih =>
      refine ⟨hbefore op hp.1, fun r s' h => ?_⟩
      obtain rfl := hstep op r s' hp.1 h
      exact ih r (hp.2 r)

/-- What a program obeys under two readings of its operations. -/
theorem Obeys.and {step step' : (op : Op) → S → Except ε (Ans op) → S → Prop}
    {before before' : S → Op → Prop} {after after' : S → Except ε α → Prop}
    {p : Program Op Ans ε α} {s : S} (h : p.Obeys step before after s)
    (h' : p.Obeys step' before' after' s)
    (hstep : ∀ op s r s', step op s r s' → step' op s r s') :
    p.Obeys step before (fun s r => after s r ∧ after' s r) s := by
  induction p generalizing s with
  | ret a => exact ⟨h, h'⟩
  | raise e => exact ⟨h, h'⟩
  | call op next ih =>
      exact ⟨h.1, fun r s' hs => ih r (h.2 r s' hs) (h'.2 r s' (hstep op s r s' hs))⟩

theorem obeys_attempt (step : (op : Op) → S → Except ε (Ans op) → S → Prop) (before : S → Op → Prop)
    (after : S → Except ε (Except ε α) → Prop) (p : Program Op Ans ε α) (s : S) :
    p.attempt.Obeys step before after s ↔ p.Obeys step before (fun s r => after s (.ok r)) s := by
  induction p generalizing s with
  | ret a => rfl
  | raise e => rfl
  | call op next ih =>
      apply and_congr_right
      intro _
      exact forall_congr' fun r => forall_congr' fun s' => imp_congr_right fun _ => ih r s'

/-- The program of each operation acts on the view as the operation does. -/
theorem Obeys.interp {f : (op : Op) → Program Op' Ans' ε (Ans op)}
    {step : (op : Op) → S → Except ε (Ans op) → S → Prop}
    {step' : (op : Op') → S' → Except ε (Ans' op) → S' → Prop} {before : S → Op → Prop}
    {before' : S' → Op' → Prop} {after : S → Except ε α → Prop} {after' : S' → Except ε α → Prop}
    (view : S' → S) {p : Program Op Ans ε α} {s : S'} (hp : p.Obeys step before after (view s))
    (hf : ∀ op s, before (view s) op →
      (f op).Obeys step' before' (fun s' r => step op (view s) r (view s')) s)
    (hafter : ∀ s r, after (view s) r → after' s r) :
    (p.interp f).Obeys step' before' after' s := by
  induction p generalizing s with
  | ret a => exact hafter s _ hp
  | raise e => exact hafter s _ hp
  | call op next ih =>
      refine (obeys_bind _ _ _ _ _ _).mpr ((obeys_attempt _ _ _ _ _).mpr ?_)
      exact (hf op s hp.1).mono (fun _ _ h => h) fun s' r hstep => ih r (hp.2 r _ hstep)

theorem map_answer (r : Except ε α) : (r.map fun a => a) = r := by
  cases r <;> rfl

section Within

variable (inj : Op → Op') (out : (op : Op) → Ans' (inj op) → Ans op)

/-- Every operation becomes the one of the system that `inj` names. -/
def within : Program Op Ans ε α → Program Op' Ans' ε α
  | ret a => ret a
  | raise e => raise e
  | call op next => call (inj op) fun r => (next (r.map (out op))).within

theorem within_bind (p : Program Op Ans ε α) (f : α → Program Op Ans ε β) :
    (p.bind f).within inj out = (p.within inj out).bind fun a => (f a).within inj out := by
  induction p with
  | ret a => rfl
  | raise e => rfl
  | call op next ih => exact congrArg (call (inj op)) (funext fun r => ih _)

variable {inj out}

theorem Awaits.within {P : Op → Prop} {P' : Op' → Prop} {p : Program Op Ans ε α} (hp : p.Awaits P)
    (h : ∀ op, P op → P' (inj op)) : (p.within inj out).Awaits P' := by
  induction p with
  | ret a => exact trivial
  | raise e => exact trivial
  | call op next ih => exact ⟨h op hp.1, fun r => ih _ (hp.2 _)⟩

/-- The component sees a part of the state, and its operations act on that part. -/
theorem Obeys.within {step : (op : Op) → S → Except ε (Ans op) → S → Prop}
    {step' : (op : Op') → S' → Except ε (Ans' op) → S' → Prop} {before : S → Op → Prop}
    {before' : S' → Op' → Prop} {after : S → Except ε α → Prop} {after' : S' → Except ε α → Prop}
    (view : S' → S) {p : Program Op Ans ε α} {s : S'} (hp : p.Obeys step before after (view s))
    (hstep : ∀ op s r s', step' (inj op) s r s' → step op (view s) (r.map (out op)) (view s'))
    (hbefore : ∀ s op, before (view s) op → before' s (inj op))
    (hafter : ∀ s r, after (view s) r → after' s r) :
    (p.within inj out).Obeys step' before' after' s := by
  induction p generalizing s with
  | ret a => exact hafter s _ hp
  | raise e => exact hafter s _ hp
  | call op next ih =>
      exact ⟨hbefore s op hp.1, fun r s' h => ih _ (hp.2 _ _ (hstep op s r s' h))⟩

end Within

/-- The component sees its own entries of a history. -/
theorem Conforms.within {inj : Op → Op'} {out : (op : Op) → Ans' (inj op) → Ans op}
    {possible : (op : Op) → Except ε (Ans op) → Prop}
    {possible' : (op : Op') → Except ε (Ans' op) → Prop}
    {before : List (Entry Op Ans ε) → Op → Prop} {before' : List (Entry Op' Ans' ε) → Op' → Prop}
    {after : List (Entry Op Ans ε) → Except ε α → Prop}
    {after' : List (Entry Op' Ans' ε) → Except ε α → Prop}
    (own : Entry Op' Ans' ε → Option (Entry Op Ans ε))
    (hown : ∀ op r, own ⟨inj op, r⟩ = some ⟨op, r.map (out op)⟩) {p : Program Op Ans ε α}
    {h : List (Entry Op' Ans' ε)} (hp : p.Conforms possible before after (h.filterMap own))
    (hpossible : ∀ op r, possible' (inj op) r → possible op (r.map (out op)))
    (hbefore : ∀ h op, before (h.filterMap own) op → before' h (inj op))
    (hafter : ∀ h r, after (h.filterMap own) r → after' h r) :
    (p.within inj out).Conforms possible' before' after' h := by
  refine Obeys.within (List.filterMap own) hp ?_ hbefore hafter
  rintro op h r h' ⟨hr, rfl⟩
  exact ⟨hpossible op r hr, List.filterMap_cons_some (hown op r)⟩

end Program

end Async

import SocialMonitor.Async.Program

/-!
# Two programs in lock step

Two runs that answer their operations by the same choices, each over its own
store.  The stores stay related, and the runs end alike.
-/

namespace Async

namespace Program

variable {Op : Type} {Ans : Op → Type} {ε α β γ δ S Choice : Type}

section Definitions

variable (exec : Choice → (op : Op) → S → Except ε (Ans op) × S) (related : S → S → Prop)

/-- From related stores on, the programs await operations that keep them related,
and end as `ends` admits. -/
def Coupled (ends : Except ε α → Except ε β → Prop) : Program Op Ans ε α → Program Op Ans ε β → Prop
  | ret a, ret b => ends (.ok a) (.ok b)
  | raise e, raise e' => ends (.error e) (.error e')
  | call op next, call op' next' => ∀ c s s', related s s' →
      related (exec c op s).2 (exec c op' s').2 ∧
        (next (exec c op s).1).Coupled ends (next' (exec c op' s').1)
  | _, _ => False

/-- Both end with the same error, or with values that `values` admits. -/
def Alike (values : α → β → Prop) : Except ε α → Except ε β → Prop
  | .ok a, .ok b => values a b
  | .error e, .error e' => e = e'
  | _, _ => False

end Definitions

variable {exec : Choice → (op : Op) → S → Except ε (Ans op) × S} {related : S → S → Prop}

theorem alike_eq {r r' : Except ε α} : Alike Eq r r' ↔ r = r' := by
  cases r <;> cases r' <;> simp [Alike]

theorem Alike.bind {values : α → β → Prop} {ends : γ → δ → Prop} {r : Except ε α} {r' : Except ε β}
    {f : α → Except ε γ} {f' : β → Except ε δ} (h : Alike values r r')
    (hf : ∀ a b, values a b → Alike ends (f a) (f' b)) : Alike ends (r >>= f) (r' >>= f') := by
  cases r with
  | error e =>
      cases r' with
      | error e' => exact h
      | ok b => exact h.elim
  | ok a =>
      cases r' with
      | error e' => exact h.elim
      | ok b => exact hf a b h

theorem Coupled.mono {ends ends' : Except ε α → Except ε β → Prop} {p : Program Op Ans ε α}
    {p' : Program Op Ans ε β} (h : p.Coupled exec related ends p')
    (hends : ∀ r r', ends r r' → ends' r r') : p.Coupled exec related ends' p' := by
  induction p generalizing p' with
  | ret a =>
      cases p' with
      | ret b => exact hends _ _ h
      | _ => exact h.elim
  | raise e =>
      cases p' with
      | raise e' => exact hends _ _ h
      | _ => exact h.elim
  | call op next ih =>
      cases p' with
      | call op' next' =>
          intro c s s' hs
          obtain ⟨hs', hnext⟩ := h c s s' hs
          exact ⟨hs', ih _ hnext⟩
      | _ => exact h.elim

theorem Coupled.weaken {values values' : α → β → Prop} {p : Program Op Ans ε α}
    {p' : Program Op Ans ε β}
    (h : p.Coupled exec related (Alike values) p') (hvalues : ∀ a b, values a b → values' a b) :
    p.Coupled exec related (Alike values') p' := by
  refine h.mono fun r r' hr => ?_
  cases r with
  | error e =>
      cases r' with
      | error e' => exact hr
      | ok b => exact hr.elim
  | ok a =>
      cases r' with
      | error e' => exact hr.elim
      | ok b => exact hvalues a b hr

theorem coupled_ofExcept {values : α → β → Prop} {r : Except ε α} {r' : Except ε β}
    (h : Alike values r r') : (ofExcept r).Coupled exec related (Alike values) (ofExcept r') := by
  cases r with
  | error e =>
      cases r' with
      | error e' => exact h
      | ok b => exact h.elim
  | ok a =>
      cases r' with
      | error e' => exact h.elim
      | ok b => exact h

theorem coupled_raise {values : α → β → Prop} (e : ε) :
    (raise e : Program Op Ans ε α).Coupled exec related
    (Alike values) (raise e : Program Op Ans ε β) := rfl

/-- The rule for a sequence. -/
theorem Coupled.bind {values : α → β → Prop} {ends : γ → δ → Prop} {p : Program Op Ans ε α}
    {p' : Program Op Ans ε β} {f : α → Program Op Ans ε γ} {f' : β → Program Op Ans ε δ}
    (hp : p.Coupled exec related (Alike values) p')
    (hf : ∀ a b, values a b → (f a).Coupled exec related (Alike ends) (f' b)) :
    (p.bind f).Coupled exec related (Alike ends) (p'.bind f') := by
  induction p generalizing p' with
  | ret a =>
      cases p' with
      | ret b => exact hf a b hp
      | _ => exact hp.elim
  | raise e =>
      cases p' with
      | raise e' => exact hp
      | _ => exact hp.elim
  | call op next ih =>
      cases p' with
      | call op' next' =>
          intro c s s' hs
          obtain ⟨hs', hnext⟩ := hp c s s' hs
          exact ⟨hs', ih _ hnext⟩
      | _ => exact hp.elim

/-- The rule for a guarded part. -/
theorem Coupled.handle {values : α → β → Prop} {p : Program Op Ans ε α} {p' : Program Op Ans ε β}
    {handler : ε → Program Op Ans ε α} {handler' : ε → Program Op Ans ε β}
    (hp : p.Coupled exec related (Alike values) p')
    (hhandler : ∀ e, (handler e).Coupled exec related (Alike values) (handler' e)) :
    (p.handle handler).Coupled exec related (Alike values) (p'.handle handler') := by
  induction p generalizing p' with
  | ret a =>
      cases p' with
      | ret b => exact hp
      | _ => exact hp.elim
  | raise e =>
      cases p' with
      | raise e' =>
          obtain rfl : e = e' := hp
          exact hhandler e
      | _ => exact hp.elim
  | call op next ih =>
      cases p' with
      | call op' next' =>
          intro c s s' hs
          obtain ⟨hs', hnext⟩ := hp c s s' hs
          exact ⟨hs', ih _ hnext⟩
      | _ => exact hp.elim

/-- An operation that keeps the stores related and is answered alike. -/
theorem coupled_await {op : Op} {op' : Op} {values : Ans op → Ans op' → Prop}
    (h : ∀ c s s', related s s' →
      related (exec c op s).2 (exec c op' s').2 ∧ Alike values (exec c op s).1 (exec c op' s').1) :
    (await op).Coupled exec related (Alike values) (await op') := by
  intro c s s' hs
  obtain ⟨hs', hanswer⟩ := h c s s' hs
  exact ⟨hs', coupled_ofExcept hanswer⟩

/-- A program whose operations are answered alike is in step with itself. -/
theorem Awaits.coupled {P : Op → Prop} {p : Program Op Ans ε α} (hp : p.Awaits P)
    (h : ∀ c op s s', P op → related s s' →
      related (exec c op s).2 (exec c op s').2 ∧ (exec c op s).1 = (exec c op s').1) :
    p.Coupled exec related (Alike Eq) p := by
  induction p with
  | ret a => exact rfl
  | raise e => exact rfl
  | call op next ih =>
      intro c s s' hs
      obtain ⟨hs', hanswer⟩ := h c op s s' hp.1 hs
      rw [← hanswer]
      exact ⟨hs', ih _ (hp.2 _)⟩

/-- Coupled programs run to the same end. -/
theorem Coupled.run {ends : Except ε α → Except ε β → Prop} {p : Program Op Ans ε α}
    {p' : Program Op Ans ε β} (h : p.Coupled exec related ends p') (choices : ℕ → Choice) {s s' : S}
    (hs : related s s') : ends (p.run exec choices s).1 (p'.run exec choices s').1 ∧
      related (p.run exec choices s).2 (p'.run exec choices s').2 := by
  induction p generalizing p' choices s s' with
  | ret a =>
      cases p' with
      | ret b => exact ⟨h, hs⟩
      | _ => exact h.elim
  | raise e =>
      cases p' with
      | raise e' => exact ⟨h, hs⟩
      | _ => exact h.elim
  | call op next ih =>
      cases p' with
      | call op' next' =>
          obtain ⟨hs', hnext⟩ := h (choices 0) s s' hs
          exact ih _ hnext (fun n => choices (n + 1)) hs'
      | _ => exact h.elim

end Program

end Async

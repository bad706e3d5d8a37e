import Mathlib.Tactic.Common

/-!
# Programs over awaited operations

An asynchronous function is a finite tree: at each node it awaits one
operation and resumes with the answer, which is a value or an error.  This
module gives the tree, its monad with exceptions, its run under a handler, and
the predicate transformer `Program.Obeys` with one rule for each constructor
and each combinator.  Nothing here depends on what the operations are.
-/

namespace Async

/-- A program that awaits operations `op : Op`.  An operation is answered by a
value of type `Ans op` or by an error, and the program resumes with it. -/
inductive Program (Op : Type) (Ans : Op → Type) (ε α : Type) : Type where
  | ret (value : α)
  | raise (error : ε)
  | call (op : Op) (next : Except ε (Ans op) → Program Op Ans ε α)

namespace Program

variable {Op : Type} {Ans : Op → Type} {ε α β S Choice : Type}

def bind : Program Op Ans ε α → (α → Program Op Ans ε β) → Program Op Ans ε β
  | ret a, f => f a
  | raise e, _ => raise e
  | call op next, f => call op fun r => (next r).bind f

/-- Errors raised by the program, also those answered to its own operations,
go to the handler. -/
def handle : Program Op Ans ε α → (ε → Program Op Ans ε α) → Program Op Ans ε α
  | ret a, _ => ret a
  | raise e, handler => handler e
  | call op next, handler => call op fun r => (next r).handle handler

/-- The continuation that hands an answer on: a value is returned, an error
raised. -/
def ofExcept : Except ε α → Program Op Ans ε α
  | .ok a => ret a
  | .error e => raise e

@[simp] theorem ofExcept_ok (a : α) : (ofExcept (.ok a) : Program Op Ans ε α) = ret a := rfl

@[simp] theorem ofExcept_error (e : ε) : (ofExcept (.error e) : Program Op Ans ε α) = raise e :=
  rfl

@[simp] def await (op : Op) : Program Op Ans ε (Ans op) := call op ofExcept

instance : Monad (Program Op Ans ε) where
  pure := ret
  bind := bind

instance : MonadExceptOf ε (Program Op Ans ε) where
  throw := raise
  tryCatch := handle

@[simp] theorem pure_def (a : α) : (pure a : Program Op Ans ε α) = ret a := rfl

@[simp] theorem bind_def (p : Program Op Ans ε α) (f : α → Program Op Ans ε β) :
    p >>= f = p.bind f := rfl

@[simp] theorem throw_def (e : ε) : (throw e : Program Op Ans ε α) = raise e := rfl

@[simp] theorem tryCatch_def (p : Program Op Ans ε α) (handler : ε → Program Op Ans ε α) :
    tryCatch p handler = p.handle handler := rfl

/-- The program with the error that it ends with as a value. -/
def attempt (p : Program Op Ans ε α) : Program Op Ans ε (Except ε α) :=
  (p.bind fun a => ret (.ok a)).handle fun e => ret (.error e)

/-- Every operation is replaced by a program that answers it. -/
def interp {Op' : Type} {Ans' : Op' → Type} (f : (op : Op) → Program Op' Ans' ε (Ans op)) :
    Program Op Ans ε α → Program Op' Ans' ε α
  | ret a => ret a
  | raise e => raise e
  | call op next => (f op).attempt.bind fun r => (next r).interp f

theorem bind_assoc {γ : Type} (p : Program Op Ans ε α) (f : α → Program Op Ans ε β)
    (g : β → Program Op Ans ε γ) : (p.bind f).bind g = p.bind fun a => (f a).bind g := by
  induction p with
  | ret a => rfl
  | raise e => rfl
  | call op next ih => exact congrArg (call op) (funext fun r => ih r)

/-- A program attempted does not fail, so a handler is passed on. -/
theorem handle_attempt_bind (p : Program Op Ans ε α) (f : Except ε α → Program Op Ans ε β)
    (handler : ε → Program Op Ans ε β) :
    (p.attempt.bind f).handle handler = p.attempt.bind fun r => (f r).handle handler := by
  induction p with
  | ret a => rfl
  | raise e => rfl
  | call op next ih => exact congrArg (call op) (funext fun r => ih r)

theorem attempt_bind_ofExcept (p : Program Op Ans ε α) : p.attempt.bind ofExcept = p := by
  induction p with
  | ret a => rfl
  | raise e => rfl
  | call op next ih => exact congrArg (call op) (funext fun r => ih r)

section Interp

variable {Op' : Type} {Ans' : Op' → Type} {f : (op : Op) → Program Op' Ans' ε (Ans op)}

theorem interp_bind (p : Program Op Ans ε α) (g : α → Program Op Ans ε β) :
    (p.bind g).interp f = (p.interp f).bind fun a => (g a).interp f := by
  induction p with
  | ret a => rfl
  | raise e => rfl
  | call op next ih =>
      simp only [Program.bind, interp, bind_assoc]
      exact congrArg (f op).attempt.bind (funext ih)

theorem interp_handle (p : Program Op Ans ε α) (handler : ε → Program Op Ans ε α) :
    (p.handle handler).interp f = (p.interp f).handle fun e => (handler e).interp f := by
  induction p with
  | ret a => rfl
  | raise e => rfl
  | call op next ih =>
      simp only [Program.handle, interp, handle_attempt_bind]
      exact congrArg (f op).attempt.bind (funext ih)

@[simp] theorem interp_ofExcept (r : Except ε α) :
    (ofExcept r : Program Op Ans ε α).interp f = ofExcept r := by
  cases r <;> rfl

theorem interp_await (op : Op) : (await op : Program Op Ans ε (Ans op)).interp f = f op := by
  simp only [await, interp, interp_ofExcept]
  exact attempt_bind_ofExcept (f op)

end Interp

/-! ## Running under a handler -/

/-- Answer the operations one after the other, the `n`-th of them with the
choice `choices n`. -/
def run (exec : Choice → (op : Op) → S → Except ε (Ans op) × S) :
    Program Op Ans ε α → (ℕ → Choice) → S → Except ε α × S
  | ret a, _, s => (.ok a, s)
  | raise e, _, s => (.error e, s)
  | call op next, choices, s =>
      let answered := exec (choices 0) op s
      (next answered.1).run exec (fun n => choices (n + 1)) answered.2

theorem run_bind_ret (exec : Choice → (op : Op) → S → Except ε (Ans op) × S)
    (p : Program Op Ans ε α)
    (f : α → β) (choices : ℕ → Choice) (s : S) :
    ((p.bind fun a => ret (f a)).run exec choices s).2 = (p.run exec choices s).2 := by
  induction p generalizing choices s with
  | ret a => rfl
  | raise e => rfl
  | call op next ih => exact ih _ _ _

theorem run_await_bind (exec : Choice → (op : Op) → S → Except ε (Ans op) × S) (op : Op)
    (f : Ans op → Program Op Ans ε β) (choices : ℕ → Choice) (s : S) :
    ((await op).bind f).run exec choices s =
      match (exec (choices 0) op s).1 with
      | .error e => (.error e, (exec (choices 0) op s).2)
      | .ok a => (f a).run exec (fun n => choices (n + 1)) (exec (choices 0) op s).2 := by
  simp only [await, bind, run]
  cases (exec (choices 0) op s).1 <;> rfl

theorem run_await (exec : Choice → (op : Op) → S → Except ε (Ans op) × S) (op : Op)
    (choices : ℕ → Choice)
    (s : S) : (await op).run exec choices s = exec (choices 0) op s := by
  simp only [await, run]
  cases h : (exec (choices 0) op s).1 <;> exact Prod.ext h.symm rfl

/-! ### One choice for every operation -/

section Steady

variable (exec : Choice → (op : Op) → S → Except ε (Ans op) × S) (c : Choice)

def runSteady (p : Program Op Ans ε α) (s : S) : Except ε α × S := p.run exec (fun _ => c) s

@[simp] theorem runSteady_ret (a : α) (s : S) :
    (ret a : Program Op Ans ε α).runSteady exec c s = (.ok a, s) := rfl

@[simp] theorem runSteady_raise (e : ε) (s : S) :
    (raise e : Program Op Ans ε α).runSteady exec c s = (.error e, s) := rfl

@[simp] theorem runSteady_ofExcept (r : Except ε α) (s : S) :
    (ofExcept r : Program Op Ans ε α).runSteady exec c s = (r, s) := by
  cases r <;> rfl

@[simp] theorem runSteady_call (op : Op) (next : Except ε (Ans op) → Program Op Ans ε α) (s : S) :
    (call op next).runSteady exec c s =
      (next (exec c op s).1).runSteady exec c (exec c op s).2 := rfl

@[simp] theorem runSteady_bind (p : Program Op Ans ε α) (f : α → Program Op Ans ε β) (s : S) :
    (p.bind f).runSteady exec c s =
      match p.runSteady exec c s with
      | (.ok a, s') => (f a).runSteady exec c s'
      | (.error e, s') => (.error e, s') := by
  induction p generalizing s with
  | ret a => rfl
  | raise e => rfl
  | call op next ih => exact ih _ _

@[simp] theorem runSteady_handle (p : Program Op Ans ε α) (handler : ε → Program Op Ans ε α)
    (s : S) :
    (p.handle handler).runSteady exec c s =
      match p.runSteady exec c s with
      | (.ok a, s') => (.ok a, s')
      | (.error e, s') => (handler e).runSteady exec c s' := by
  induction p generalizing s with
  | ret a => rfl
  | raise e => rfl
  | call op next ih => exact ih _ _

end Steady

/-! ## What a program obeys -/

section Obeys

variable (step : (op : Op) → S → Except ε (Ans op) → S → Prop)
  (before : S → Op → Prop) (after : S → Except ε α → Prop)

/-- Started in a state, the program awaits only operations that `before`
admits in the state they are awaited in, whatever answers `step` allows, and
ends only as `after` admits. -/
def Obeys : Program Op Ans ε α → S → Prop
  | ret a, s => after s (.ok a)
  | raise e, s => after s (.error e)
  | call op next, s => before s op ∧ ∀ r s', step op s r s' → (next r).Obeys s'

@[simp] theorem obeys_ret (a : α) (s : S) :
    (ret a : Program Op Ans ε α).Obeys step before after s ↔ after s (.ok a) := Iff.rfl

@[simp] theorem obeys_raise (e : ε) (s : S) :
    (raise e : Program Op Ans ε α).Obeys step before after s ↔ after s (.error e) := Iff.rfl

@[simp] theorem obeys_call (op : Op) (next : Except ε (Ans op) → Program Op Ans ε α) (s : S) :
    (call op next).Obeys step before after s ↔
      before s op ∧ ∀ r s', step op s r s' → (next r).Obeys step before after s' := Iff.rfl

@[simp] theorem obeys_ofExcept (r : Except ε α) (s : S) :
    (ofExcept r : Program Op Ans ε α).Obeys step before after s ↔ after s r := by
  cases r <;> rfl

/-- How a program in sequence ends: the second part obeys the rest, and an
error of the first part ends the whole. -/
@[simp] def Andthen (f : α → Program Op Ans ε β) (after : S → Except ε β → Prop)
    (s : S) : Except ε α → Prop
  | .ok a => (f a).Obeys step before after s
  | .error e => after s (.error e)

@[simp] theorem obeys_bind (p : Program Op Ans ε α) (f : α → Program Op Ans ε β)
    (after : S → Except ε β → Prop) (s : S) :
    (p.bind f).Obeys step before after s ↔
      p.Obeys step before (Andthen step before f after) s := by
  induction p generalizing s with
  | ret a => rfl
  | raise e => rfl
  | call op next ih =>
      simp only [bind, obeys_call]
      exact and_congr_right fun _ =>
        forall_congr' fun r => forall_congr' fun s' => imp_congr_right fun _ => ih r s'

/-- How a guarded program ends: a value ends the whole, an error goes on with
the handler. -/
@[simp] def Orelse (handler : ε → Program Op Ans ε α) (s : S) : Except ε α → Prop
  | .ok a => after s (.ok a)
  | .error e => (handler e).Obeys step before after s

@[simp] theorem obeys_handle (p : Program Op Ans ε α) (handler : ε → Program Op Ans ε α)
    (s : S) :
    (p.handle handler).Obeys step before after s ↔
      p.Obeys step before (Orelse step before after handler) s := by
  induction p generalizing s with
  | ret a => rfl
  | raise e => rfl
  | call op next ih =>
      simp only [handle, obeys_call]
      exact and_congr_right fun _ =>
        forall_congr' fun r => forall_congr' fun s' => imp_congr_right fun _ => ih r s'

variable {step before after}

theorem Obeys.mono {before' : S → Op → Prop} {after' : S → Except ε α → Prop}
    {p : Program Op Ans ε α} {s : S} (h : p.Obeys step before after s)
    (hbefore : ∀ s op, before s op → before' s op)
    (hafter : ∀ s r, after s r → after' s r) : p.Obeys step before' after' s := by
  induction p generalizing s with
  | ret a => exact hafter s _ h
  | raise e => exact hafter s _ h
  | call op next ih =>
      exact ⟨hbefore s op h.1, fun r s' hstep => ih r (h.2 r s' hstep)⟩

/-- The first part ends the whole with an error, or hands a value on. -/
@[simp] def Handson (mid : S → α → Prop) (after : S → Except ε β → Prop) (s : S) :
    Except ε α → Prop
  | .ok a => mid s a
  | .error e => after s (.error e)

/-- The rule for a sequence: the second part is looked at once, from the
assertion that the first one establishes. -/
theorem Obeys.bind {after : S → Except ε β → Prop} (mid : S → α → Prop)
    {p : Program Op Ans ε α} {f : α → Program Op Ans ε β} {s : S}
    (hp : p.Obeys step before (Handson mid after) s)
    (hf : ∀ s a, mid s a → (f a).Obeys step before after s) :
    (p.bind f).Obeys step before after s := by
  refine (obeys_bind step before p f after s).mpr (hp.mono (fun _ _ h => h) ?_)
  rintro s (e | a) h
  · exact h
  · exact hf s a h

/-- The guarded part ends with a value as the whole does, or it fails. -/
@[simp] def Orfail (failed : S → ε → Prop) (after : S → Except ε α → Prop) (s : S) :
    Except ε α → Prop
  | .ok a => after s (.ok a)
  | .error e => failed s e

/-- The rule for a guarded part: the handler is looked at once, from the
assertion that every failure establishes. -/
theorem Obeys.handle (failed : S → ε → Prop) {p : Program Op Ans ε α}
    {handler : ε → Program Op Ans ε α} {s : S}
    (hp : p.Obeys step before (Orfail failed after) s)
    (hhandler : ∀ s e, failed s e → (handler e).Obeys step before after s) :
    (p.handle handler).Obeys step before after s := by
  refine (obeys_handle step before after p handler s).mpr (hp.mono (fun _ _ h => h) ?_)
  rintro s (e | a) h
  · exact hhandler s e h
  · exact h

theorem Obeys.ended {r : Except ε α} {s : S}
    (h : (ofExcept r : Program Op Ans ε α).Obeys step before after s) : after s r :=
  (obeys_ofExcept step before after r s).mp h

/-- What no step undoes still holds at the end. -/
theorem obeys_of_stable {Inv : S → Prop} (p : Program Op Ans ε α)
    (hstep : ∀ op s r s', step op s r s' → Inv s → Inv s') {s : S} (hs : Inv s) :
    p.Obeys step (fun _ _ => True) (fun s' _ => Inv s') s := by
  induction p generalizing s with
  | ret a => exact hs
  | raise e => exact hs
  | call op next ih => exact ⟨trivial, fun r s' h => ih r (hstep op s r s' h hs)⟩

theorem Obeys.run {exec : Choice → (op : Op) → S → Except ε (Ans op) × S}
    {p : Program Op Ans ε α} {s : S} {choices : ℕ → Choice}
    (h : p.Obeys step before after s)
    (hexec : ∀ n op s, step op s (exec (choices n) op s).1 (exec (choices n) op s).2) :
    after (p.run exec choices s).2 (p.run exec choices s).1 := by
  induction p generalizing s choices with
  | ret a => exact h
  | raise e => exact h
  | call op next ih =>
      exact ih _ (h.2 _ _ (hexec 0 op s)) fun n => hexec (n + 1)

end Obeys

/-! ## What a program awaits -/

section Awaits

variable {P : Op → Prop}

/-- The program awaits operations of `P` only, whatever it is answered. -/
def Awaits (P : Op → Prop) : Program Op Ans ε α → Prop
  | ret _ => True
  | raise _ => True
  | call op next => P op ∧ ∀ r, (next r).Awaits P

@[simp] theorem awaits_ret (a : α) : (ret a : Program Op Ans ε α).Awaits P := trivial

@[simp] theorem awaits_raise (e : ε) : (raise e : Program Op Ans ε α).Awaits P := trivial

@[simp] theorem awaits_ofExcept (r : Except ε α) :
    (ofExcept r : Program Op Ans ε α).Awaits P := by
  cases r <;> exact trivial

theorem awaits_await {op : Op} (h : P op) : (await op : Program Op Ans ε (Ans op)).Awaits P :=
  ⟨h, awaits_ofExcept⟩

theorem Awaits.mono {Q : Op → Prop} {p : Program Op Ans ε α} (hp : p.Awaits P)
    (h : ∀ op, P op → Q op) : p.Awaits Q := by
  induction p with
  | ret a => exact trivial
  | raise e => exact trivial
  | call op next ih => exact ⟨h op hp.1, fun r => ih r (hp.2 r)⟩

theorem Awaits.bind {p : Program Op Ans ε α} {f : α → Program Op Ans ε β} (hp : p.Awaits P)
    (hf : ∀ a, (f a).Awaits P) : (p.bind f).Awaits P := by
  induction p with
  | ret a => exact hf a
  | raise e => exact trivial
  | call op next ih => exact ⟨hp.1, fun r => ih r (hp.2 r)⟩

theorem Awaits.handle {p : Program Op Ans ε α} {handler : ε → Program Op Ans ε α}
    (hp : p.Awaits P) (hhandler : ∀ e, (handler e).Awaits P) : (p.handle handler).Awaits P := by
  induction p with
  | ret a => exact trivial
  | raise e => exact hhandler e
  | call op next ih => exact ⟨hp.1, fun r => ih r (hp.2 r)⟩

theorem Awaits.forM {f : β → Program Op Ans ε PUnit} (hf : ∀ b, (f b).Awaits P) (bs : List β) :
    (bs.forM f).Awaits P := by
  induction bs with
  | nil => exact trivial
  | cons b bs ih => exact (hf b).bind fun _ => ih

theorem Awaits.attempt {p : Program Op Ans ε α} (hp : p.Awaits P) : p.attempt.Awaits P :=
  Awaits.handle (Awaits.bind hp fun _ => awaits_ret _) fun _ => awaits_ret _

/-- Only the programs that stand for the operations await anything. -/
theorem awaits_interp {Op' : Type} {Ans' : Op' → Type} {P : Op' → Prop}
    {f : (op : Op) → Program Op' Ans' ε (Ans op)} (hf : ∀ op, (f op).Awaits P)
    (p : Program Op Ans ε α) :
    (p.interp f).Awaits P := by
  induction p with
  | ret a => exact trivial
  | raise e => exact trivial
  | call op next ih => exact (hf op).attempt.bind ih

/-- What no operation of `P` undoes holds after every run. -/
theorem Awaits.run {exec : Choice → (op : Op) → S → Except ε (Ans op) × S}
    {p : Program Op Ans ε α} (hp : p.Awaits P) (Inv : S → Prop)
    (hexec : ∀ c op s, P op → Inv s → Inv (exec c op s).2) {s : S} (hs : Inv s)
    (choices : ℕ → Choice) : Inv (p.run exec choices s).2 := by
  induction p generalizing s choices with
  | ret a => exact hs
  | raise e => exact hs
  | call op next ih => exact ih _ (hp.2 _) (hexec _ op s hp.1 hs) _

/-- The same for every way the operations may act. -/
theorem Awaits.stable {step : (op : Op) → S → Except ε (Ans op) → S → Prop} {Inv : S → Prop}
    {p : Program Op Ans ε α} (hp : p.Awaits P)
    (hstep : ∀ op s r s', P op → step op s r s' → Inv s → Inv s') {s : S} (hs : Inv s) :
    p.Obeys step (fun _ _ => True) (fun s' _ => Inv s') s := by
  induction p generalizing s with
  | ret a => exact hs
  | raise e => exact hs
  | call op next ih => exact ⟨trivial, fun r s' h => ih r (hp.2 r) (hstep op s r s' hp.1 h hs)⟩

theorem Awaits.run_congr {exec : Choice → (op : Op) → S → Except ε (Ans op) × S}
    {p : Program Op Ans ε α} (hp : p.Awaits P) {choices choices' : ℕ → Choice}
    (hexec : ∀ n op s, P op → exec (choices n) op s = exec (choices' n) op s) (s : S) :
    p.run exec choices s = p.run exec choices' s := by
  induction p generalizing s choices choices' with
  | ret a => rfl
  | raise e => rfl
  | call op next ih =>
      simp only [Program.run, hexec 0 op s hp.1]
      exact ih _ (hp.2 _) (fun n => hexec (n + 1)) _

end Awaits

end Program

end Async

import Mathlib.Data.List.Nodup
import SocialMonitor.Async.Program
import SocialMonitor.Runs

/-!
# Interleaved calls over one store

A pool is a store together with the calls made so far.  Each call keeps its own
history, newest entry first, and what is left of its program.  An event starts
a call, lets one call await its next operation, or changes the store from
outside.  Any call may be the next one at every event, so the runs of a system
include every interleaving of its calls.
-/

namespace Async

/-- One awaited operation with its answer. -/
structure Entry (Op : Type) (Ans : Op → Type) (ε : Type) where
  op : Op
  answer : Except ε (Ans op)

structure Call (Label Op : Type) (Ans : Op → Type) (ε α : Type) where
  label : Label
  history : List (Entry Op Ans ε)
  rest : Program Op Ans ε α

structure Pool (Label S Op : Type) (Ans : Op → Type) (ε α : Type) where
  store : S
  calls : List (Call Label Op Ans ε α)

inductive Event (Label Choice Env : Type) where
  | spawn (label : Label)
  | perform (index : ℕ) (choice : Choice)
  | env (change : Env)

/-- What a call runs, how its operations act on the store, and what else may
happen to the store. -/
structure System (Label S Choice Env Op : Type) (Ans : Op → Type) (ε α : Type) where
  start : Label → Program Op Ans ε α
  exec : Choice → (op : Op) → S → Except ε (Ans op) × S
  env : Env → S → S

variable {Label S Choice Env Op : Type} {Ans : Op → Type} {ε α β : Type}

namespace Call

def outcome? (c : Call Label Op Ans ε α) : Option (Except ε α) :=
  match c.rest with
  | .ret a => some (.ok a)
  | .raise e => some (.error e)
  | .call _ _ => none

def Running (c : Call Label Op Ans ε α) : Prop := c.outcome? = none

def Returned (c : Call Label Op Ans ε α) (a : α) : Prop := c.outcome? = some (.ok a)

def Raised (c : Call Label Op Ans ε α) (e : ε) : Prop := c.outcome? = some (.error e)

instance (c : Call Label Op Ans ε α) : Decidable c.Running :=
  inferInstanceAs (Decidable (c.outcome? = none))

def awaited? (c : Call Label Op Ans ε α) : Option Op :=
  match c.rest with
  | .call op _ => some op
  | _ => none

theorem running_of_rest {c : Call Label Op Ans ε α} {op : Op}
    {next : Except ε (Ans op) → Program Op Ans ε α} (h : c.rest = .call op next) :
    c.Running := by
  simp [Running, outcome?, h]

theorem outcome?_eq_some {c : Call Label Op Ans ε α} {r : Except ε α} :
    c.outcome? = some r ↔ c.rest = .ofExcept r := by
  cases hrest : c.rest <;> cases r <;> simp [outcome?, hrest, Program.ofExcept]

end Call

namespace Pool

def Quiescent (P : Pool Label S Op Ans ε α) : Prop := ∀ c ∈ P.calls, ¬ c.Running

instance (P : Pool Label S Op Ans ε α) : Decidable P.Quiescent :=
  inferInstanceAs (Decidable (∀ c ∈ P.calls, ¬ c.Running))

def awaited? (P : Pool Label S Op Ans ε α) (index : ℕ) : Option Op :=
  P.calls[index]?.bind Call.awaited?

theorem awaited?_eq {P : Pool Label S Op Ans ε α} {index : ℕ} {call : Call Label Op Ans ε α}
    {op : Op} {next : Except ε (Ans op) → Program Op Ans ε α}
    (hget : P.calls[index]? = some call) (hrest : call.rest = .call op next) :
    P.awaited? index = some op := by
  simp [awaited?, hget, Call.awaited?, hrest]

theorem exists_of_awaited? {P : Pool Label S Op Ans ε α} {index : ℕ} {op : Op}
    (h : P.awaited? index = some op) :
    ∃ call next, P.calls[index]? = some call ∧ call.rest = .call op next := by
  obtain ⟨call, hget, hawaited⟩ := Option.bind_eq_some_iff.mp h
  unfold Call.awaited? at hawaited
  split at hawaited
  · rename_i op' next hrest
    obtain rfl := Option.some_inj.mp hawaited
    exact ⟨call, next, hget, hrest⟩
  · exact absurd hawaited (by simp)

/-- What the entries of all histories contribute. -/
def collect (g : Entry Op Ans ε → List β) (P : Pool Label S Op Ans ε α) : List β :=
  P.calls.flatMap fun c => c.history.flatMap g

theorem mem_collect {g : Entry Op Ans ε → List β} {P : Pool Label S Op Ans ε α} {b : β} :
    b ∈ P.collect g ↔ ∃ c ∈ P.calls, ∃ e ∈ c.history, b ∈ g e := by
  simp [collect]

end Pool

namespace System

variable (sys : System Label S Choice Env Op Ans ε α)

def spawned (label : Label) : Call Label Op Ans ε α := ⟨label, [], sys.start label⟩

/-- The pool after the call at `index` awaited `op` and resumed with `next`. -/
def resumed (P : Pool Label S Op Ans ε α) (index : ℕ) (choice : Choice)
    (call : Call Label Op Ans ε α) (op : Op)
    (next : Except ε (Ans op) → Program Op Ans ε α) : Pool Label S Op Ans ε α :=
  let answered := sys.exec choice op P.store
  ⟨answered.2, P.calls.set index
    ⟨call.label, ⟨op, answered.1⟩ :: call.history, next answered.1⟩⟩

/-- One event.  An event that names no running call changes nothing. -/
def step (P : Pool Label S Op Ans ε α) : Event Label Choice Env → Pool Label S Op Ans ε α
  | .spawn label => ⟨P.store, P.calls ++ [sys.spawned label]⟩
  | .perform index choice =>
      match P.calls[index]? with
      | none => P
      | some call =>
          match call.rest with
          | .call op next => sys.resumed P index choice call op next
          | .ret _ => P
          | .raise _ => P
  | .env change => ⟨sys.env change P.store, P.calls⟩

theorem step_perform (P : Pool Label S Op Ans ε α) (index : ℕ) (choice : Choice) :
    sys.step P (.perform index choice) = P ∨
      ∃ call op next, P.calls[index]? = some call ∧ call.rest = .call op next ∧
        sys.step P (.perform index choice) = sys.resumed P index choice call op next := by
  cases hget : P.calls[index]? with
  | none => exact Or.inl (by simp [step, hget])
  | some call =>
      cases hrest : call.rest with
      | ret a => exact Or.inl (by simp [step, hget, hrest])
      | raise e => exact Or.inl (by simp [step, hget, hrest])
      | call op next =>
          exact Or.inr ⟨call, op, next, rfl, hrest, by simp [step, hget, hrest]⟩

theorem step_of_awaited {P : Pool Label S Op Ans ε α} {index : ℕ} {op : Op}
    (h : P.awaited? index = some op) (choice : Choice) :
    ∃ call next, P.calls[index]? = some call ∧ call.rest = .call op next ∧
      sys.step P (.perform index choice) = sys.resumed P index choice call op next := by
  obtain ⟨call, next, hget, hrest⟩ := Pool.exists_of_awaited? h
  exact ⟨call, next, hget, hrest, by simp [step, hget, hrest]⟩

theorem step_of_not_awaited {P : Pool Label S Op Ans ε α} {index : ℕ} (h : P.awaited? index = none)
    (choice : Choice) : sys.step P (.perform index choice) = P := by
  rcases sys.step_perform P index choice with hsame | ⟨call, op, next, hget, hrest, -⟩
  · exact hsame
  · rw [Pool.awaited?_eq hget hrest] at h
    cases h

theorem mem_resumed {P : Pool Label S Op Ans ε α} {index : ℕ} {choice : Choice}
    {call c : Call Label Op Ans ε α} {op : Op}
    {next : Except ε (Ans op) → Program Op Ans ε α}
    (h : c ∈ (sys.resumed P index choice call op next).calls) :
    c ∈ P.calls ∨
      c = ⟨call.label, ⟨op, (sys.exec choice op P.store).1⟩ :: call.history,
        next (sys.exec choice op P.store).1⟩ :=
  List.mem_or_eq_of_mem_set h

theorem getElem?_resumed {P : Pool Label S Op Ans ε α} {index : ℕ} (choice : Choice)
    {call : Call Label Op Ans ε α} {op : Op} (next : Except ε (Ans op) → Program Op Ans ε α)
    (hget : P.calls[index]? = some call) :
    (sys.resumed P index choice call op next).calls[index]? =
      some ⟨call.label, ⟨op, (sys.exec choice op P.store).1⟩ :: call.history,
        next (sys.exec choice op P.store).1⟩ :=
  List.getElem?_set_self (List.getElem?_eq_some_iff.mp hget).1

theorem flatMap_set_perm {γ : Type} (f : γ → List β) {l : List γ} {i : ℕ} {a a' : γ} {x : List β}
    (hget : l[i]? = some a) (ha : f a' = x ++ f a) :
    ((l.set i a').flatMap f).Perm (x ++ l.flatMap f) := by
  induction l generalizing i with
  | nil => simp at hget
  | cons b l ih =>
      cases i with
      | zero =>
          obtain rfl : b = a := by simpa using hget
          simp [ha]
      | succ i =>
          have hrest := ih (i := i) (by simpa using hget)
          simp only [List.set_cons_succ, List.flatMap_cons]
          refine (hrest.append_left (f b)).trans ?_
          rw [← List.append_assoc, ← List.append_assoc]
          exact List.perm_append_comm.append_right _

theorem collect_resumed (g : Entry Op Ans ε → List β) {P : Pool Label S Op Ans ε α}
    {index : ℕ} {choice : Choice} {call : Call Label Op Ans ε α} {op : Op}
    {next : Except ε (Ans op) → Program Op Ans ε α} (hget : P.calls[index]? = some call) :
    ((sys.resumed P index choice call op next).collect g).Perm
      (g ⟨op, (sys.exec choice op P.store).1⟩ ++ P.collect g) :=
  flatMap_set_perm (fun c : Call Label Op Ans ε α => c.history.flatMap g) hget (by simp)

@[simp] theorem collect_spawn (g : Entry Op Ans ε → List β) (P : Pool Label S Op Ans ε α)
    (label : Label) : (sys.step P (.spawn label)).collect g = P.collect g := by
  simp [step, Pool.collect, spawned]

@[simp] theorem collect_env (g : Entry Op Ans ε → List β) (P : Pool Label S Op Ans ε α)
    (change : Env) : (sys.step P (.env change)).collect g = P.collect g := rfl

/-! ## Runs -/

/-- The pools reached from `P₀` by events that `allowed` admits where they
happen. -/
abbrev Run (allowed : Pool Label S Op Ans ε α → Event Label Choice Env → Prop)
    (P₀ : Pool Label S Op Ans ε α) : Pool Label S Op Ans ε α → Prop :=
  Machine.Run sys.step allowed P₀

def runList (P : Pool Label S Op Ans ε α) (es : List (Event Label Choice Env)) :
    Pool Label S Op Ans ε α := es.foldl sys.step P

variable {sys}
variable {allowed : Pool Label S Op Ans ε α → Event Label Choice Env → Prop}
  {P₀ P : Pool Label S Op Ans ε α}

/-- An invariant is proved for the three kinds of events. -/
theorem Run.invariant (hrun : sys.Run allowed P₀ P) (Inv : Pool Label S Op Ans ε α → Prop)
    (hinit : Inv P₀)
    (hspawn : ∀ P label, sys.Run allowed P₀ P → Inv P → allowed P (.spawn label) →
      Inv (sys.step P (.spawn label)))
    (hperform : ∀ P index choice call op next, sys.Run allowed P₀ P → Inv P →
      allowed P (.perform index choice) → P.calls[index]? = some call →
      call.rest = .call op next → Inv (sys.resumed P index choice call op next))
    (henv : ∀ P change, sys.Run allowed P₀ P → Inv P → allowed P (.env change) →
      Inv (sys.step P (.env change))) : Inv P := by
  refine Machine.Run.invariant hrun Inv hinit fun P e hrun ih he => ?_
  cases e with
  | spawn label => exact hspawn P label hrun ih he
  | env change => exact henv P change hrun ih he
  | perform index choice =>
      rcases sys.step_perform P index choice with hsame | ⟨call, op, next, hget, hrest, hstep⟩
      · rw [hsame]
        exact ih
      · rw [hstep]
        exact hperform P index choice call op next hrun ih he hget hrest

end System

/-! ## Histories -/

section Histories

variable (possible : (op : Op) → Except ε (Ans op) → Prop)
  (before : List (Entry Op Ans ε) → Op → Prop)

/-- The program obeys `before` and `after` when the state is its own history. -/
abbrev Program.Conforms (after : List (Entry Op Ans ε) → Except ε α → Prop)
    (p : Program Op Ans ε α) (h : List (Entry Op Ans ε)) : Prop :=
  p.Obeys (fun op h r h' => possible op r ∧ h' = ⟨op, r⟩ :: h) before after h

/-- An awaited operation is answered by an error or by a value. -/
theorem Program.conforms_call (op : Op) (next : Except ε (Ans op) → Program Op Ans ε α)
    (after : List (Entry Op Ans ε) → Except ε α → Prop) (h : List (Entry Op Ans ε)) :
    (Program.call op next).Conforms possible before after h ↔ before h op ∧
      (∀ e, possible op (.error e) →
        (next (.error e)).Conforms possible before after (⟨op, .error e⟩ :: h)) ∧
      ∀ a, possible op (.ok a) →
        (next (.ok a)).Conforms possible before after (⟨op, .ok a⟩ :: h) := by
  rw [Program.Conforms, Program.obeys_call]
  simp only [and_imp, forall_eq_apply_imp_iff]
  refine and_congr_right fun _ => ⟨fun h => ⟨fun e => h _, fun a => h _⟩, ?_⟩
  rintro ⟨herror, hok⟩ (e | a)
  · exact herror e
  · exact hok a

/-- The histories a conforming program can have. -/
inductive Lawful : List (Entry Op Ans ε) → Prop where
  | nil : Lawful []
  | cons {h : List (Entry Op Ans ε)} {op : Op} {r : Except ε (Ans op)} :
      Lawful h → before h op → possible op r → Lawful (⟨op, r⟩ :: h)

variable {possible}

/-- In every run the calls have lawful histories, and what is left of each
conforms from there. -/
theorem System.Run.conforms {sys : System Label S Choice Env Op Ans ε α}
    {allowed : Pool Label S Op Ans ε α → Event Label Choice Env → Prop}
    {P₀ P : Pool Label S Op Ans ε α} (hrun : sys.Run allowed P₀ P) (hinit : P₀.calls = [])
    (before : Label → List (Entry Op Ans ε) → Op → Prop)
    {after : Label → List (Entry Op Ans ε) → Except ε α → Prop}
    (hstart : ∀ l, (sys.start l).Conforms possible (before l) (after l) [])
    (hpossible : ∀ P index choice call op next, allowed P (.perform index choice) →
      P.calls[index]? = some call → call.rest = .call op next →
      possible op (sys.exec choice op P.store).1) :
    ∀ c ∈ P.calls, Lawful possible (before c.label) c.history ∧
      c.rest.Conforms possible (before c.label) (after c.label) c.history := by
  refine hrun.invariant (fun P => ∀ c ∈ P.calls,
    Lawful possible (before c.label) c.history ∧
      c.rest.Conforms possible (before c.label) (after c.label) c.history) ?_ ?_ ?_ ?_
  · simp [hinit]
  · intro P label _ ih _ c hc
    rcases List.mem_append.mp hc with hc | hc
    · exact ih c hc
    · obtain rfl := List.mem_singleton.mp hc
      exact ⟨.nil, hstart label⟩
  · intro P index choice call op next _ ih hallowed hget hrest c hc
    rcases sys.mem_resumed hc with hc | rfl
    · exact ih c hc
    · obtain ⟨hlawful, hconforms⟩ := ih call (List.mem_of_getElem? hget)
      rw [hrest] at hconforms
      have hp := hpossible P index choice call op next hallowed hget hrest
      exact ⟨hlawful.cons hconforms.1 hp, hconforms.2 _ _ ⟨hp, rfl⟩⟩
  · intro P change _ ih _
    exact ih

end Histories

end Async

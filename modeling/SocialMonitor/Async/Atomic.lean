import Mathlib.Data.List.Forall2
import SocialMonitor.Async.Within

/-!
# Calls that take effect at one moment

A program refines another one over the same store if every operation that it
awaits either leaves the store as it is or does to it what the next operation
of the other one does.  What the program has learned on the way must be such
that no step of another call undoes it.  Calls that refine those of another
system do so beside one another, in whatever order they take their steps.
-/

namespace Async

variable {Label S Choice Env Op Op' : Type} {Ans : Op → Type} {Ans' : Op' → Type}
  {ε α β γ δ : Type}

/-- Both end with a value, or both with an error. -/
inductive Ends (values : α → β → Prop) (faults : ε → ε → Prop) :
    Except ε α → Except ε β → Prop where
  | ok {a : α} {b : β} (h : values a b) : Ends values faults (.ok a) (.ok b)
  | error {e e' : ε} (h : faults e e') : Ends values faults (.error e) (.error e')

/-- What no step from one state to a later one undoes. -/
def Stable (later : S → S → Prop) (K : S → Prop) : Prop := ∀ s s', later s s' → K s → K s'

namespace Program

section Definitions

variable (exec : Choice → (op : Op) → S → Except ε (Ans op) × S)
  (exec' : Choice → (op : Op') → S → Except ε (Ans' op) × S) (later : S → S → Prop)
  (ends : Except ε α → Except ε β → Prop)

/-- Wherever `K` holds, the program goes on as the other one does.  An operation
that the other one has no part in leaves the store as it is. -/
def Refines : Program Op Ans ε α → (S → Prop) → Program Op' Ans' ε β → Prop
  | ret a, _, q => ∃ r, q = ofExcept r ∧ ends (.ok a) r
  | raise e, _, q => ∃ r, q = ofExcept r ∧ ends (.error e) r
  | call op next, K, q => ∀ c s, K s → ∃ K', Stable later K' ∧ K' (exec c op s).2 ∧
      ((exec c op s).2 = s ∧ (next (exec c op s).1).Refines K' q ∨
        ∃ op' next', q = call op' next' ∧ (exec' c op' s).2 = (exec c op s).2 ∧
          (next (exec c op s).1).Refines K' (next' (exec' c op' s).1))

end Definitions

variable {exec : Choice → (op : Op) → S → Except ε (Ans op) × S}
  {exec' : Choice → (op : Op') → S → Except ε (Ans' op) × S} {later : S → S → Prop}
  {ends : Except ε α → Except ε β → Prop} {values : α → β → Prop} {faults : ε → ε → Prop}
  {K : S → Prop}

/-- Two programs that await the same operation and go on alike. -/
theorem refines_step {op : Op} {op' : Op'} {next : Except ε (Ans op) → Program Op Ans ε α}
    {next' : Except ε (Ans' op') → Program Op' Ans' ε β}
    (h : ∀ c s, K s → (exec' c op' s).2 = (exec c op s).2 ∧
      (next (exec c op s).1).Refines exec exec' later ends (fun _ => True)
        (next' (exec' c op' s).1)) :
    (call op next).Refines exec exec' later ends K (call op' next') := by
  intro c s hs
  obtain ⟨hstore, hnext⟩ := h c s hs
  exact ⟨fun _ => True, fun _ _ _ _ => trivial, trivial, Or.inr ⟨op', next', rfl, hstore, hnext⟩⟩

/-- A program that looks something up either fails as the operation does that
it stands for, or keeps in mind what it has found. -/
theorem refines_look {op : Op} {op' : Op'} {next : Except ε (Ans op) → Program Op Ans ε α}
    {next' : Except ε (Ans' op') → Program Op' Ans' ε β}
    (hraise : ∀ e, next' (.error e) = raise e)
    (h : ∀ c s, K s → (exec c op s).2 = s ∧
      ((∃ e e', next (exec c op s).1 = raise e ∧ exec' c op' s = (.error e', s) ∧
          ends (.error e) (.error e')) ∨
        ∃ K', Stable later K' ∧ K' s ∧
          (next (exec c op s).1).Refines exec exec' later ends K' (call op' next'))) :
    (call op next).Refines exec exec' later ends K (call op' next') := by
  intro c s hs
  obtain ⟨hstore, ⟨e, e', hnext, hatomic, hends⟩ | ⟨K', hstable, hK', hnext⟩⟩ := h c s hs
  · refine ⟨fun _ => True, fun _ _ _ _ => trivial, trivial, Or.inr ⟨op', next', rfl, ?_, ?_⟩⟩
    · rw [hatomic, hstore]
    · rw [hnext, hatomic, hraise e']
      exact ⟨.error e', rfl, hends⟩
  · exact ⟨K', hstable, by rwa [hstore], Or.inl ⟨hstore, hnext⟩⟩

/-- A program refines itself where its operations act as they did. -/
theorem refines_within (inj : Op → Op') (out : (op : Op) → Ans' (inj op) → Ans op)
    {ends : Except ε α → Except ε α → Prop} (hends : ∀ r, ends r r)
    (hexec : ∀ c op s, (exec' c (inj op) s).1.map (out op) = (exec c op s).1 ∧
      (exec' c (inj op) s).2 = (exec c op s).2) (p : Program Op Ans ε α) :
    p.Refines exec exec' later ends K (p.within inj out) := by
  induction p generalizing K with
  | ret a => exact ⟨.ok a, rfl, hends _⟩
  | raise e => exact ⟨.error e, rfl, hends _⟩
  | call op next ih =>
      refine refines_step fun c s _ => ⟨(hexec c op s).2, ?_⟩
      rw [(hexec c op s).1]
      exact ih _

end Program

/-! ## Events that are followed -/

section Follows

variable {E : Type}

/-- What is taken of the events grows with them, event by event. -/
structure Follows (follow : List E → List E) : Prop where
  nil : follow [] = []
  snoc : ∀ es e, follow (es ++ [e]) = follow es ∨ follow (es ++ [e]) = follow es ++ [e]

open Classical in
/-- Newest first, every event is left out where what has been taken still fits. -/
noncomputable def thin (fits : List E → List E → Prop) : List E → List E
  | [] => []
  | e :: es => if fits (e :: es) (thin fits es) then thin fits es else e :: thin fits es

theorem fits_thin {fits : List E → List E → Prop} (hnil : fits [] [])
    (hcons : ∀ e es es', fits es es' → fits (e :: es) es' ∨ fits (e :: es) (e :: es'))
    (es : List E) : fits es (thin fits es) := by
  induction es with
  | nil => exact hnil
  | cons e es ih =>
      unfold thin
      split_ifs with hleft
      · exact hleft
      · exact (hcons e es _ ih).resolve_left hleft

theorem exists_follows (fits : List E → List E → Prop) (hnil : fits [] [])
    (hsnoc : ∀ es es' e, fits es es' → fits (es ++ [e]) es' ∨ fits (es ++ [e]) (es' ++ [e])) :
    ∃ follow, Follows follow ∧ ∀ es, fits es (follow es) := by
  let fits' (es es' : List E) : Prop := fits es.reverse es'.reverse
  have hthin : ∀ es, fits' es (thin fits' es) := by
    refine fits_thin hnil fun e es es' h => ?_
    simpa only [fits', List.reverse_cons] using hsnoc es.reverse es'.reverse e h
  refine ⟨fun es => (thin fits' es.reverse).reverse, ⟨rfl, fun es e => ?_⟩, fun es => ?_⟩
  · simp only [List.reverse_append, List.reverse_singleton, List.singleton_append, thin]
    split_ifs
    · exact Or.inl rfl
    · exact Or.inr List.reverse_cons
  · simpa only [fits', List.reverse_reverse] using hthin es.reverse

end Follows

/-! ## The calls of two systems -/

section Systems

variable (sys : System Label S Choice Env Op Ans ε α)
  (sys' : System Label S Choice Env Op' Ans' ε β)
  (later : S → S → Prop) (ends : Except ε α → Except ε β → Prop)

/-- What is left of a call refines what is left of the other one. -/
structure Call.Refines (s : S) (c : Call Label Op Ans ε α) (c' : Call Label Op' Ans' ε β) :
    Prop where
  label : c'.label = c.label
  rest : ∃ K, Stable later K ∧ K s ∧ c.rest.Refines sys.exec sys'.exec later ends K c'.rest

structure Pool.Refines (P : Pool Label S Op Ans ε α) (Q : Pool Label S Op' Ans' ε β) : Prop where
  store : Q.store = P.store
  calls : List.Forall₂ (Call.Refines sys sys' later ends P.store) P.calls Q.calls

variable {sys sys' later ends}

theorem Call.Refines.after {s s' : S} {c : Call Label Op Ans ε α} {c' : Call Label Op' Ans' ε β}
    (h : c.Refines sys sys' later ends s c') (hlater : later s s') :
    c.Refines sys sys' later ends s' c' := by
  obtain ⟨K, hstable, hK, hrest⟩ := h.rest
  exact ⟨h.label, K, hstable, hstable s s' hlater hK, hrest⟩

theorem Call.Refines.outcome {s : S} {c : Call Label Op Ans ε α} {c' : Call Label Op' Ans' ε β}
    (h : c.Refines sys sys' later ends s c') {r : Except ε α} (hr : c.outcome? = some r) :
    ∃ r', c'.outcome? = some r' ∧ ends r r' := by
  obtain ⟨K, -, -, hrest⟩ := h.rest
  rw [Call.outcome?_eq_some] at hr
  rw [hr] at hrest
  have hended : ∃ r', c'.rest = .ofExcept r' ∧ ends r r' := by
    cases r <;> exact hrest
  obtain ⟨r', hrest', hends⟩ := hended
  exact ⟨r', Call.outcome?_eq_some.mpr hrest', hends⟩

theorem forall₂_set {R : γ → δ → Prop} {l : List γ} {l' : List δ} (h : List.Forall₂ R l l')
    {i : ℕ} {a : γ} {b : δ} (hab : R a b) : List.Forall₂ R (l.set i a) (l'.set i b) := by
  induction h generalizing i with
  | nil => exact .nil
  | cons hhead htail ih =>
      cases i with
      | zero => exact .cons hab htail
      | succ i => exact .cons hhead ih

theorem forall₂_getElem? {R : γ → δ → Prop} {l : List γ} {l' : List δ} (h : List.Forall₂ R l l')
    {i : ℕ} {a : γ} (ha : l[i]? = some a) : ∃ b, l'[i]? = some b ∧ R a b := by
  induction h generalizing i with
  | nil => simp at ha
  | cons hhead htail ih =>
      cases i with
      | zero => exact ⟨_, rfl, Option.some.inj ha ▸ hhead⟩
      | succ i => exact ih ha

/-- Every call starts as its counterpart does, where `K` holds, and what an event
does makes the state a later one. -/
structure System.Refines (sys : System Label S Choice Env Op Ans ε α)
    (sys' : System Label S Choice Env Op' Ans' ε β) (later : S → S → Prop)
    (ends : Except ε α → Except ε β → Prop) (K : S → Prop) : Prop where
  stable : Stable later K
  start : ∀ label,
    (sys.start label).Refines sys.exec sys'.exec later ends K (sys'.start label)
  exec : ∀ s choice op, later s (sys.exec choice op s).2
  env : ∀ s change, later s (sys.env change s) ∧ sys'.env change s = sys.env change s

variable {K : S → Prop} {P : Pool Label S Op Ans ε α} {Q : Pool Label S Op' Ans' ε β}

theorem System.Refines.step_later (hsys : sys.Refines sys' later ends K) (hP : K P.store)
    (event : Event Label Choice Env) : K (sys.step P event).store := by
  cases event with
  | spawn label => exact hP
  | env change => exact hsys.stable _ _ (hsys.env P.store change).1 hP
  | perform index choice =>
      rcases sys.step_perform P index choice with hsame | ⟨call, op, next, -, -, hstep⟩
      · rwa [hsame]
      · rw [hstep]
        exact hsys.stable _ _ (hsys.exec P.store choice op) hP

/-- The other system takes part in an event or leaves it out. -/
theorem System.Refines.step (hsys : sys.Refines sys' later ends K) (hP : K P.store)
    (h : P.Refines sys sys' later ends Q) (event : Event Label Choice Env) :
    (sys.step P event).Refines sys sys' later ends Q ∨
      (sys.step P event).Refines sys sys' later ends (sys'.step Q event) := by
  cases event with
  | spawn label =>
      refine Or.inr ⟨h.store, List.rel_append h.calls (.cons ⟨rfl, K, ?_⟩ .nil)⟩
      exact ⟨hsys.stable, hP, hsys.start label⟩
  | env change =>
      obtain ⟨hlater, hsame⟩ := hsys.env P.store change
      refine Or.inr ⟨?_, h.calls.imp fun c c' hc => hc.after hlater⟩
      rw [System.step, System.step, h.store]
      exact hsame
  | perform index choice =>
      rcases sys.step_perform P index choice with hsame | ⟨call, op, next, hget, hrest, hstep⟩
      · rw [hsame]
        exact Or.inl h
      rw [hstep]
      obtain ⟨call', hget', hcall⟩ := forall₂_getElem? h.calls hget
      obtain ⟨K₁, -, hK₁, hrefines⟩ := hcall.rest
      rw [hrest] at hrefines
      have hothers := h.calls.imp fun c c' hc => hc.after (hsys.exec P.store choice op)
      obtain ⟨K₂, hstable, hK₂, ⟨hkept, hnext⟩ | ⟨op', next', hrest', hstore, hnext⟩⟩ :=
        hrefines choice P.store hK₁
      · obtain ⟨hlt, heq⟩ := List.getElem?_eq_some_iff.mp hget'
        have hset : Q.calls.set index call' = Q.calls := by rw [← heq, List.set_getElem_self]
        refine Or.inl ⟨h.store.trans hkept.symm, ?_⟩
        rw [← hset]
        exact forall₂_set hothers ⟨hcall.label, K₂, hstable, hK₂, hnext⟩
      · have hperform : sys'.step Q (.perform index choice) =
            sys'.resumed Q index choice call' op' next' := by
          simp [System.step, hget', hrest']
        rw [hperform, System.resumed, System.resumed, h.store]
        exact Or.inr ⟨hstore, forall₂_set hothers ⟨hcall.label, K₂, hstable, hK₂, hnext⟩⟩

theorem System.Refines.runList_later (hsys : sys.Refines sys' later ends K) (hP : K P.store)
    (es : List (Event Label Choice Env)) : K (sys.runList P es).store := by
  induction es generalizing P with
  | nil => exact hP
  | cons event es ih => exact ih (hsys.step_later hP event)

theorem System.runList_snoc (P : Pool Label S Op Ans ε α) (es : List (Event Label Choice Env))
    (event : Event Label Choice Env) :
    sys.runList P (es ++ [event]) = sys.step (sys.runList P es) event := by
  rw [System.runList, System.runList, List.foldl_append]
  rfl

/-- The other system follows at every moment. -/
theorem System.Refines.follows (hsys : sys.Refines sys' later ends K) (hP : K P.store)
    (h : P.Refines sys sys' later ends Q) :
    ∃ follow : List (Event Label Choice Env) → List (Event Label Choice Env), Follows follow ∧
      ∀ es, (sys.runList P es).Refines sys sys' later ends (sys'.runList Q (follow es)) := by
  refine exists_follows (fun es es' => (sys.runList P es).Refines sys sys' later ends
    (sys'.runList Q es')) h fun es es' event hrefines => ?_
  rw [System.runList_snoc, System.runList_snoc]
  exact hsys.step (hsys.runList_later hP es) hrefines event

end Systems

end Async

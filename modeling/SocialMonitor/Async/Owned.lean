import SocialMonitor.Async.Facts

/-!
# Calls that own a part of the store

Each call works on the part of the store that its key names.  Calls with one key
run one after the other, and calls with different keys leave each other's parts
alone, so a call does to its part what it would do if it ran alone.
-/

namespace Async

variable {Label S Choice Env Op κ V : Type} {Ans : Op → Type} {ε α β : Type}

/-! ## The calls with one key -/

section Filter

variable {p : β → Bool} {l xs : List β} {i : ℕ} {a a' : β}

theorem filter_set_other (hget : l[i]? = some a) (ha : p a = false) (ha' : p a' = false) :
    (l.set i a').filter p = l.filter p := by
  induction l generalizing i with
  | nil => rfl
  | cons d l ih =>
      cases i with
      | zero =>
          obtain rfl : d = a := by simpa using hget
          simp [ha, ha']
      | succ i => simp [List.filter_cons, ih (by simpa using hget)]

/-- The last of the elements selected is replaced. -/
theorem filter_set_last (hget : l[i]? = some a) (ha : p a = true) (ha' : p a' = true)
    (hfilter : l.filter p = xs ++ [a]) (hxs : a ∉ xs) : (l.set i a').filter p = xs ++ [a'] := by
  induction l generalizing i xs with
  | nil => simp at hget
  | cons d l ih =>
      cases i with
      | zero =>
          obtain rfl : d = a := by simpa using hget
          rw [List.filter_cons_of_pos ha] at hfilter
          cases xs with
          | nil =>
              obtain ⟨-, hrest⟩ := List.cons.inj hfilter
              simp [ha', hrest]
          | cons x xs =>
              obtain ⟨rfl, -⟩ := List.cons.inj hfilter
              exact absurd List.mem_cons_self hxs
      | succ i =>
          have hget : l[i]? = some a := by simpa using hget
          rw [List.set_cons_succ]
          by_cases hd : p d = true
          · rw [List.filter_cons_of_pos hd] at hfilter ⊢
            cases xs with
            | nil =>
                have hmem : a ∈ l.filter p :=
                  List.mem_filter.mpr ⟨List.mem_of_getElem? hget, ha⟩
                rw [(List.cons.inj hfilter).2] at hmem
                cases hmem
            | cons x xs =>
                obtain ⟨rfl, hrest⟩ := List.cons.inj hfilter
                rw [ih hget hrest fun h => hxs (List.mem_cons_of_mem _ h), List.cons_append]
          · rw [List.filter_cons_of_neg hd] at hfilter ⊢
            exact ih hget hfilter hxs

end Filter

section Keys

variable [DecidableEq κ] (key : Label → κ) (k : κ)

/-- In the order in which they have started. -/
def Pool.keyed (P : Pool Label S Op Ans ε α) : List (Call Label Op Ans ε α) :=
  P.calls.filter fun c => key c.label = k

def Pool.outcomes (P : Pool Label S Op Ans ε α) : List (Except ε α) :=
  (P.keyed key k).filterMap Call.outcome?

variable {key k}

theorem Pool.mem_keyed {P : Pool Label S Op Ans ε α} {c : Call Label Op Ans ε α} :
    c ∈ P.keyed key k ↔ c ∈ P.calls ∧ key c.label = k := by
  simp [keyed]

end Keys

/-! ## The rule -/

section Rule

variable [DecidableEq κ] (sys : System Label S Choice Env Op Ans ε α)
  (allowed : Pool Label S Op Ans ε α → Event Label Choice Env → Prop) (key : Label → κ)
  (view : κ → S → V) (step : (op : Op) → V → Except ε (Ans op) → V → Prop)
  (before : κ → V → Op → Prop) (stage : κ → List (Except ε α) → V → Prop)

/-- What each kind of event has to respect.  The part of a key is at the stage
that the outcomes of its calls have led to. -/
structure Owning : Prop where
  alone : ∀ P label, allowed P (.spawn label) → ∀ c ∈ P.keyed key (key label), ¬ c.Running
  start : ∀ P label, allowed P (.spawn label) → ∀ v,
    stage (key label) (P.outcomes key (key label)) v →
      (sys.start label).Obeys step (before (key label))
        (fun v r => stage (key label) (P.outcomes key (key label) ++ [r]) v) v
  acts : ∀ P index choice op k, allowed P (.perform index choice) →
    before k (view k P.store) op →
      step op (view k P.store) (sys.exec choice op P.store).1
        (view k (sys.exec choice op P.store).2)
  frame : ∀ P index choice op k k', allowed P (.perform index choice) →
    before k (view k P.store) op → k' ≠ k →
      view k' (sys.exec choice op P.store).2 = view k' P.store
  env : ∀ P change k, allowed P (.env change) →
    view k (sys.env change P.store) = view k P.store

/-- Where the calls with a key stand. -/
def Held (P : Pool Label S Op Ans ε α) (k : κ) : Prop :=
  P.keyed key k = [] ∧ stage k [] (view k P.store) ∨
    ∃ earlier c, P.keyed key k = earlier ++ [c] ∧ (∀ c' ∈ earlier, ¬ c'.Running) ∧
      c.rest.Obeys step (before k)
        (fun v r => stage k (earlier.filterMap Call.outcome? ++ [r]) v) (view k P.store)

variable {sys allowed key view step before stage}

theorem Held.stage_of_ended {P : Pool Label S Op Ans ε α} {k : κ}
    (h : Held key view step before stage P k) (hended : ∀ c ∈ P.keyed key k, ¬ c.Running) :
    stage k (P.outcomes key k) (view k P.store) := by
  rcases h with ⟨hkeyed, hstage⟩ | ⟨earlier, c, hkeyed, -, hobeys⟩
  · rw [Pool.outcomes, hkeyed]
    exact hstage
  · obtain ⟨r, hr⟩ := Option.ne_none_iff_exists'.mp (hended c (by simp [hkeyed]))
    rw [Call.outcome?_eq_some.mp hr] at hobeys
    rw [Pool.outcomes, hkeyed, List.filterMap_append, List.filterMap_cons_some hr]
    cases r <;> exact hobeys

theorem Held.congr {P P' : Pool Label S Op Ans ε α} {k : κ}
    (h : Held key view step before stage P k) (hkeyed : P'.keyed key k = P.keyed key k)
    (hview : view k P'.store = view k P.store) : Held key view step before stage P' k := by
  unfold Held
  rw [hkeyed, hview]
  exact h

theorem keyed_spawn {P : Pool Label S Op Ans ε α} {label : Label} {k : κ} :
    (sys.step P (.spawn label)).keyed key k =
      P.keyed key k ++ if key label = k then [sys.spawned label] else [] := by
  unfold Pool.keyed System.step
  rw [List.filter_append]
  by_cases hk : key label = k <;> simp [System.spawned, hk]

/-- A running call is the last one with its key. -/
theorem Held.awaited {P : Pool Label S Op Ans ε α} {call : Call Label Op Ans ε α} {op : Op}
    {next : Except ε (Ans op) → Program Op Ans ε α}
    (h : Held key view step before stage P (key call.label)) (hcall : call ∈ P.calls)
    (hrest : call.rest = .call op next) : ∃ earlier,
      P.keyed key (key call.label) = earlier ++ [call] ∧ (∀ c ∈ earlier, ¬ c.Running) ∧
        (Program.call op next).Obeys step (before (key call.label))
          (fun v r => stage (key call.label) (earlier.filterMap Call.outcome? ++ [r]) v)
          (view (key call.label) P.store) := by
  have hmem : call ∈ P.keyed key (key call.label) := Pool.mem_keyed.mpr ⟨hcall, rfl⟩
  rcases h with ⟨hkeyed, -⟩ | ⟨earlier, c, hkeyed, hearlier, hobeys⟩
  · rw [hkeyed] at hmem
    cases hmem
  · rw [hkeyed] at hmem
    rcases List.mem_append.mp hmem with hmem | hmem
    · exact absurd (Call.running_of_rest hrest) (hearlier call hmem)
    · obtain rfl := List.mem_singleton.mp hmem
      rw [hrest] at hobeys
      exact ⟨earlier, hkeyed, hearlier, hobeys⟩

theorem Held.resumed (howning : Owning sys allowed key view step before stage)
    {P : Pool Label S Op Ans ε α} {index : ℕ} {choice : Choice} {call : Call Label Op Ans ε α}
    {op : Op} {next : Except ε (Ans op) → Program Op Ans ε α}
    (hallowed : allowed P (.perform index choice)) (hget : P.calls[index]? = some call)
    (hrest : call.rest = .call op next) (h : ∀ k, Held key view step before stage P k) (k : κ) :
    Held key view step before stage (sys.resumed P index choice call op next) k := by
  obtain ⟨earlier, hkeyed, hearlier, hobeys⟩ :=
    (h (key call.label)).awaited (List.mem_of_getElem? hget) hrest
  by_cases hk : k = key call.label
  · subst hk
    have hset : (sys.resumed P index choice call op next).keyed key (key call.label) =
        earlier ++ [⟨call.label, ⟨op, (sys.exec choice op P.store).1⟩ :: call.history,
          next (sys.exec choice op P.store).1⟩] :=
      filter_set_last hget (by simp) (by simp) hkeyed fun hin =>
        hearlier call hin (Call.running_of_rest hrest)
    refine Or.inr ⟨earlier, _, hset, hearlier, ?_⟩
    exact hobeys.2 _ _ (howning.acts P index choice op _ hallowed hobeys.1)
  · refine (h k).congr ?_ (howning.frame P index choice op _ k hallowed hobeys.1 hk)
    exact filter_set_other hget (by simpa using Ne.symm hk) (by simpa using Ne.symm hk)

/-- In every run the part of each key is where the calls with the key, one after
the other, have brought it. -/
theorem System.Run.owned {P₀ P : Pool Label S Op Ans ε α} (hrun : sys.Run allowed P₀ P)
    (howning : Owning sys allowed key view step before stage) (hinit : P₀.calls = [])
    (hstage : ∀ k, stage k [] (view k P₀.store)) (k : κ) :
    Held key view step before stage P k := by
  revert k
  refine hrun.invariant (fun P => ∀ k, Held key view step before stage P k) ?_ ?_ ?_ ?_
  · exact fun k => Or.inl ⟨by simp [Pool.keyed, hinit], hstage k⟩
  · intro P label _ ih hallowed k
    by_cases hk : key label = k
    · subst hk
      have hended := howning.alone P label hallowed
      refine Or.inr ⟨P.keyed key (key label), sys.spawned label, ?_, hended, ?_⟩
      · rw [keyed_spawn, if_pos rfl]
      · exact howning.start P label hallowed _ ((ih _).stage_of_ended hended)
    · refine (ih k).congr ?_ rfl
      rw [keyed_spawn, if_neg hk, List.append_nil]
  · intro P index choice call op next _ ih hallowed hget hrest k
    exact Held.resumed howning hallowed hget hrest ih k
  · intro P change _ ih hallowed k
    exact (ih k).congr rfl (howning.env P change k hallowed)

/-- What the operations of the calls keep holds of the store. -/
theorem System.Run.owned_store {P₀ P : Pool Label S Op Ans ε α} (hrun : sys.Run allowed P₀ P)
    (howning : Owning sys allowed key view step before stage) (hinit : P₀.calls = [])
    (hstage : ∀ k, stage k [] (view k P₀.store)) (Inv : S → Prop) (hinv : Inv P₀.store)
    (hexec : ∀ P index choice op k, allowed P (.perform index choice) →
      before k (view k P.store) op → Inv P.store → Inv (sys.exec choice op P.store).2)
    (henv : ∀ P change, allowed P (.env change) → Inv P.store → Inv (sys.env change P.store)) :
    Inv P.store := by
  refine hrun.invariant (fun P => Inv P.store) hinv (fun P label _ h _ => h) ?_ ?_
  · intro P index choice call op next hrun ih hallowed hget hrest
    obtain ⟨-, -, -, hbefore, -⟩ := (hrun.owned howning hinit hstage (key call.label)).awaited
      (List.mem_of_getElem? hget) hrest
    exact hexec P index choice op _ hallowed hbefore ih
  · exact fun P change _ ih hallowed => henv P change hallowed ih

end Rule

end Async

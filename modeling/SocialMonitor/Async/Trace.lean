import SocialMonitor.Async.Pool

/-!
# Runs that keep a journal

A handler is extended by a list of the operations it has answered, newest
first.  The journal changes neither the answers nor the store.
-/

namespace Async

variable {S Choice Op α : Type} {Ans : Op → Type} {ε : Type}

def Entry.answered (e : Entry Op Ans ε) : Bool := e.answer.isOk

def journaled (exec : Choice → (op : Op) → S → Except ε (Ans op) × S) (c : Choice) (op : Op)
    (s : S × List (Entry Op Ans ε)) : Except ε (Ans op) × (S × List (Entry Op Ans ε)) :=
  let answered := exec c op s.1
  (answered.1, answered.2, ⟨op, answered.1⟩ :: s.2)

namespace Program

/-- The operations of a run with their answers, in order. -/
def trace (exec : Choice → (op : Op) → S → Except ε (Ans op) × S) (p : Program Op Ans ε α)
    (choices : ℕ → Choice) (s : S) : List (Entry Op Ans ε) :=
  (p.run (journaled exec) choices (s, [])).2.2.reverse

theorem run_journaled (exec : Choice → (op : Op) → S → Except ε (Ans op) × S)
    (p : Program Op Ans ε α) (choices : ℕ → Choice) (s : S) (h : List (Entry Op Ans ε)) :
    (p.run (journaled exec) choices (s, h)).1 = (p.run exec choices s).1 ∧
      (p.run (journaled exec) choices (s, h)).2.1 = (p.run exec choices s).2 := by
  induction p generalizing choices s h with
  | ret a => exact ⟨rfl, rfl⟩
  | raise e => exact ⟨rfl, rfl⟩
  | call op next ih => exact ih _ _ _ _

section Logs

variable (effect : S → (op : Op) → Except ε (Ans op) → S → Prop)

/-- How a program ends from a store and a journal. -/
abbrev Logs (after : S → List (Entry Op Ans ε) → Except ε α → Prop) (p : Program Op Ans ε α)
    (s : S) (h : List (Entry Op Ans ε)) : Prop :=
  p.Obeys (fun op (st : S × List (Entry Op Ans ε)) r st' =>
      effect st.1 op r st'.1 ∧ st'.2 = ⟨op, r⟩ :: st.2)
    (fun _ _ => True) (fun st r => after st.1 st.2 r) (s, h)

theorem logs_call (op : Op) (next : Except ε (Ans op) → Program Op Ans ε α)
    (after : S → List (Entry Op Ans ε) → Except ε α → Prop) (s : S) (h : List (Entry Op Ans ε)) :
    (call op next).Logs effect after s h ↔
      ∀ r s', effect s op r s' → (next r).Logs effect after s' (⟨op, r⟩ :: h) := by
  constructor
  · exact fun hcall r s' heffect => hcall.2 r (s', _) ⟨heffect, rfl⟩
  · refine fun hnext => ⟨trivial, ?_⟩
    rintro r ⟨s', h'⟩ ⟨heffect, rfl⟩
    exact hnext r s' heffect

theorem logs_await (op : Op) (after : S → List (Entry Op Ans ε) → Except ε (Ans op) → Prop) (s : S)
    (h : List (Entry Op Ans ε)) :
    (await op).Logs effect after s h ↔ ∀ r s', effect s op r s' → after s' (⟨op, r⟩ :: h) r := by
  rw [await, logs_call]
  exact forall_congr' fun r => forall_congr' fun s' => imp_congr_right fun _ =>
    obeys_ofExcept _ _ _ _ _

variable {effect}

/-- What holds whatever the operations do holds when they do less. -/
theorem Logs.weaken (effect' : S → (op : Op) → Except ε (Ans op) → S → Prop)
    (heffect : ∀ s op r s', effect' s op r s' → effect s op r s') {p : Program Op Ans ε α} {s : S}
    {h : List (Entry Op Ans ε)} {after : S → List (Entry Op Ans ε) → Except ε α → Prop}
    (hp : p.Logs effect after s h) : p.Logs effect' after s h := by
  induction p generalizing s h with
  | ret a => exact hp
  | raise e => exact hp
  | call op next ih =>
      refine (logs_call effect' op next after s h).mpr fun r s' hstep => ih r ?_
      exact (logs_call effect op next after s h).mp hp r s' (heffect s op r s' hstep)

/-- The first part ends the whole with an error, or hands a value on. -/
@[simp] def Leads {β : Type} (mid : S → List (Entry Op Ans ε) → α → Prop)
    (after : S → List (Entry Op Ans ε) → Except ε β → Prop) (s : S) (h : List (Entry Op Ans ε)) :
    Except ε α → Prop
  | .ok a => mid s h a
  | .error e => after s h (.error e)

/-- The second part goes on from the journal of the first. -/
theorem Logs.bind {β : Type} {p : Program Op Ans ε α} {f : α → Program Op Ans ε β} {s : S}
    {h : List (Entry Op Ans ε)} {after : S → List (Entry Op Ans ε) → Except ε β → Prop}
    (mid : S → List (Entry Op Ans ε) → α → Prop)
    (hp : p.Logs effect (Leads mid after) s h)
    (hf : ∀ s' h' a, mid s' h' a → (f a).Logs effect after s' h') :
    (p.bind f).Logs effect after s h := by
  refine Obeys.bind (fun st a => mid st.1 st.2 a) (hp.mono (fun _ _ h => h) ?_) ?_
  · rintro st (e | a) hend
    · exact hend
    · exact hend
  · exact fun st a hmid => hf st.1 st.2 a hmid

/-- The handler goes on from the journal of the part that failed. -/
theorem Logs.handle {p : Program Op Ans ε α} {handler : ε → Program Op Ans ε α} {s : S}
    {h : List (Entry Op Ans ε)} {after : S → List (Entry Op Ans ε) → Except ε α → Prop}
    (failed : S → List (Entry Op Ans ε) → ε → Prop)
    (hp : p.Logs effect (fun s' h' => Except.rec (failed s' h') fun a => after s' h' (.ok a)) s h)
    (hhandler : ∀ s' h' e, failed s' h' e → (handler e).Logs effect after s' h') :
    (p.handle handler).Logs effect after s h := by
  refine Obeys.handle (fun st e => failed st.1 st.2 e) (hp.mono (fun _ _ h => h) ?_) ?_
  · rintro st (e | a) hend
    · exact hend
    · exact hend
  · exact fun st e hfailed => hhandler st.1 st.2 e hfailed

theorem Logs.run {exec : Choice → (op : Op) → S → Except ε (Ans op) × S} {p : Program Op Ans ε α}
    {s : S} {h : List (Entry Op Ans ε)} {after : S → List (Entry Op Ans ε) → Except ε α → Prop}
    (hexec : ∀ c op s, effect s op (exec c op s).1 (exec c op s).2)
    (hp : p.Logs effect after s h) (choices : ℕ → Choice) :
    after (p.run (journaled exec) choices (s, h)).2.1 (p.run (journaled exec) choices (s, h)).2.2
      (p.run (journaled exec) choices (s, h)).1 :=
  Obeys.run hp fun n op st => ⟨hexec (choices n) op st.1, rfl⟩

theorem Logs.trace {exec : Choice → (op : Op) → S → Except ε (Ans op) × S} {p : Program Op Ans ε α}
    {s : S} {after : S → List (Entry Op Ans ε) → Except ε α → Prop}
    (hexec : ∀ c op s, effect s op (exec c op s).1 (exec c op s).2)
    (hp : p.Logs effect after s []) (choices : ℕ → Choice) :
    after (p.run exec choices s).2 (p.trace exec choices s).reverse (p.run exec choices s).1 := by
  obtain ⟨hanswer, hstore⟩ := p.run_journaled exec choices s []
  have hrun := Logs.run hexec hp choices
  rw [hanswer, hstore] at hrun
  rwa [Program.trace, List.reverse_reverse]

end Logs

end Program

/-! ## Observations -/

section Recording

variable {β : Type} (observe : S → Op → List β)
  (exec : Choice → (op : Op) → S → Except ε (Ans op) × S)

/-- What is seen of each operation in the state it is awaited in is recorded. -/
def recording (c : Choice) (op : Op) (s : S × List β) : Except ε (Ans op) × (S × List β) :=
  let answered := exec c op s.1
  (answered.1, answered.2, observe s.1 op ++ s.2)

variable {observe exec}

theorem Program.Awaits.obeys {P : Op → Prop} {step : (op : Op) → S → Except ε (Ans op) → S → Prop}
    {before : S → Op → Prop} {p : Program Op Ans ε α} (hp : p.Awaits P)
    (h : ∀ s op, P op → before s op) (s : S) :
    p.Obeys step before (fun _ _ => True) s := by
  induction p generalizing s with
  | ret a => exact trivial
  | raise e => exact trivial
  | call op next ih => exact ⟨h s op hp.1, fun r s' _ => ih r (hp.2 r) s'⟩

theorem Program.run_recording (p : Program Op Ans ε α) (choices : ℕ → Choice) (s : S)
    (seen : List β) :
    (p.run (recording observe exec) choices (s, seen)).2.1 = (p.run exec choices s).2 := by
  induction p generalizing choices s seen with
  | ret a => rfl
  | raise e => rfl
  | call op next ih => exact ih _ _ _ _

/-- Where every operation admitted shows nothing but `P` and keeps an invariant,
so does the program. -/
theorem Program.Obeys.recording {P : β → Prop} {Inv : S → Prop} {before : S → Op → Prop}
    {p : Program Op Ans ε α} {s : S}
    (hp : p.Obeys (fun op s r s' => ∃ c, exec c op s = (r, s')) before (fun _ _ => True) s)
    (hshow : ∀ s op, before s op → ∀ b ∈ observe s op, P b)
    (hkeep : ∀ c op s, before s op → Inv s → Inv (exec c op s).2) {seen : List β}
    (hseen : ∀ b ∈ seen, P b) (hs : Inv s) (choices : ℕ → Choice) :
    (∀ b ∈ (p.run (recording observe exec) choices (s, seen)).2.2, P b) ∧
      Inv (p.run (recording observe exec) choices (s, seen)).2.1 := by
  induction p generalizing s seen choices with
  | ret a => exact ⟨hseen, hs⟩
  | raise e => exact ⟨hseen, hs⟩
  | call op next ih =>
      refine ih _ (hp.2 _ _ ⟨choices 0, rfl⟩) ?_ (hkeep _ op s hp.1 hs) _
      intro b hb
      rcases List.mem_append.mp hb with hb | hb
      · exact hshow s op hp.1 b hb
      · exact hseen b hb

end Recording

end Async

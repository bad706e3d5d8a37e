import Mathlib.Data.List.Nodup
import Mathlib.Data.List.Perm.Basic
import Mathlib.Order.Basic
import Mathlib.Data.Nat.Basic
import SocialMonitor.Async.Pool

/-!
# What holds along the runs of a pool

Rules for the invariants that do not look at how far each call has come:
invariants of the store, facts about single entries of the histories that no
later step undoes, and identifiers drawn from a counter of the store.
-/

namespace Async

variable {Label S Choice Env Op : Type} {Ans : Op → Type} {ε α β : Type}
variable {sys : System Label S Choice Env Op Ans ε α}
variable {allowed : Pool Label S Op Ans ε α → Event Label Choice Env → Prop}
  {P₀ P : Pool Label S Op Ans ε α}

theorem System.Run.store {Inv : S → Prop} (hrun : sys.Run allowed P₀ P) (hinit : Inv P₀.store)
    (hexec : ∀ choice op s, Inv s → Inv (sys.exec choice op s).2)
    (henv : ∀ change s, Inv s → Inv (sys.env change s)) : Inv P.store := by
  refine hrun.invariant (fun P => Inv P.store) hinit ?_ ?_ ?_
  · intro P label _ h _
    exact h
  · intro P index choice call op next _ h _ _ _
    exact hexec choice op P.store h
  · intro P change _ h _
    exact henv change P.store h

/-- A fact about an entry and the store holds of all entries if each operation
establishes it of its own entry and no step undoes it. -/
theorem System.Run.facts {Fact : Entry Op Ans ε → S → Prop} (hrun : sys.Run allowed P₀ P)
    (hinit : P₀.calls = [])
    (hnew : ∀ P choice op, sys.Run allowed P₀ P →
      Fact ⟨op, (sys.exec choice op P.store).1⟩ (sys.exec choice op P.store).2)
    (hexec : ∀ e choice op s, Fact e s → Fact e (sys.exec choice op s).2)
    (henv : ∀ e change s, Fact e s → Fact e (sys.env change s)) :
    ∀ c ∈ P.calls, ∀ e ∈ c.history, Fact e P.store := by
  refine hrun.invariant (fun P => ∀ c ∈ P.calls, ∀ e ∈ c.history, Fact e P.store)
    ?_ ?_ ?_ ?_
  · simp [hinit]
  · intro P label _ ih _ c hc e he
    rcases List.mem_append.mp hc with hc | hc
    · exact ih c hc e he
    · obtain rfl := List.mem_singleton.mp hc
      cases he
  · intro P index choice call op next hrun ih _ hget _ c hc e he
    rcases sys.mem_resumed hc with hc | rfl
    · exact hexec e choice op _ (ih c hc e he)
    · rcases List.mem_cons.mp he with rfl | he
      · exact hnew P choice op hrun
      · exact hexec e choice op _ (ih call (List.mem_of_getElem? hget) e he)
  · intro P change _ ih _ c hc e he
    exact henv e change _ (ih c hc e he)

/-- What is left of the calls awaits only operations that their programs await. -/
theorem System.Run.awaits {Q : Op → Prop} (hrun : sys.Run allowed P₀ P) (hinit : P₀.calls = [])
    (hstart : ∀ P l, allowed P (.spawn l) → (sys.start l).Awaits Q) :
    ∀ c ∈ P.calls, c.rest.Awaits Q := by
  refine hrun.invariant (fun P => ∀ c ∈ P.calls, c.rest.Awaits Q) ?_ ?_ ?_ ?_
  · simp [hinit]
  · intro P label _ ih hspawn c hc
    rcases List.mem_append.mp hc with hc | hc
    · exact ih c hc
    · obtain rfl := List.mem_singleton.mp hc
      exact hstart P label hspawn
  · intro P index choice call op next _ ih _ hget hrest c hc
    rcases sys.mem_resumed hc with hc | rfl
    · exact ih c hc
    · have hcall := ih call (List.mem_of_getElem? hget)
      rw [hrest] at hcall
      exact hcall.2 _
  · exact fun P change _ ih _ => ih

/-- A call keeps its place, and its history only grows. -/
theorem System.Run.history (hrun : sys.Run allowed P₀ P) {index : ℕ} {c : Call Label Op Ans ε α}
    (hget : P₀.calls[index]? = some c) :
    ∃ c', P.calls[index]? = some c' ∧ c.history <:+ c'.history := by
  refine hrun.invariant (fun P => ∃ c', P.calls[index]? = some c' ∧ c.history <:+ c'.history)
    ?_ ?_ ?_ ?_
  · exact ⟨c, hget, List.suffix_rfl⟩
  · rintro P label - ⟨c', hget', hsuffix⟩ -
    refine ⟨c', ?_, hsuffix⟩
    rwa [System.step, List.getElem?_append_left (List.getElem?_eq_some_iff.mp hget').1]
  · rintro P i choice call op next - ⟨c', hget', hsuffix⟩ - hcall -
    by_cases hi : i = index
    · subst hi
      obtain rfl : call = c' := Option.some.inj (hcall.symm.trans hget')
      refine ⟨_, sys.getElem?_resumed choice next hcall, ?_⟩
      exact hsuffix.trans (List.suffix_cons _ _)
    · exact ⟨c', (List.getElem?_set_ne hi).trans hget', hsuffix⟩
  · rintro P change - h -
    exact h

/-- What the entries contribute is related to the store. -/
theorem System.Run.collected (hrun : sys.Run allowed P₀ P) (g : Entry Op Ans ε → List β)
    (Inv : List β → S → Prop) (hinit : Inv (P₀.collect g) P₀.store)
    (hperm : ∀ {l l' : List β} {s : S}, l.Perm l' → Inv l s → Inv l' s)
    (hexec : ∀ l choice op s, Inv l s →
      Inv (g ⟨op, (sys.exec choice op s).1⟩ ++ l) (sys.exec choice op s).2)
    (henv : ∀ l change s, Inv l s → Inv l (sys.env change s)) : Inv (P.collect g) P.store := by
  refine hrun.invariant (fun P => Inv (P.collect g) P.store) hinit ?_ ?_ ?_
  · intro P label _ ih _
    rw [System.collect_spawn]
    exact ih
  · intro P index choice call op next _ ih _ hget _
    exact hperm (sys.collect_resumed g hget).symm (hexec _ choice op P.store ih)
  · intro P change _ ih _
    rw [System.collect_env]
    exact henv _ change P.store ih

/-- Identifiers drawn from a counter are pairwise different. -/
theorem System.Run.collect_fresh {g : Entry Op Ans ε → List ℕ} (hrun : sys.Run allowed P₀ P)
    (next : S → ℕ) (hinit : P₀.calls = [])
    (hnew : ∀ choice op s, (g ⟨op, (sys.exec choice op s).1⟩).Nodup ∧
      ∀ n ∈ g ⟨op, (sys.exec choice op s).1⟩, next s ≤ n ∧ n < next (sys.exec choice op s).2)
    (hexec : ∀ choice op s, next s ≤ next (sys.exec choice op s).2)
    (henv : ∀ change s, next s ≤ next (sys.env change s)) :
    (P.collect g).Nodup ∧ ∀ n ∈ P.collect g, next P₀.store ≤ n ∧ n < next P.store := by
  have h := hrun.collected g (fun l s => next P₀.store ≤ next s ∧
      l.Nodup ∧ ∀ n ∈ l, next P₀.store ≤ n ∧ n < next s)
    (by simp [Pool.collect, hinit]) ?_ ?_ ?_
  · exact h.2
  · rintro l l' s hperm ⟨hle, hnodup, hlt⟩
    exact ⟨hle, hperm.nodup_iff.mp hnodup, fun n hn => hlt n (hperm.mem_iff.mpr hn)⟩
  · rintro l choice op s ⟨hle, hnodup, hlt⟩
    obtain ⟨hnew, hbounds⟩ := hnew choice op s
    have hstep := hexec choice op s
    refine ⟨hle.trans hstep, hnew.append hnodup ?_, ?_⟩
    · intro n hn hn'
      exact absurd (hlt n hn').2 (by have := (hbounds n hn).1; omega)
    · intro n hn
      rcases List.mem_append.mp hn with hn | hn
      · exact ⟨hle.trans (hbounds n hn).1, (hbounds n hn).2⟩
      · exact ⟨(hlt n hn).1, (hlt n hn).2.trans_le hstep⟩
  · rintro l change s ⟨hle, hnodup, hlt⟩
    have hstep := henv change s
    exact ⟨hle.trans hstep, hnodup, fun n hn => ⟨(hlt n hn).1, (hlt n hn).2.trans_le hstep⟩⟩

/-- What a call does with the identifiers it has drawn, each at most once, is
done at most once in the whole pool. -/
theorem Pool.collect_nodup_of_subset {f g : Entry Op Ans ε → List β}
    (h : (P.collect g).Nodup)
    (hcalls : ∀ c ∈ P.calls, (c.history.flatMap f).Nodup ∧
      c.history.flatMap f ⊆ c.history.flatMap g) : (P.collect f).Nodup := by
  obtain ⟨-, hdisjoint⟩ := List.nodup_flatMap.mp h
  refine List.nodup_flatMap.mpr ⟨fun c hc => (hcalls c hc).1, ?_⟩
  refine hdisjoint.imp_of_mem fun hc hc' hdisj => ?_
  intro b hb hb'
  exact hdisj ((hcalls _ hc).2 hb) ((hcalls _ hc').2 hb')

theorem Pool.collect_append (f g : Entry Op Ans ε → List β) (P : Pool Label S Op Ans ε α) :
    (P.collect fun e => f e ++ g e).Perm (P.collect f ++ P.collect g) := by
  refine List.Perm.trans ?_ (List.flatMap_append_perm P.calls _ _).symm
  exact List.Perm.flatMap_left P.calls fun c _ =>
    (List.flatMap_append_perm c.history f g).symm

theorem Program.Conforms.run {possible : (op : Op) → Except ε (Ans op) → Prop}
    {before : List (Entry Op Ans ε) → Op → Prop}
    {after : List (Entry Op Ans ε) → Except ε α → Prop}
    {exec : Choice → (op : Op) → S → Except ε (Ans op) × S} (Fact : Entry Op Ans ε → S → Prop)
    {p : Program Op Ans ε α} {h : List (Entry Op Ans ε)} {choices : ℕ → Choice} {s : S}
    (hp : p.Conforms possible before after h)
    (hpossible : ∀ c op s, possible op (exec c op s).1)
    (hnew : ∀ c op s, Fact ⟨op, (exec c op s).1⟩ (exec c op s).2)
    (hexec : ∀ e c op s, Fact e s → Fact e (exec c op s).2) (hh : ∀ e ∈ h, Fact e s) :
    ∃ h', after h' (p.run exec choices s).1 ∧ ∀ e ∈ h', Fact e (p.run exec choices s).2 := by
  induction p generalizing h choices s with
  | ret a => exact ⟨h, hp, hh⟩
  | raise e => exact ⟨h, hp, hh⟩
  | call op next ih =>
      refine ih _ (hp.2 _ _ ⟨hpossible (choices 0) op s, rfl⟩) fun e he => ?_
      rcases List.mem_cons.mp he with rfl | he
      · exact hnew _ op s
      · exact hexec e _ op s (hh e he)

/-! ## Lawful histories -/

section Lawful

variable {possible : (op : Op) → Except ε (Ans op) → Prop}
  {before : List (Entry Op Ans ε) → Op → Prop} {h : List (Entry Op Ans ε)}

/-- An operation that may only use what the history has drawn, and not again
what it has used, uses each of it at most once. -/
theorem Lawful.used_once {f g : Entry Op Ans ε → List β} (hh : Lawful possible before h)
    (hf : ∀ h op r, before h op → possible op r → (f ⟨op, r⟩).Nodup ∧
      ∀ b ∈ f ⟨op, r⟩, b ∈ h.flatMap g ∧ b ∉ h.flatMap f) :
    (h.flatMap f).Nodup ∧ h.flatMap f ⊆ h.flatMap g := by
  induction hh with
  | nil => simp
  | @cons h op r _ hbefore hpossible ih =>
      obtain ⟨hnodup, huse⟩ := hf h op r hbefore hpossible
      rw [List.flatMap_cons, List.flatMap_cons]
      refine ⟨hnodup.append ih.1 fun b hb hb' => (huse b hb).2 hb', fun b hb => ?_⟩
      rcases List.mem_append.mp hb with hb | hb
      · exact List.mem_append_right _ (huse b hb).1
      · exact List.mem_append_right _ (ih.2 hb)

/-- Before an entry of the history stands a history that admits it. -/
theorem Lawful.admitted (hh : Lawful possible before h) {e : Entry Op Ans ε} (he : e ∈ h) :
    ∃ h', h' <:+ h ∧ before h' e.op := by
  induction hh with
  | nil => cases he
  | @cons h op r _ hbefore _ ih =>
      rcases List.mem_cons.mp he with rfl | he
      · exact ⟨h, List.suffix_cons _ _, hbefore⟩
      · obtain ⟨h', hsuffix, hbefore'⟩ := ih he
        exact ⟨h', hsuffix.trans (List.suffix_cons _ _), hbefore'⟩

end Lawful

end Async

import SocialMonitor.Async.Facts

/-!
# What all calls together have done

A log that every operation extends, and how often something stands in the
histories of the calls.
-/

namespace Async

variable {Label S Choice Env Op : Type} {Ans : Op → Type} {ε α β γ : Type}
variable {sys : System Label S Choice Env Op Ans ε α}
variable {allowed : Pool Label S Op Ans ε α → Event Label Choice Env → Prop}
  {P₀ P : Pool Label S Op Ans ε α}

theorem Pool.collect_nil (g : Entry Op Ans ε → List β) (hinit : P₀.calls = []) :
    P₀.collect g = [] := by
  rw [Pool.collect, hinit, List.flatMap_nil]

theorem Pool.map_collect (f : β → γ) (g : Entry Op Ans ε → List β) :
    (P.collect g).map f = P.collect fun e => (g e).map f := by
  simp only [Pool.collect, List.map_flatMap]

theorem Pool.filterMap_collect (f : β → Option γ) (g : Entry Op Ans ε → List β) :
    (P.collect g).filterMap f = P.collect fun e => (g e).filterMap f := by
  simp only [Pool.collect, List.filterMap_flatMap]

/-- A log that every operation extends by what it says holds what was said. -/
theorem System.Run.log (hrun : sys.Run allowed P₀ P) (said : Entry Op Ans ε → List β)
    (log : S → List β) (hinit : P₀.calls = []) (hempty : log P₀.store = [])
    (hexec : ∀ choice op s,
      log (sys.exec choice op s).2 = log s ++ said ⟨op, (sys.exec choice op s).1⟩)
    (henv : ∀ change s, log (sys.env change s) = log s) :
    (log P.store).Perm (P.collect said) := by
  refine hrun.collected said (fun l s => (log s).Perm l) ?_ ?_ ?_ ?_
  · rw [hempty, Pool.collect_nil said hinit]
  · exact fun hperm h => h.trans hperm
  · intro l choice op s h
    rw [hexec]
    exact (h.append_right _).trans List.perm_append_comm
  · intro l change s h
    rw [henv]
    exact h

/-- A fact about histories that the own operations of a call extend, and no
other operation undoes. -/
theorem System.Run.histories (hrun : sys.Run allowed P₀ P)
    (Fact : List (Entry Op Ans ε) → S → Prop) (hinit : P₀.calls = []) (hnil : ∀ s, Fact [] s)
    (hown : ∀ P h choice op, sys.Run allowed P₀ P → Fact h P.store →
      Fact (⟨op, (sys.exec choice op P.store).1⟩ :: h) (sys.exec choice op P.store).2)
    (hexec : ∀ P h choice op, sys.Run allowed P₀ P → Fact h P.store →
      Fact h (sys.exec choice op P.store).2)
    (henv : ∀ h change s, Fact h s → Fact h (sys.env change s)) :
    ∀ c ∈ P.calls, Fact c.history P.store := by
  refine hrun.invariant (fun P => ∀ c ∈ P.calls, Fact c.history P.store) ?_ ?_ ?_ ?_
  · simp [hinit]
  · intro P label _ ih _ c hc
    rcases List.mem_append.mp hc with hc | hc
    · exact ih c hc
    · obtain rfl := List.mem_singleton.mp hc
      exact hnil _
  · intro P index choice call op next hrun ih _ hget _ c hc
    rcases sys.mem_resumed hc with hc | rfl
    · exact hexec P c.history choice op hrun (ih c hc)
    · exact hown P call.history choice op hrun (ih call (List.mem_of_getElem? hget))
  · exact fun P change _ ih _ c hc => henv c.history change P.store (ih c hc)

section Count

variable [DecidableEq β] {f g : Entry Op Ans ε → List β} {b : β}

/-- What no call does more often than something else. -/
theorem Pool.count_collect_le (h : ∀ c ∈ P.calls,
    (c.history.flatMap f).count b ≤ (c.history.flatMap g).count b) :
    (P.collect f).count b ≤ (P.collect g).count b := by
  obtain ⟨store, calls⟩ := P
  unfold Pool.collect
  dsimp only at h ⊢
  induction calls with
  | nil => exact le_rfl
  | cons c calls ih =>
      rw [List.flatMap_cons, List.flatMap_cons, List.count_append, List.count_append]
      obtain ⟨hc, hcalls⟩ := List.forall_mem_cons.mp h
      exact Nat.add_le_add hc (ih hcalls)

/-- Each of the selected calls has done it. -/
theorem Pool.countP_le_count_collect (p : Call Label Op Ans ε α → Bool)
    (h : ∀ c ∈ P.calls, p c = true → b ∈ c.history.flatMap g) :
    P.calls.countP p ≤ (P.collect g).count b := by
  obtain ⟨store, calls⟩ := P
  unfold Pool.collect
  dsimp only at h ⊢
  induction calls with
  | nil => exact le_rfl
  | cons c calls ih =>
      obtain ⟨hc, hcalls⟩ := List.forall_mem_cons.mp h
      rw [List.flatMap_cons, List.count_append, List.countP_cons]
      have hrest := ih hcalls
      split_ifs with hp
      · have hone := List.one_le_count_iff.mpr (hc hp)
        omega
      · omega

end Count

end Async

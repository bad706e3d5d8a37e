import SocialMonitor.Async.Pool

/-!
# Calls that run to their end

A call that is let go on comes to its end, whatever its operations answer.
-/

namespace Async

variable {Label S Choice Env Op : Type} {Ans : Op → Type} {ε α : Type}
variable {sys : System Label S Choice Env Op Ans ε α}
variable {allowed : Pool Label S Op Ans ε α → Event Label Choice Env → Prop}
  {P : Pool Label S Op Ans ε α}

theorem set_self {β : Type} {l : List β} {i : ℕ} {a : β} (h : l[i]? = some a) : l.set i a = l := by
  obtain ⟨hlt, rfl⟩ := List.getElem?_eq_some_iff.mp h
  exact List.set_getElem_self hlt

/-- One call goes on to its end, and the others stay where they are. -/
theorem System.exists_ended (h : ∀ P index, ∃ choice, allowed P (.perform index choice))
    {index : ℕ} {call : Call Label Op Ans ε α} (hget : P.calls[index]? = some call) :
    ∃ P' call', sys.Run allowed P P' ∧ P'.calls = P.calls.set index call' ∧
      call'.label = call.label ∧ ¬ call'.Running := by
  obtain ⟨label, history, rest⟩ := call
  induction rest generalizing P history with
  | ret a =>
      exact ⟨P, _, .refl, (set_self hget).symm, rfl, by simp [Call.Running, Call.outcome?]⟩
  | raise e =>
      exact ⟨P, _, .refl, (set_self hget).symm, rfl, by simp [Call.Running, Call.outcome?]⟩
  | call op next ih =>
      obtain ⟨choice, hallowed⟩ := h P index
      obtain ⟨P', call', hrun, hcalls, hlabel, hended⟩ :=
        ih _ _ (sys.getElem?_resumed choice next hget)
      have hstep : sys.step P (.perform index choice) =
          sys.resumed P index choice ⟨label, history, .call op next⟩ op next := by
        simp [System.step, hget]
      have hfirst : sys.Run allowed P (sys.step P (.perform index choice)) :=
        Machine.Run.refl.step hallowed
      rw [hstep] at hfirst
      refine ⟨P', call', hfirst.trans hrun, ?_, hlabel, hended⟩
      rw [hcalls, System.resumed, List.set_set]

/-- From every pool all calls can be ended. -/
theorem System.exists_quiescent (h : ∀ P index, ∃ choice, allowed P (.perform index choice))
    (P : Pool Label S Op Ans ε α) : ∃ P', sys.Run allowed P P' ∧ P'.Quiescent ∧
      P'.calls.map Call.label = P.calls.map Call.label := by
  have hprefix : ∀ n, ∃ P', sys.Run allowed P P' ∧
      P'.calls.map Call.label = P.calls.map Call.label ∧
      ∀ (i : ℕ) (c : Call Label Op Ans ε α), i < n → P'.calls[i]? = some c → ¬ c.Running := by
    intro n
    induction n with
    | zero => exact ⟨P, .refl, rfl, fun i c hi => absurd hi (Nat.not_lt_zero i)⟩
    | succ n ih =>
        obtain ⟨P', hrun, hlabels, hended⟩ := ih
        cases hget : P'.calls[n]? with
        | none =>
            refine ⟨P', hrun, hlabels, fun i c hi hc => ?_⟩
            rcases Nat.lt_succ_iff_lt_or_eq.mp hi with hi | rfl
            · exact hended i c hi hc
            · rw [hget] at hc
              cases hc
        | some call =>
            obtain ⟨P'', call', hrest, hcalls, hlabel, hend⟩ := System.exists_ended h hget
            refine ⟨P'', hrun.trans hrest, ?_, fun i c hi hc => ?_⟩
            · rw [hcalls, List.map_set, hlabel, ← hlabels]
              exact set_self (by rw [List.getElem?_map, hget]; rfl)
            · rw [hcalls] at hc
              rcases Nat.lt_succ_iff_lt_or_eq.mp hi with hi | rfl
              · rw [List.getElem?_set_ne (Nat.ne_of_gt hi)] at hc
                exact hended i c hi hc
              · rw [List.getElem?_set_self (List.getElem?_eq_some_iff.mp hget).1] at hc
                exact Option.some.inj hc ▸ hend
  obtain ⟨P', hrun, hlabels, hended⟩ := hprefix P.calls.length
  refine ⟨P', hrun, fun c hc => ?_, hlabels⟩
  obtain ⟨i, hi, rfl⟩ := List.getElem_of_mem hc
  have hlength : P'.calls.length = P.calls.length := by
    simpa using congrArg List.length hlabels
  exact hended i _ (hlength ▸ hi) (List.getElem?_eq_getElem hi)

end Async

import SocialMonitor.Async.Facts

/-!
# Calls that start later

What a pool guarantees from some moment on: an invariant of the store holds
from there, and the calls that start after it see only stores where it holds.
-/

namespace Async

variable {Label S Choice Env Op : Type} {Ans : Op → Type} {ε α : Type}
variable {sys : System Label S Choice Env Op Ans ε α}
variable {allowed : Pool Label S Op Ans ε α → Event Label Choice Env → Prop}
  {P₀ P : Pool Label S Op Ans ε α}

/-- The calls that were not there yet. -/
def Pool.since (P P₀ : Pool Label S Op Ans ε α) : List (Call Label Op Ans ε α) :=
  P.calls.drop P₀.calls.length

theorem mem_drop_set {β : Type} {l : List β} {i n : ℕ} {a b : β}
    (h : b ∈ (l.set i a).drop n) : b ∈ l.drop n ∨ b = a ∧ n ≤ i := by
  rw [List.drop_set] at h
  split_ifs at h with hlt
  · exact Or.inl h
  · rcases List.mem_or_eq_of_mem_set h with h | rfl
    · exact Or.inl h
    · exact Or.inr ⟨rfl, not_lt.mp hlt⟩

theorem System.Run.length_calls (hrun : sys.Run allowed P₀ P) :
    P₀.calls.length ≤ P.calls.length := by
  refine hrun.invariant (fun P => P₀.calls.length ≤ P.calls.length) le_rfl ?_ ?_ ?_
  · intro P label _ h _
    exact h.trans (by simp [System.step])
  · intro P index choice call op next _ h _ _ _
    simpa [System.resumed] using h
  · exact fun P change _ h _ => h

/-- Every answer that a later call gets comes from a store where the invariant
holds. -/
theorem System.Run.later (hrun : sys.Run allowed P₀ P) (Inv : S → Prop)
    (Fact : Entry Op Ans ε → Prop) (hinit : Inv P₀.store)
    (hexec : ∀ choice op s, Inv s → Inv (sys.exec choice op s).2)
    (hnew : ∀ choice op s, Inv s → Fact ⟨op, (sys.exec choice op s).1⟩)
    (henv : ∀ change s, Inv s → Inv (sys.env change s)) :
    Inv P.store ∧ ∀ c ∈ P.since P₀, ∀ e ∈ c.history, Fact e := by
  refine ⟨hrun.store hinit hexec henv, ?_⟩
  refine hrun.invariant (fun P => ∀ c ∈ P.since P₀, ∀ e ∈ c.history, Fact e) ?_ ?_ ?_ ?_
  · intro c hc
    rw [Pool.since, List.drop_length] at hc
    cases hc
  · intro P label hrun ih _ c hc e he
    rw [Pool.since, System.step, List.drop_append_of_le_length hrun.length_calls] at hc
    rcases List.mem_append.mp hc with hc | hc
    · exact ih c hc e he
    · obtain rfl := List.mem_singleton.mp hc
      cases he
  · intro P index choice call op next hrun ih _ hget _ c hc e he
    rcases mem_drop_set hc with hc | ⟨rfl, hle⟩
    · exact ih c hc e he
    · rcases List.mem_cons.mp he with rfl | he
      · exact hnew choice op P.store (hrun.store hinit hexec henv)
      · refine ih call ?_ e he
        obtain ⟨hlt, hcall⟩ := List.getElem?_eq_some_iff.mp hget
        exact List.mem_drop_iff_getElem.mpr ⟨index - P₀.calls.length, by omega, by
          simp only [Nat.add_sub_cancel' hle, hcall]⟩
  · exact fun P change _ ih _ => ih

end Async

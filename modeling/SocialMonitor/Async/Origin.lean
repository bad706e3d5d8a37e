import SocialMonitor.Async.Facts
import SocialMonitor.Async.Within

/-!
# Where the contents of a store come from

The store of a pool changes only by the operations of its calls.  What it holds
was therefore put there by a call, and so was whatever a call has been shown.
-/

namespace Async

variable {Label S Choice Env Op : Type} {Ans : Op → Type} {ε α β : Type}

/-- `view` is what the store holds; an operation adds to it only what its entry
has `put`, and its answer has `shown` only what was there. -/
structure Sourcing (sys : System Label S Choice Env Op Ans ε α) (view : S → List β)
    (put shown : Entry Op Ans ε → List β) : Prop where
  kept : ∀ choice op s,
    view (sys.exec choice op s).2 ⊆ put ⟨op, (sys.exec choice op s).1⟩ ++ view s
  shown : ∀ choice op s, shown ⟨op, (sys.exec choice op s).1⟩ ⊆ view s
  env : ∀ change s, view (sys.env change s) ⊆ view s

section Runs

variable {sys : System Label S Choice Env Op Ans ε α} {view : S → List β}
  {put shown : Entry Op Ans ε → List β}
  {allowed : Pool Label S Op Ans ε α → Event Label Choice Env → Prop}
  {P₀ P : Pool Label S Op Ans ε α}

/-- What the store holds was put there. -/
theorem Sourcing.stored (hsource : Sourcing sys view put shown) (hrun : sys.Run allowed P₀ P)
    (hinit : view P₀.store = []) : view P.store ⊆ P.collect put := by
  refine hrun.collected put (fun l s => view s ⊆ l) ?_ ?_ ?_ ?_
  · rw [hinit]
    exact List.nil_subset _
  · exact fun hperm h b hb => hperm.subset (h hb)
  · intro l choice op s h b hb
    rcases List.mem_append.mp (hsource.kept choice op s hb) with hb | hb
    · exact List.mem_append_left _ hb
    · exact List.mem_append_right _ (h hb)
  · exact fun l change s h b hb => h (hsource.env change s hb)

/-- What the calls have been shown was put there before. -/
theorem Sourcing.seen (hsource : Sourcing sys view put shown) (hrun : sys.Run allowed P₀ P)
    (hinit : view P₀.store = []) (hcalls : P₀.calls = []) : P.collect shown ⊆ P.collect put := by
  refine hrun.invariant (fun P => P.collect shown ⊆ P.collect put) ?_ ?_ ?_ ?_
  · simp [Pool.collect, hcalls]
  · intro P label _ ih _
    rw [System.collect_spawn, System.collect_spawn]
    exact ih
  · intro P index choice call op next hrun ih _ hget _ b hb
    refine (sys.collect_resumed put hget).mem_iff.mpr (List.mem_append_right _ ?_)
    rcases List.mem_append.mp ((sys.collect_resumed shown hget).mem_iff.mp hb) with hb | hb
    · exact hsource.stored hrun hinit (hsource.shown choice op P.store hb)
    · exact ih hb
  · exact fun P change _ ih _ => ih

end Runs

namespace Program

/-- What a program awaits is admitted everywhere if it is by its kind. -/
theorem Obeys.awaits {step : (op : Op) → S → Except ε (Ans op) → S → Prop}
    {before : S → Op → Prop} {after : S → Except ε α → Prop} {Q : Op → Prop}
    {p : Program Op Ans ε α} {s : S} (h : p.Obeys step before after s) (hp : p.Awaits Q) :
    p.Obeys step (fun s op => before s op ∧ Q op) after s := by
  induction p generalizing s with
  | ret a => exact h
  | raise e => exact h
  | call op next ih => exact ⟨⟨h.1, hp.1⟩, fun r s' hs => ih r (h.2 r s' hs) (hp.2 r)⟩

end Program

end Async

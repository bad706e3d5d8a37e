import SocialMonitor.Schema

/-!
# The notification queues

`NotificationQueueService.enqueueTask`, and what the queue does with a job: it
runs it again after each throw, as often as the options of the job allow.
-/

namespace SocialMonitor.Queue

def queueName : NotificationChannelType → String
  | .telegram => "notification-telegram"
  | .wechat => "notification-wechat"
  | .qq => "notification-qq"

def jobAttempts : ℕ := 5

def jobOf (taskId : Id) (type : NotificationChannelType) : Job :=
  ⟨queueName type, taskId, jobAttempts⟩

def enqueueTask (c : Choice) (taskId : Id) (type : NotificationChannelType) (s : Store) :
    Except ApiError Unit × Store :=
  match c.queueFault with
  | some error => (.error error, s)
  | none => (.ok (), { s with jobs := s.jobs ++ [jobOf taskId type] })

section Retry

variable {S ε α : Type} (attempt : ℕ → S → Except ε α × S)

/-- Run number `n` and, after a throw, the `left` runs that may follow it. -/
def runJob : (left n : ℕ) → S → S
  | 0, _, s => s
  | left + 1, n, s =>
      match attempt n s with
      | (.ok _, s') => s'
      | (.error _, s') => runJob left (n + 1) s'

variable {attempt} {Waiting Finished : ℕ → S → Prop} {out : ℕ → Except ε α}

theorem runJob_of_ok {left n : ℕ} {s : S} {a : α} (h : (attempt n s).1 = .ok a) :
    runJob attempt (left + 1) n s = (attempt n s).2 := by
  cases hrun : attempt n s with
  | mk r s' =>
      obtain rfl : r = .ok a := by rw [← h, hrun]
      simp [runJob, hrun]

theorem runJob_of_error {left n : ℕ} {s : S} {e : ε} (h : (attempt n s).1 = .error e) :
    runJob attempt (left + 1) n s = runJob attempt left (n + 1) (attempt n s).2 := by
  cases hrun : attempt n s with
  | mk r s' =>
      obtain rfl : r = .error e := by rw [← h, hrun]
      simp [runJob, hrun]

def Fails (out : ℕ → Except ε α) (n : ℕ) : Prop := ∃ e, out n = .error e

def Succeeds (out : ℕ → Except ε α) (n : ℕ) : Prop := ∃ a, out n = .ok a

/-- A run that ends as `out` says takes the job from `Waiting` to `Finished` if
it returns, and back to `Waiting` if it throws. -/
structure Retries (attempt : ℕ → S → Except ε α × S) (Waiting Finished : ℕ → S → Prop)
    (out : ℕ → Except ε α) : Prop where
  outcome : ∀ n s, Waiting n s → (attempt n s).1 = out n
  returns : ∀ n s, Waiting n s → Succeeds out n → Finished n (attempt n s).2
  throws : ∀ n s, Waiting n s → Fails out n → Waiting (n + 1) (attempt n s).2

/-- The job ends with its first run that returns, or has used up its runs. -/
theorem Retries.runJob (h : Retries attempt Waiting Finished out) (left : ℕ) {n : ℕ}
    {s : S} (hs : Waiting n s) :
    (∃ k < left, (∀ i < k, Fails out (n + i)) ∧ Succeeds out (n + k) ∧
      Finished (n + k) (runJob attempt left n s)) ∨
    ((∀ i < left, Fails out (n + i)) ∧ Waiting (n + left) (runJob attempt left n s)) := by
  induction left generalizing n s with
  | zero => exact Or.inr ⟨by simp, hs⟩
  | succ left ih =>
      have hout := h.outcome n s hs
      cases hn : out n with
      | ok a =>
          rw [runJob_of_ok (hout.trans hn)]
          exact Or.inl ⟨0, by omega, by simp, ⟨a, hn⟩, h.returns n s hs ⟨a, hn⟩⟩
      | error e =>
          have hfails : ∀ k, (∀ i < k, Fails out (n + 1 + i)) → ∀ i < k + 1, Fails out (n + i) := by
            rintro k hk (_ | i) hi
            · exact ⟨e, hn⟩
            · simpa only [add_assoc, add_comm 1] using hk i (by omega)
          rw [runJob_of_error (hout.trans hn)]
          rcases ih (h.throws n s hs ⟨e, hn⟩) with ⟨k, hk, hbefore, hend⟩ | ⟨hall, hwait⟩
          · refine Or.inl ⟨k + 1, by omega, hfails k hbefore, ?_⟩
            simpa only [add_assoc, add_comm 1] using hend
          · refine Or.inr ⟨hfails left hall, ?_⟩
            simpa only [add_assoc, add_comm 1] using hwait

end Retry

end SocialMonitor.Queue

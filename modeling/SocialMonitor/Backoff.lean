import Mathlib.Data.List.Basic
import Mathlib.Order.Lattice
import Mathlib.Tactic
import SocialMonitor.Runs

/-!
# Exponential back-off

One timer, armed again and again with a delay that grows with the number of
attempts.  An attempt is counted when the timer is armed for it; a success
starts the count anew, and once stopped nothing is armed.  The timers of a run
are told from the field that holds the timer, not from the count.
-/

namespace Backoff

/-- `base * 2 ^ k`, up to a cap. -/
def delay (base cap k : ℕ) : ℕ := min (base * 2 ^ k) cap

theorem delay_mono (base cap : ℕ) : Monotone (delay base cap) := by
  intro j k hjk
  apply min_le_min_right
  exact Nat.mul_le_mul_left _ (Nat.pow_le_pow_right two_pos hjk)

theorem le_delay {base cap : ℕ} (h : base ≤ cap) (k : ℕ) : base ≤ delay base cap k :=
  le_min (Nat.le_mul_of_pos_right _ (Nat.two_pow_pos k)) h

theorem delay_le (base cap k : ℕ) : delay base cap k ≤ cap := min_le_right _ _

structure Alarm where
  timer : Option ℕ
  attempts : ℕ
  stopped : Bool

inductive Act where
  | schedule
  | fire
  | reset
  | stop
  | idle
deriving DecidableEq

/-- The timers of a run: the delays of those that are pending, and of those
armed since the start or the last success, in order. -/
structure Timers where
  pending : List ℕ
  delays : List ℕ

def Timers.note (t : Timers) (cleared armed : Option ℕ) (success : Bool) : Timers where
  pending := t.pending.diff cleared.toList ++ armed.toList
  delays := if success then [] else t.delays ++ armed.toList

namespace Alarm

/-- The timer that is armed between two states: the one pending after them, unless it
was pending before and has neither fired nor been cleared. -/
def armed (cleared : Option ℕ) (before after : Alarm) : Option ℕ :=
  if after.timer = before.timer ∧ cleared = none then none else after.timer

variable (delay : ℕ → ℕ) (a : Alarm)

def step : Act → Alarm
  | .schedule =>
      if a.timer.isSome || a.stopped then a
      else { a with timer := some (delay a.attempts), attempts := a.attempts + 1 }
  | .fire => { a with timer := none }
  | .reset => { a with attempts := 0 }
  | .stop => { a with timer := none, stopped := true }
  | .idle => a

/-- The timer that has fired or is cleared. -/
def cleared : Act → Option ℕ
  | .fire => a.timer
  | .stop => a.timer
  | _ => none

/-- The pending timer is that of the state, and the delays follow the law. -/
structure Lawful (t : Timers) : Prop where
  pending : t.pending = a.timer.toList
  delays : t.delays = (List.range a.attempts).map delay
  stopped : a.stopped = true → a.timer = none

variable {delay a}

theorem armed_of_kept {b : Alarm} (h : b.timer = a.timer) : armed none a b = none :=
  if_pos ⟨h, rfl⟩

theorem armed_of_unset (cleared : Option ℕ) {b : Alarm} (h : b.timer = none) :
    armed cleared a b = none := by
  unfold armed
  split_ifs
  · rfl
  · exact h

theorem armed_of_set {b : Alarm} (h : a.timer = none) (hset : b.timer ≠ none) :
    armed none a b = b.timer :=
  if_neg fun hkept => hset (hkept.1.trans h)

/-- What scheduling does: nothing, or it arms the timer. -/
theorem schedule_cases :
    (a.step delay .schedule = a ∧ (a.timer ≠ none ∨ a.stopped = true)) ∨
    (a.timer = none ∧ a.stopped = false ∧ a.step delay .schedule =
      { a with timer := some (delay a.attempts), attempts := a.attempts + 1 }) := by
  unfold step
  split_ifs with h
  · refine Or.inl ⟨rfl, ?_⟩
    cases htimer : a.timer <;> simp_all
  · refine Or.inr ?_
    cases htimer : a.timer <;> cases hstopped : a.stopped <;> simp_all

/-- An act that arms nothing keeps the law if it keeps the timer, or clears it. -/
theorem Lawful.unarmed {t : Timers} (h : a.Lawful delay t) {b : Alarm} {cleared : Option ℕ}
    {success : Bool}
    (htimer : cleared = none ∧ b.timer = a.timer ∨ cleared = a.timer ∧ b.timer = none)
    (hcount : b.attempts = if success then 0 else a.attempts)
    (hstopped : b.stopped = true → b.timer = none) :
    b.Lawful delay (t.note cleared (armed cleared a b) success) := by
  have hnone : armed cleared a b = none := by
    rcases htimer with ⟨rfl, hkept⟩ | ⟨-, hunset⟩
    · exact armed_of_kept hkept
    · exact armed_of_unset cleared hunset
  have hpending : a.timer.toList.diff cleared.toList = b.timer.toList := by
    rcases htimer with ⟨rfl, hkept⟩ | ⟨rfl, hunset⟩
    · rw [hkept]
      exact List.diff_nil _
    · rw [hunset]
      cases a.timer <;> simp
  rw [hnone]
  constructor
  · rw [← hpending, ← h.pending]
    exact List.append_nil _
  · cases success with
    | true => simp [Timers.note, hcount]
    | false => simp [Timers.note, hcount, h.delays]
  · exact hstopped

theorem Lawful.step {t : Timers} (h : a.Lawful delay t) (act : Act) :
    (a.step delay act).Lawful delay
      (t.note (a.cleared act) (armed (a.cleared act) a (a.step delay act)) (act = .reset)) := by
  cases act with
  | schedule =>
      rcases a.schedule_cases with ⟨hsame, -⟩ | ⟨htimer, hup, harmed⟩
      · rw [hsame]
        exact h.unarmed (Or.inl ⟨rfl, rfl⟩) rfl h.stopped
      · rw [harmed]
        have hsome : armed none a
            { a with timer := some (delay a.attempts), attempts := a.attempts + 1 } =
              some (delay a.attempts) := armed_of_set htimer (Option.some_ne_none _)
        constructor
        · simp [Timers.note, hsome, cleared, h.pending, htimer]
        · simp [Timers.note, hsome, cleared, h.delays, List.range_succ]
        · simp [hup]
  | fire => exact h.unarmed (Or.inr ⟨rfl, rfl⟩) rfl fun _ => rfl
  | reset => exact h.unarmed (Or.inl ⟨rfl, rfl⟩) rfl h.stopped
  | stop => exact h.unarmed (Or.inr ⟨rfl, rfl⟩) rfl fun _ => rfl
  | idle => exact h.unarmed (Or.inl ⟨rfl, rfl⟩) rfl h.stopped

/-- Once stopped, an alarm stays so and arms nothing. -/
theorem stopped_step (hstopped : a.stopped = true) (act : Act) :
    armed (a.cleared act) a (a.step delay act) = none ∧ (a.step delay act).stopped = true := by
  cases act with
  | schedule =>
      have hsame : a.step delay .schedule = a := if_pos (by simp [hstopped])
      rw [hsame]
      exact ⟨armed_of_kept rfl, hstopped⟩
  | fire => exact ⟨armed_of_unset _ rfl, hstopped⟩
  | reset => exact ⟨armed_of_kept rfl, hstopped⟩
  | stop => exact ⟨armed_of_unset _ rfl, rfl⟩
  | idle => exact ⟨armed_of_kept rfl, hstopped⟩

theorem Lawful.length_pending_le {t : Timers} (h : a.Lawful delay t) : t.pending.length ≤ 1 := by
  rw [h.pending]
  exact Option.length_toList_le

theorem Lawful.delay_eq {t : Timers} (h : a.Lawful delay t) {k d : ℕ} (hk : t.delays[k]? = some d) :
    d = delay k := by
  rw [h.delays, List.getElem?_map] at hk
  obtain ⟨i, hi, rfl⟩ := Option.map_eq_some_iff.mp hk
  obtain ⟨hlt, rfl⟩ := List.getElem?_eq_some_iff.mp hi
  rw [List.getElem_range]

theorem Lawful.pairwise {t : Timers} (h : a.Lawful delay t) (hdelay : Monotone delay) :
    t.delays.Pairwise (· ≤ ·) := by
  rw [h.delays, List.pairwise_map]
  exact List.pairwise_lt_range.imp fun hlt => hdelay hlt.le

theorem Lawful.forall_delay {t : Timers} (h : a.Lawful delay t) {P : ℕ → Prop}
    (hdelay : ∀ k, P (delay k)) : ∀ d ∈ t.delays, P d := by
  intro d hd
  rw [h.delays] at hd
  obtain ⟨k, -, rfl⟩ := List.mem_map.mp hd
  exact hdelay k

end Alarm

end Backoff

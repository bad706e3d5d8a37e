import SocialMonitor.Notifications.Task
import SocialMonitor.Queue

/-!
# The runs of one job

The queue runs the job of a fresh task while the rest of the system goes on:
between two operations of a run the store may change in every way that leaves
the task, the rows it refers to and its events alone.
-/

namespace SocialMonitor.Notifications

open Async

/-! ## What concerns one task -/

def eventTask? : SseEvent → Option Id
  | .notificationSent id _ _ => some id
  | .notificationFailed id _ _ _ => some id
  | _ => none

structure TaskView where
  row : Option (NotificationTask × NotificationChannelType)
  events : List SseEvent

/-- The row of the task with the type of its channel, and its events. -/
def view (id : Id) (s : Store) : TaskView where
  row := (taskWithRelations? s id).map fun t => (t.task, t.channel.type)
  events := s.events.filter fun e => eventTask? e = some id

/-- One operation of a run, and what the rest of the system did before it. -/
structure Tick where
  choice : Choice
  meanwhile : Store → Store

def tickExec (t : Tick) (op : Op) (s : Store) : Except ApiError (Answer op) × Store :=
  exec t.choice op (t.meanwhile s)

/-- The rest of the system leaves the task alone, the repository works and the
provider answers with `outcome`. -/
structure Undisturbed (id : Id) (outcome : Except ApiError Unit) (t : Tick) : Prop where
  keeps : ∀ s, view id (t.meanwhile s) = view id s
  fault : t.choice.fault = none
  outcome : t.choice.outcome = outcome

def Ticked (id : Id) (outcome : Except ApiError Unit) (op : Op) (s : Store)
    (r : Except ApiError (Answer op)) (s' : Store) : Prop :=
  ∃ t, Undisturbed id outcome t ∧ (r, s') = tickExec t op s

theorem view_updateTaskRow (s : Store) (id id' : Id) (data : TaskUpdate) :
    view id' (updateTaskRow s id data) =
      ⟨if id' = id then (view id' s).row.map fun r => (data.apply r.1, r.2) else (view id' s).row,
        (view id' s).events⟩ := by
  unfold view
  rw [taskWithRelations?_updateTaskRow]
  congr 1
  split_ifs <;> cases taskWithRelations? s id' <;> rfl

theorem view_emit (s : Store) (id : Id) (event : SseEvent) :
    view id { s with events := s.events ++ [event] } =
      ⟨(view id s).row,
        if eventTask? event = some id then (view id s).events ++ [event]
        else (view id s).events⟩ := by
  unfold view
  rw [List.filter_append]
  split_ifs with h <;> simp [h] <;> rfl

section Ticked

variable {id : Id} {outcome : Except ApiError Unit} {s s' : Store} {row : NotificationTask}
  {type : NotificationChannelType}

theorem ticked_find {r : Except ApiError (Option TaskWithRelations)}
    (h : Ticked id outcome (.findTaskWithRelations id) s r s')
    (hrow : (view id s).row = some (row, type)) :
    ∃ t, r = .ok (some t) ∧ t.task = row ∧ t.channel.type = type ∧ view id s' = view id s := by
  obtain ⟨t, ht, heq⟩ := h
  simp only [tickExec, exec, Choice.query, ht.fault, Prod.mk.injEq] at heq
  obtain ⟨rfl, rfl⟩ := heq
  rw [← ht.keeps s] at hrow ⊢
  obtain ⟨found, hfound, heq⟩ := Option.map_eq_some_iff.mp hrow
  exact ⟨found, by rw [hfound], congrArg Prod.fst heq, congrArg Prod.snd heq, rfl⟩

theorem ticked_update {data : TaskUpdate} {r : Except ApiError Unit}
    (h : Ticked id outcome (.updateTask id data) s r s')
    (hrow : (view id s).row = some (row, type)) :
    r = .ok () ∧ view id s' = ⟨some (data.apply row, type), (view id s).events⟩ := by
  obtain ⟨t, ht, heq⟩ := h
  rw [← ht.keeps s] at hrow ⊢
  obtain ⟨found, hfound, -⟩ := Option.map_eq_some_iff.mp hrow
  obtain ⟨task, htask, -⟩ := Option.bind_eq_some_iff.mp hfound
  simp only [tickExec, exec, Choice.query, ht.fault, htask, Option.isSome_some, if_true,
    Prod.mk.injEq] at heq
  obtain ⟨rfl, rfl⟩ := heq
  exact ⟨rfl, by simp [view_updateTaskRow, hrow]⟩

theorem ticked_startSend {provider : NotificationChannelType} {config : Js.Json}
    {payload : NotificationPayload} {r : Except ApiError Unit}
    (h : Ticked id outcome (.startSend provider config payload) s r s') :
    r = .ok () ∧ view id s' = view id s := by
  obtain ⟨t, ht, heq⟩ := h
  obtain ⟨rfl, rfl⟩ := Prod.mk.inj heq
  exact ⟨rfl, ht.keeps s⟩

theorem ticked_finishSend {r : Except ApiError Unit} (h : Ticked id outcome .finishSend s r s') :
    r = outcome ∧ view id s' = view id s := by
  obtain ⟨t, ht, heq⟩ := h
  obtain ⟨rfl, rfl⟩ := Prod.mk.inj heq
  exact ⟨ht.outcome, ht.keeps s⟩

theorem ticked_now {r : Except ApiError Time} (h : Ticked id outcome .now s r s') :
    (∃ time, r = .ok time) ∧ view id s' = view id s := by
  obtain ⟨t, ht, heq⟩ := h
  obtain ⟨rfl, rfl⟩ := Prod.mk.inj heq
  exact ⟨⟨_, rfl⟩, ht.keeps s⟩

theorem ticked_emit {event : SseEvent} {r : Except ApiError Unit}
    (h : Ticked id outcome (.emit event) s r s') (hevent : eventTask? event = some id) :
    r = .ok () ∧ view id s' = ⟨(view id s).row, (view id s).events ++ [event]⟩ := by
  obtain ⟨t, ht, heq⟩ := h
  obtain ⟨rfl, rfl⟩ := Prod.mk.inj heq
  rw [← ht.keeps s]
  exact ⟨rfl, by simp [view_emit, hevent]⟩

end Ticked

/-! ## One run -/

/-- The row and the events after a run that had found `row`. -/
def AfterRun (id : Id) (row : NotificationTask) (type : NotificationChannelType)
    (events : List SseEvent) (s : Store) : Except ApiError Unit → Prop
  | .ok _ => ∃ time, view id s =
      ⟨some ({ row with
          status := .sent, attempts := row.attempts + 1, sentAt := some time, lastError := none },
        type), events ++ [.notificationSent id type (row.attempts + 1)]⟩
  | .error error => view id s =
      ⟨some ({ row with
          status := .failed, attempts := row.attempts + 1, lastError := some error.message }, type),
        events ++ [.notificationFailed id type (row.attempts + 1) error.message]⟩

theorem processTask_obeys {id : Id} (outcome : Except ApiError Unit) {s : Store}
    {row : NotificationTask} {type : NotificationChannelType} {events : List SseEvent}
    (hs : view id s = ⟨some (row, type), events⟩) :
    (processTask id).Obeys (Ticked id outcome) (fun _ _ => True)
      (fun s' r => r = outcome ∧ AfterRun id row type events s' outcome) s := by
  simp only [processTask, factoryGet_eq]
  refine ⟨trivial, fun r s₁ h => ?_⟩
  obtain ⟨t, rfl, rfl, rfl, h₁⟩ := ticked_find h (congrArg TaskView.row hs)
  rw [hs] at h₁
  refine ⟨trivial, fun r s₂ h => ?_⟩
  obtain ⟨rfl, h₂⟩ := ticked_update h (congrArg TaskView.row h₁)
  rw [h₁] at h₂
  have hhandler : ∀ (error : ApiError) (s₃ : Store), outcome = .error error →
      view id s₃ = view id s₂ →
      (do updateTask id (setFailed error.message)
          emit (.notificationFailed id t.channel.type (t.task.attempts + 1) error.message)
          throw error : Api Unit).Obeys (Ticked id outcome) (fun _ _ => True)
        (fun s' r => r = outcome ∧ AfterRun id t.task t.channel.type events s' outcome) s₃ := by
    rintro error s₃ rfl h₃
    rw [h₂] at h₃
    refine ⟨trivial, fun r s₄ h => ?_⟩
    obtain ⟨rfl, h₄⟩ := ticked_update h (congrArg TaskView.row h₃)
    rw [h₃] at h₄
    refine ⟨trivial, fun r s₅ h => ?_⟩
    obtain ⟨rfl, h₅⟩ := ticked_emit h rfl
    rw [h₄] at h₅
    exact ⟨rfl, h₅⟩
  refine ⟨trivial, fun r s₃ h => ?_⟩
  obtain ⟨rfl, h₃⟩ := ticked_startSend h
  refine ⟨trivial, fun r s₄ h => ?_⟩
  obtain ⟨rfl, h₄⟩ := ticked_finishSend h
  cases r with
  | error error => exact hhandler error s₄ rfl (h₄.trans h₃)
  | ok =>
      refine ⟨trivial, fun r s₅ h => ?_⟩
      obtain ⟨⟨time, rfl⟩, h₅⟩ := ticked_now h
      rw [h₄, h₃, h₂] at h₅
      refine ⟨trivial, fun r s₆ h => ?_⟩
      obtain ⟨rfl, h₆⟩ := ticked_update h (congrArg TaskView.row h₅)
      rw [h₅] at h₆
      refine ⟨trivial, fun r s₇ h => ?_⟩
      obtain ⟨rfl, h₇⟩ := ticked_emit h rfl
      rw [h₆] at h₇
      exact ⟨rfl, time, h₇⟩

/-! ## The run law -/

def errorText : Except ApiError Unit → String
  | .error error => error.message
  | .ok _ => ""

/-- One event for each of the first `n` runs, with the attempts 1, 2, and so on. -/
def failedEvents (id : Id) (type : NotificationChannelType) (out : ℕ → Except ApiError Unit)
    (n : ℕ) : List SseEvent :=
  (List.range n).map fun i => .notificationFailed id type (i + 1) (errorText (out i))

/-- The row after `n` runs that have thrown. -/
def waitingRow (row : NotificationTask) (out : ℕ → Except ApiError Unit) : ℕ → NotificationTask
  | 0 => row
  | n + 1 => { row with
      status := .failed, attempts := n + 1, lastError := some (errorText (out n)) }

/-- The queue runs the job of the task; operation `m` of run `n` happens at
`ticks n m`. -/
def runTaskJob (job : Job) (ticks : ℕ → ℕ → Tick) (s : Store) : Store :=
  Queue.runJob (fun n => (process job).run tickExec (ticks n)) job.attempts 0 s

theorem process_retries {id : Id} {row : NotificationTask} {type : NotificationChannelType}
    {events : List SseEvent} {out : ℕ → Except ApiError Unit} {ticks : ℕ → ℕ → Tick}
    (hrow : row.attempts = 0) (hticks : ∀ n m, Undisturbed id (out n) (ticks n m)) :
    Queue.Retries (fun n => (process (Queue.jobOf id type)).run tickExec (ticks n))
      (fun n s => view id s =
        ⟨some (waitingRow row out n, type), events ++ failedEvents id type out n⟩)
      (fun n s => ∃ time, view id s =
        ⟨some ({ row with
            status := .sent, attempts := n + 1, sentAt := some time, lastError := none }, type),
          events ++ failedEvents id type out n ++ [.notificationSent id type (n + 1)]⟩) out := by
  have hrun : ∀ n s, view id s =
      ⟨some (waitingRow row out n, type), events ++ failedEvents id type out n⟩ →
      ((process (Queue.jobOf id type)).run tickExec (ticks n) s).1 = out n ∧
        AfterRun id (waitingRow row out n) type (events ++ failedEvents id type out n)
          ((process (Queue.jobOf id type)).run tickExec (ticks n) s).2 (out n) := fun n s hs =>
    (processTask_obeys (out n) hs).run fun m _ _ => ⟨ticks n m, hticks n m, rfl⟩
  have hattempts : ∀ n, (waitingRow row out n).attempts = n := by
    rintro (_ | n)
    · exact hrow
    · rfl
  refine ⟨fun n s hs => (hrun n s hs).1, ?_, ?_⟩
  · rintro n s hs ⟨a, ha⟩
    have hafter := (hrun n s hs).2
    rw [ha] at hafter
    obtain ⟨time, hafter⟩ := hafter
    refine ⟨time, ?_⟩
    rw [hafter, hattempts]
    cases n <;> rfl
  · rintro n s hs ⟨error, he⟩
    have hafter := (hrun n s hs).2
    rw [he] at hafter
    rw [hafter, hattempts]
    cases n <;> simp [waitingRow, failedEvents, List.range_succ, he, errorText]

/-- A task as `createNotificationTasks` inserts it. -/
def Fresh (row : NotificationTask) : Prop :=
  row.status = .pending ∧ row.attempts = 0 ∧ row.lastError = none ∧ row.sentAt = none

/-- The job of a fresh task ends with the first success among five runs, or
with five failures. -/
theorem runTaskJob_ends {id : Id} {row : NotificationTask} {type : NotificationChannelType}
    {events : List SseEvent} {s : Store} (out : ℕ → Except ApiError Unit)
    (ticks : ℕ → ℕ → Tick) (hs : view id s = ⟨some (row, type), events⟩) (hfresh : Fresh row)
    (hticks : ∀ n m, Undisturbed id (out n) (ticks n m)) :
    (∃ k < 5, (∀ i < k, Queue.Fails out i) ∧ Queue.Succeeds out k ∧
      ∃ time, view id (runTaskJob (Queue.jobOf id type) ticks s) =
        ⟨some ({ row with
            status := .sent, attempts := k + 1, sentAt := some time, lastError := none }, type),
          events ++ failedEvents id type out k ++ [.notificationSent id type (k + 1)]⟩) ∨
    ((∀ i < 5, Queue.Fails out i) ∧
      view id (runTaskJob (Queue.jobOf id type) ticks s) =
        ⟨some ({ row with
            status := .failed, attempts := 5, sentAt := none,
            lastError := some (errorText (out 4)) }, type),
          events ++ failedEvents id type out 5⟩) := by
  obtain ⟨-, hattempts, -, hsentAt⟩ := hfresh
  have hs₀ : view id s =
      ⟨some (waitingRow row out 0, type), events ++ failedEvents id type out 0⟩ := by
    simpa [waitingRow, failedEvents] using hs
  have hends := (process_retries hattempts hticks).runJob 5 hs₀
  simp only [zero_add] at hends
  rcases hends with hsent | ⟨hall, hfailed⟩
  · exact Or.inl hsent
  · refine Or.inr ⟨hall, hfailed.trans ?_⟩
    simp [waitingRow, ← hsentAt]

def outcomes (n : ℕ) : Except ApiError Unit :=
  if n < 2 then .error (.other "boom") else .ok ()

theorem runTaskJob_ends_outcomes :
    (view 4 (runTaskJob (Queue.jobOf 4 .telegram)
      (fun n _ => ⟨{ calm with outcome := outcomes n }, fun s => s⟩) oneTask)).events =
        [.notificationFailed 4 .telegram 1 "boom", .notificationFailed 4 .telegram 2 "boom",
          .notificationSent 4 .telegram 3] := by
  have hs : view 4 oneTask = ⟨some (⟨4, 2, 3, .pending, 0, none, none, 0⟩, .telegram), []⟩ := rfl
  have hends := runTaskJob_ends outcomes
    (fun n _ => ⟨{ calm with outcome := outcomes n }, fun s => s⟩) hs ⟨rfl, rfl, rfl, rfl⟩
    fun n m => ⟨fun s => rfl, rfl, rfl⟩
  rcases hends with ⟨k, -, hbefore, ⟨a, ha⟩, time, hview⟩ | ⟨hall, -⟩
  · have hge : ¬ k < 2 := fun hlt => by simp [outcomes, hlt] at ha
    have hle : ¬ 2 < k := fun hlt => by
      obtain ⟨e, he⟩ := hbefore 2 hlt
      simp [outcomes] at he
    obtain rfl : k = 2 := by omega
    rw [hview]
    rfl
  · obtain ⟨e, he⟩ := hall 2 (by decide)
    simp [outcomes] at he

end SocialMonitor.Notifications

import SocialMonitor.Async.Trace
import SocialMonitor.Notifications.Delivery

/-!
# What a manual call reports

One run of `dispatch` beside which the row may vanish, with any failure of the
repository.  An error of the provider is persisted before it is swallowed, and
so are not the errors of the repository.
-/

namespace SocialMonitor.Notifications

open Async

/-- What becomes of an operation of the repository: the row of the task may
vanish before it, and the database may fail in it. -/
structure Moment where
  vanishes : Bool
  fault : Option ApiError

def Moment.before (m : Moment) (id : Id) (s : Store) : Store :=
  if m.vanishes then (Removal.task id).apply s else s

/-- The error of an update in a store. -/
def Moment.error? (m : Moment) (id : Id) (s : Store) : Option ApiError :=
  match m.fault with
  | some e => some e
  | none => if (s.task? id).isSome then none else some recordNotFound

/-- What the outside does at the steps of one attempt, none of which is taken
twice. -/
structure Attempt where
  find : Moment
  processing : Moment
  outcome : Except ApiError Unit
  sentAt : Time
  sent : Moment
  failed : Moment

def Attempt.update (a : Attempt) (data : TaskUpdate) : Moment :=
  match data.status with
  | .processing => a.processing
  | .sent => a.sent
  | _ => a.failed

def Attempt.choice (a : Attempt) (m : Moment) : Choice :=
  { calm with fault := m.fault, outcome := a.outcome, now := a.sentAt }

def attemptExec (a : Attempt) : (op : Op) → Store → Except ApiError (Answer op) × Store
  | .findTaskWithRelations id, s =>
      exec (a.choice a.find) (.findTaskWithRelations id) (a.find.before id s)
  | .updateTask id data, s =>
      exec (a.choice (a.update data)) (.updateTask id data) ((a.update data).before id s)
  | op, s => exec (a.choice ⟨false, none⟩) op s

variable (id : Id) (a : Attempt) (s : Store)

/-- How `dispatch` ends, with the store and the operations answered. -/
def report : Except ApiError Unit × Store × History :=
  (dispatch id).runSteady (journaled attemptExec) a (s, [])

def SentRow (s : Store) : Prop := ∃ row, s.task? id = some row ∧ row.status = .sent

/-- The row has failed, and the error on it was written in this attempt. -/
def FailedRow (s : Store) (h : History) : Prop :=
  ∃ row, s.task? id = some row ∧ row.status = .failed ∧
    ∃ message, row.lastError = some message ∧ ⟨.updateTask id (setFailed message), .ok ()⟩ ∈ h

/-- A call that returns leaves a row that is `SENT`, or `FAILED` through it. -/
def Honest : Prop :=
  (report id a s).1 = .ok () →
    SentRow id (report id a s).2.1 ∨ FailedRow id (report id a s).2.1 (report id a s).2.2

/-- The send fails, or the record of it does. -/
def Attempt.Fails (s : Store) : Prop :=
  (∃ e, a.outcome = .error e) ∨
    ∃ e, a.sent.error? id (a.sent.before id (updateTaskRow s id setProcessing)) = some e

/-- The store of the update to `FAILED`. -/
def Attempt.failedIn (s : Store) : Store :=
  match a.outcome with
  | .error _ => a.failed.before id (updateTaskRow s id setProcessing)
  | .ok _ => a.failed.before id (a.sent.before id (updateTaskRow s id setProcessing))

/-- Where an error of the repository is swallowed, the row is `SENT` from
earlier; the update to `FAILED` has no such error. -/
structure Persisted : Prop where
  find : ∀ e, a.find.fault = some e → e.isNotFound = true ∨ SentRow id (a.find.before id s)
  processing : a.find.fault = none → (taskWithRelations? (a.find.before id s) id).isSome = true →
    ∀ e, a.processing.error? id (a.processing.before id (a.find.before id s)) = some e →
      e.isNotFound = true ∨ SentRow id (a.processing.before id (a.find.before id s))
  failed : a.find.fault = none → (taskWithRelations? (a.find.before id s) id).isSome = true →
    a.processing.error? id (a.processing.before id (a.find.before id s)) = none →
      a.Fails id (a.processing.before id (a.find.before id s)) →
        ∀ e, a.failed.error? id (a.failedIn id (a.processing.before id (a.find.before id s))) =
          some e → e.isNotFound = true

/-! ## The operations of an attempt -/

section Exec

variable {id a s}

theorem attemptExec_find_fault {e : ApiError} (h : a.find.fault = some e) :
    attemptExec a (.findTaskWithRelations id) s = (.error e, a.find.before id s) := by
  simp [attemptExec, exec, Choice.query, Attempt.choice, h]

theorem attemptExec_find (h : a.find.fault = none) :
    attemptExec a (.findTaskWithRelations id) s =
      (.ok (taskWithRelations? (a.find.before id s) id), a.find.before id s) := by
  simp [attemptExec, exec, Choice.query, Attempt.choice, h]

theorem attemptExec_update_error {data : TaskUpdate} {m : Moment} (hm : a.update data = m)
    {e : ApiError} (h : m.error? id (m.before id s) = some e) :
    attemptExec a (.updateTask id data) s = (.error e, m.before id s) := by
  subst hm
  unfold Moment.error? at h
  cases hfault : (a.update data).fault with
  | some e' =>
      rw [hfault] at h
      obtain rfl := Option.some.inj h
      simp [attemptExec, exec, Choice.query, Attempt.choice, hfault]
  | none =>
      rw [hfault] at h
      simp only [] at h
      split_ifs at h with hrow
      obtain rfl := Option.some.inj h
      simp [attemptExec, exec, Choice.query, Attempt.choice, hfault, hrow]

theorem attemptExec_update {data : TaskUpdate} {m : Moment} (hm : a.update data = m)
    (h : m.error? id (m.before id s) = none) :
    attemptExec a (.updateTask id data) s =
        (.ok (), updateTaskRow (m.before id s) id data) ∧
      ∃ row, (updateTaskRow (m.before id s) id data).task? id = some (data.apply row) := by
  subst hm
  unfold Moment.error? at h
  cases hfault : (a.update data).fault with
  | some e' =>
      rw [hfault] at h
      cases h
  | none =>
      rw [hfault] at h
      simp only [] at h
      split_ifs at h with hrow
      obtain ⟨row, hrow'⟩ := Option.isSome_iff_exists.mp hrow
      refine ⟨?_, row, ?_⟩
      · simp [attemptExec, exec, Choice.query, Attempt.choice, hfault, hrow]
      · rw [task?_updateTaskRow, if_pos rfl, hrow']
        rfl

theorem attemptExec_startSend (provider : NotificationChannelType) (config : Js.Json)
    (payload : NotificationPayload) :
    attemptExec a (.startSend provider config payload) s = (.ok (), s) := rfl

theorem attemptExec_finishSend : attemptExec a .finishSend s = (a.outcome, s) := rfl

theorem attemptExec_now : attemptExec a .now s = (.ok a.sentAt, s) := rfl

theorem attemptExec_emit (event : SseEvent) :
    attemptExec a (.emit event) s = (.ok (), { s with events := s.events ++ [event] }) := rfl

end Exec

/-! ## The parts of an attempt -/

/-- The guarded part. -/
def sending (task : TaskWithRelations) : Api Unit := do
  let provider ← factoryGet task.channel.type
  send provider task.channel.config (buildPayload task)
  updateTask id (setSent (← now))
  emit (.notificationSent id task.channel.type (task.task.attempts + 1))

/-- What follows an error of the guarded part. -/
def failing (task : TaskWithRelations) (error : ApiError) : Api Unit := do
  updateTask id (setFailed error.message)
  emit (.notificationFailed id task.channel.type (task.task.attempts + 1) error.message)
  throw error

/-- The attempt on a task that was found. -/
def attempting : Option TaskWithRelations → Api Unit
  | some task => (updateTask id setProcessing).bind fun _ =>
      (sending id task).handle (failing id task)
  | none => .raise (taskNotFound id)

theorem processTask_eq :
    processTask id = (findTaskWithRelations id).bind (attempting id) := by
  refine congrArg (Program.bind _) (funext fun found => ?_)
  cases found <;> rfl

section Parts

variable {a} (task : TaskWithRelations) (s : Store) (h : History)

/-- The run of a part of the attempt, from a store and a journal. -/
abbrev runs (a : Attempt) (p : Api Unit) (s : Store) (h : History) :
    Except ApiError Unit × Store × History :=
  p.runSteady (journaled attemptExec) a (s, h)

theorem sending_error {e : ApiError} (houtcome : a.outcome = .error e) :
    (runs a (sending id task) s h).1 = .error e ∧ (runs a (sending id task) s h).2.1 = s := by
  simp [runs, sending, send, journaled, houtcome, attemptExec_startSend, attemptExec_finishSend]

theorem sending_lost {e : ApiError} (houtcome : a.outcome = .ok ())
    (hsent : a.sent.error? id (a.sent.before id s) = some e) :
    (runs a (sending id task) s h).1 = .error e ∧
      (runs a (sending id task) s h).2.1 = a.sent.before id s := by
  have hupdate : ∀ time, attemptExec a (.updateTask id (setSent time)) s =
      (.error e, a.sent.before id s) := fun time => attemptExec_update_error rfl hsent
  simp [runs, sending, send, now, updateTask, journaled, hupdate, houtcome,
    attemptExec_startSend, attemptExec_finishSend, attemptExec_now]

theorem sending_sent (houtcome : a.outcome = .ok ())
    (hsent : a.sent.error? id (a.sent.before id s) = none) :
    (runs a (sending id task) s h).1 = .ok () ∧
      SentRow id (runs a (sending id task) s h).2.1 := by
  have hquery : a.update (setSent a.sentAt) = a.sent := rfl
  obtain ⟨hupdate, row, hrow⟩ := attemptExec_update hquery hsent
  simp only [runs, sending, send, now, updateTask, emit, factoryGet_eq, Program.bind_def,
    Program.await, Program.runSteady_bind, Program.runSteady_ret, Program.runSteady_call,
    Program.runSteady_ofExcept, journaled, attemptExec_startSend, attemptExec_finishSend,
    attemptExec_now, attemptExec_emit, hupdate, houtcome, true_and]
  exact ⟨(setSent a.sentAt).apply row, hrow, rfl⟩

theorem failing_lost {e e' : ApiError}
    (hfailed : a.failed.error? id (a.failed.before id s) = some e') :
    (runs a (failing id task e) s h).1 = .error e' ∧
      (runs a (failing id task e) s h).2.1 = a.failed.before id s := by
  have hupdate : attemptExec a (.updateTask id (setFailed e.message)) s =
      (.error e', a.failed.before id s) := attemptExec_update_error rfl hfailed
  simp [runs, failing, updateTask, journaled, hupdate]

theorem failing_stored {e : ApiError}
    (hfailed : a.failed.error? id (a.failed.before id s) = none) :
    (runs a (failing id task e) s h).1 = .error e ∧
      FailedRow id (runs a (failing id task e) s h).2.1 (runs a (failing id task e) s h).2.2 := by
  have hquery : a.update (setFailed e.message) = a.failed := rfl
  obtain ⟨hupdate, row, hrow⟩ := attemptExec_update hquery hfailed
  simp only [runs, failing, updateTask, emit, Program.bind_def, Program.await, Program.throw_def,
    Program.runSteady_bind, Program.runSteady_raise, Program.runSteady_call,
    Program.runSteady_ofExcept, journaled, attemptExec_emit, hupdate, true_and]
  exact ⟨(setFailed e.message).apply row, hrow, rfl, e.message, rfl, by simp⟩

theorem processTask_unread {e : ApiError} (hfault : a.find.fault = some e) :
    runs a (processTask id) s [] =
      (.error e, a.find.before id s, [⟨.findTaskWithRelations id, .error e⟩]) := by
  rw [processTask_eq]
  simp [runs, findTaskWithRelations, journaled, attemptExec_find_fault hfault]

theorem processTask_found (hfault : a.find.fault = none) :
    runs a (processTask id) s [] =
      runs a (attempting id (taskWithRelations? (a.find.before id s) id)) (a.find.before id s)
        [⟨.findTaskWithRelations id, .ok (taskWithRelations? (a.find.before id s) id)⟩] := by
  rw [processTask_eq]
  simp [runs, findTaskWithRelations, journaled, attemptExec_find hfault]

end Parts

/-! ## The whole attempt -/

section Whole

variable {id a} {task : TaskWithRelations} {s : Store} {h : History}

/-- What `dispatch` makes of the end of the attempt. -/
def swallowed : Except ApiError Unit → Except ApiError Unit
  | .error e => if e.isNotFound then .error e else .ok ()
  | .ok _ => .ok ()

theorem report_eq : report id a s =
    (swallowed (runs a (processTask id) s []).1, (runs a (processTask id) s []).2) := by
  unfold report dispatch runs
  rw [Program.tryCatch_def, Program.runSteady_handle]
  rcases Program.runSteady (journaled attemptExec) a (processTask id) (s, []) with ⟨e | u, final⟩
  · simp only [swallowed]
    split_ifs <;> rfl
  · rfl

theorem swallowed_error {e : ApiError} : swallowed (.error e) = .ok () ↔ e.isNotFound = false := by
  unfold swallowed
  cases hfound : e.isNotFound <;> simp [hfound]

/-- Nothing is left to show but for errors that are swallowed. -/
theorem honest_iff {e : ApiError} (hend : (runs a (processTask id) s []).1 = .error e) :
    Honest id a s ↔ e.isNotFound = true ∨
      (SentRow id (runs a (processTask id) s []).2.1 ∨
        FailedRow id (runs a (processTask id) s []).2.1 (runs a (processTask id) s []).2.2) := by
  rw [Honest, report_eq, hend, swallowed_error]
  cases e.isNotFound <;> simp

theorem attempting_unclaimed {e : ApiError}
    (herror : a.processing.error? id (a.processing.before id s) = some e) :
    runs a (attempting id (some task)) s h =
      (.error e, a.processing.before id s, ⟨.updateTask id setProcessing, .error e⟩ :: h) := by
  have hupdate : attemptExec a (.updateTask id setProcessing) s =
      (.error e, a.processing.before id s) := attemptExec_update_error rfl herror
  simp [runs, attempting, updateTask, journaled, hupdate]

theorem attempting_claimed
    (herror : a.processing.error? id (a.processing.before id s) = none) :
    runs a (attempting id (some task)) s h =
      runs a ((sending id task).handle (failing id task))
        (updateTaskRow (a.processing.before id s) id setProcessing)
        (⟨.updateTask id setProcessing, .ok ()⟩ :: h) := by
  have hquery : a.update setProcessing = a.processing := rfl
  obtain ⟨hupdate, -⟩ := attemptExec_update hquery herror
  simp [runs, attempting, updateTask, journaled, hupdate]

/-- While the attempt goes on the row is `PROCESSING`, if it is there. -/
def Claims (id : Id) (s : Store) : Prop := ∀ row, s.task? id = some row → row.status = .processing

theorem claims_setProcessing (id : Id) (s : Store) :
    Claims id (updateTaskRow s id setProcessing) := by
  intro row hrow
  rw [task?_updateTaskRow, if_pos rfl] at hrow
  obtain ⟨old, -, rfl⟩ := Option.map_eq_some_iff.mp hrow
  rfl

theorem Claims.before {s : Store} (hs : Claims id s) (m : Moment) : Claims id (m.before id s) := by
  unfold Moment.before
  split_ifs
  · intro row hrow
    have hid := List.find?_some hrow
    have hmem := List.mem_of_find?_eq_some hrow
    simp only [Removal.apply, List.mem_filter, decide_eq_true_eq] at hmem hid
    exact absurd hid hmem.2
  · exact hs

theorem Claims.unreported {s : Store} (hs : Claims id s) (h : History) :
    ¬ (SentRow id s ∨ FailedRow id s h) := by
  rintro (⟨row, hrow, hstatus⟩ | ⟨row, hrow, hstatus, -⟩)
  · rw [hs row hrow] at hstatus
    cases hstatus
  · rw [hs row hrow] at hstatus
    cases hstatus

theorem handled_of_error {e : ApiError} (hsending : (runs a (sending id task) s h).1 = .error e) :
    runs a ((sending id task).handle (failing id task)) s h =
      runs a (failing id task e) (runs a (sending id task) s h).2.1
        (runs a (sending id task) s h).2.2 := by
  unfold runs at hsending ⊢
  rw [Program.runSteady_handle]
  rcases hrun : Program.runSteady (journaled attemptExec) a (sending id task) (s, h) with
    ⟨r, final⟩
  rw [hrun] at hsending
  simp only at hsending
  subst hsending
  rfl

theorem handled_of_ok (hsending : (runs a (sending id task) s h).1 = .ok ()) :
    runs a ((sending id task).handle (failing id task)) s h = runs a (sending id task) s h := by
  unfold runs at hsending ⊢
  rw [Program.runSteady_handle]
  rcases hrun : Program.runSteady (journaled attemptExec) a (sending id task) (s, h) with
    ⟨r, final⟩
  rw [hrun] at hsending
  simp only at hsending
  subst hsending
  rfl

/-- The guarded part fails with an error, and the row is still claimed. -/
theorem sending_fails (task : TaskWithRelations) (h : History) (hfails : a.Fails id s) :
    ∃ e, (runs a (sending id task) (updateTaskRow s id setProcessing) h).1 = .error e ∧
      Claims id (runs a (sending id task) (updateTaskRow s id setProcessing) h).2.1 ∧
        a.failedIn id s = a.failed.before id
          (runs a (sending id task) (updateTaskRow s id setProcessing) h).2.1 := by
  have hclaims := claims_setProcessing id s
  cases houtcome : a.outcome with
  | error e =>
      obtain ⟨hend, hstore⟩ := sending_error id task (updateTaskRow s id setProcessing) h houtcome
      rw [hstore, Attempt.failedIn, houtcome]
      exact ⟨e, hend, hclaims, rfl⟩
  | ok u =>
      obtain ⟨e, hsent⟩ : ∃ e, a.sent.error? id
          (a.sent.before id (updateTaskRow s id setProcessing)) = some e := by
        rcases hfails with ⟨e, he⟩ | hsent
        · rw [houtcome] at he
          cases he
        · exact hsent
      obtain ⟨hend, hstore⟩ := sending_lost id task _ h houtcome hsent
      rw [hstore, Attempt.failedIn, houtcome]
      exact ⟨e, hend, hclaims.before a.sent, rfl⟩

theorem not_fails (hfails : ¬ a.Fails id s) : a.outcome = .ok () ∧
    a.sent.error? id (a.sent.before id (updateTaskRow s id setProcessing)) = none := by
  rw [Attempt.Fails, not_or, not_exists, not_exists] at hfails
  constructor
  · cases houtcome : a.outcome with
    | error e => exact absurd houtcome (hfails.1 e)
    | ok u => rfl
  · exact Option.eq_none_iff_forall_ne_some.mpr hfails.2

end Whole

theorem processTask_claimed {task : TaskWithRelations} (hfault : a.find.fault = none)
    (hfound : taskWithRelations? (a.find.before id s) id = some task)
    (hclaimed : a.processing.error? id (a.processing.before id (a.find.before id s)) = none) :
    ∃ h, runs a (processTask id) s [] = runs a ((sending id task).handle (failing id task))
      (updateTaskRow (a.processing.before id (a.find.before id s)) id setProcessing) h := by
  rw [processTask_found id s hfault, hfound, attempting_claimed hclaimed]
  exact ⟨_, rfl⟩

theorem honest_unread {e : ApiError} (hfault : a.find.fault = some e) :
    Honest id a s ↔ e.isNotFound = true ∨ SentRow id (a.find.before id s) := by
  have hend := processTask_unread id s hfault
  have hnone : ¬ FailedRow id (a.find.before id s) [⟨.findTaskWithRelations id, .error e⟩] := by
    rintro ⟨row, -, -, message, -, hmem⟩
    cases List.mem_singleton.mp hmem
  rw [honest_iff (congrArg Prod.fst hend), hend, or_iff_left hnone]

theorem honest_missing (hfault : a.find.fault = none)
    (hmissing : taskWithRelations? (a.find.before id s) id = none) : Honest id a s := by
  have hend := processTask_found id s hfault
  rw [hmissing] at hend
  exact (honest_iff (congrArg Prod.fst hend)).mpr (Or.inl rfl)

theorem honest_unclaimed {task : TaskWithRelations} (hfault : a.find.fault = none)
    (hfound : taskWithRelations? (a.find.before id s) id = some task) {e : ApiError}
    (herror : a.processing.error? id (a.processing.before id (a.find.before id s)) = some e) :
    Honest id a s ↔
      e.isNotFound = true ∨ SentRow id (a.processing.before id (a.find.before id s)) := by
  have hend := processTask_found id s hfault
  rw [hfound, attempting_unclaimed herror] at hend
  have hnone : ∀ store, ¬ FailedRow id store [⟨.updateTask id setProcessing, .error e⟩,
      ⟨.findTaskWithRelations id, .ok (some task)⟩] := by
    rintro store ⟨row, -, -, message, -, hmem⟩
    rcases List.mem_cons.mp hmem with hmem | hmem
    · cases hmem
    · cases List.mem_singleton.mp hmem
  rw [honest_iff (congrArg Prod.fst hend), hend, or_iff_left (hnone _)]

theorem honest_sent {task : TaskWithRelations} (hfault : a.find.fault = none)
    (hfound : taskWithRelations? (a.find.before id s) id = some task)
    (hclaimed : a.processing.error? id (a.processing.before id (a.find.before id s)) = none)
    (hfails : ¬ a.Fails id (a.processing.before id (a.find.before id s))) : Honest id a s := by
  obtain ⟨houtcome, hsent⟩ := not_fails hfails
  obtain ⟨h, hrun⟩ := processTask_claimed id a s hfault hfound hclaimed
  obtain ⟨hend, hrow⟩ := sending_sent id task _ h houtcome hsent
  intro _
  left
  rw [report_eq, hrun, handled_of_ok hend]
  exact hrow

theorem honest_failed {task : TaskWithRelations} (hfault : a.find.fault = none)
    (hfound : taskWithRelations? (a.find.before id s) id = some task)
    (hclaimed : a.processing.error? id (a.processing.before id (a.find.before id s)) = none)
    (hfails : a.Fails id (a.processing.before id (a.find.before id s))) :
    Honest id a s ↔
      ∀ e, a.failed.error? id (a.failedIn id (a.processing.before id (a.find.before id s))) =
        some e → e.isNotFound = true := by
  obtain ⟨h, hrun⟩ := processTask_claimed id a s hfault hfound hclaimed
  obtain ⟨cause, hsending, hclaims, hstore⟩ := sending_fails task h hfails
  rw [handled_of_error hsending] at hrun
  rw [hstore]
  cases hlost : a.failed.error? id (a.failed.before id (runs a (sending id task)
      (updateTaskRow (a.processing.before id (a.find.before id s)) id setProcessing) h).2.1) with
  | none =>
      obtain ⟨hend, hrow⟩ := failing_stored id task _ _ (e := cause) hlost
      have hhonest : Honest id a s :=
        (honest_iff ((congrArg Prod.fst hrun).trans hend)).mpr (Or.inr (Or.inr (by
          rw [hrun]
          exact hrow)))
      simp [hhonest]
  | some e =>
      obtain ⟨hend, hfinal⟩ := failing_lost id task _ _ (e := cause) hlost
      rw [honest_iff ((congrArg Prod.fst hrun).trans hend), hrun, hfinal,
        or_iff_left ((hclaims.before a.failed).unreported _)]
      simp

/-- A call that returns has left the row `SENT`, or `FAILED` with an error of its
own, exactly where no error of the repository is swallowed. -/
theorem dispatch_honest_iff : Honest id a s ↔ Persisted id a s := by
  constructor
  · intro hhonest
    refine ⟨fun e hfault => (honest_unread id a s hfault).mp hhonest, ?_, ?_⟩
    · intro hfault hfound e herror
      obtain ⟨task, hfound⟩ := Option.isSome_iff_exists.mp hfound
      exact (honest_unclaimed id a s hfault hfound herror).mp hhonest
    · intro hfault hfound hclaimed hfails
      obtain ⟨task, hfound⟩ := Option.isSome_iff_exists.mp hfound
      exact (honest_failed id a s hfault hfound hclaimed hfails).mp hhonest
  · intro hpersisted
    cases hfault : a.find.fault with
    | some e => exact (honest_unread id a s hfault).mpr (hpersisted.find e hfault)
    | none =>
        cases hfound : taskWithRelations? (a.find.before id s) id with
        | none => exact honest_missing id a s hfault hfound
        | some task =>
            have hsome : (taskWithRelations? (a.find.before id s) id).isSome = true := by
              rw [hfound]
              rfl
            cases hclaimed :
                a.processing.error? id (a.processing.before id (a.find.before id s)) with
            | some e =>
                exact (honest_unclaimed id a s hfault hfound hclaimed).mpr
                  (hpersisted.processing hfault hsome e hclaimed)
            | none =>
                by_cases hfails : a.Fails id (a.processing.before id (a.find.before id s))
                · exact (honest_failed id a s hfault hfound hclaimed hfails).mpr
                    (hpersisted.failed hfault hsome hclaimed hfails)
                · exact honest_sent id a s hfault hfound hclaimed hfails

/-! ## The defect -/

def smoothly : Moment := ⟨false, none⟩

/-- The database fails when the attempt is to be claimed. -/
def unclaimed : Attempt where
  find := smoothly
  processing := ⟨false, some (.other "connection lost")⟩
  outcome := .ok ()
  sentAt := 1000
  sent := smoothly
  failed := smoothly

/-- The channel is deleted while the message is sent. -/
def vanished : Attempt where
  find := smoothly
  processing := smoothly
  outcome := .ok ()
  sentAt := 1000
  sent := ⟨true, none⟩
  failed := smoothly

/-- Both calls return, with the task as it was and without the task. -/
theorem dispatch_dishonest :
    ((report 4 unclaimed oneTask).1 = .ok () ∧
      rowStatus (report 4 unclaimed oneTask).2.1 4 = some .pending ∧
        ¬ Honest 4 unclaimed oneTask) ∧
      (report 4 vanished oneTask).1 = .ok () ∧
        rowStatus (report 4 vanished oneTask).2.1 4 = none ∧ ¬ Honest 4 vanished oneTask := by
  have hdishonest : ∀ a : Attempt, (report 4 a oneTask).1 = .ok () →
      rowStatus (report 4 a oneTask).2.1 4 ≠ some .sent →
      rowStatus (report 4 a oneTask).2.1 4 ≠ some .failed → ¬ Honest 4 a oneTask := by
    intro a hok hsent hfailed hhonest
    rcases hhonest hok with ⟨row, hrow, hstatus⟩ | ⟨row, hrow, hstatus, -⟩
    · exact hsent (by rw [rowStatus, hrow, ← hstatus]; rfl)
    · exact hfailed (by rw [rowStatus, hrow, ← hstatus]; rfl)
  exact ⟨⟨rfl, rfl, hdishonest unclaimed rfl (by decide) (by decide)⟩, rfl, rfl,
    hdishonest vanished rfl (by decide) (by decide)⟩

end SocialMonitor.Notifications

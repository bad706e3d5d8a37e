import SocialMonitor.Async.Facts
import SocialMonitor.Messages.Effect
import SocialMonitor.Notifications.Delivery

/-!
# The columns of a task row

Three updates write the row of a task, each of them some of its columns.  They
fit together as long as none but the record of a delivery meets a row that is
`SENT`.
-/

namespace SocialMonitor.Notifications

open Async

/-- The columns agree with the status. -/
structure Consistent (t : NotificationTask) : Prop where
  pending : t.status = .pending → t.attempts = 0 ∧ t.sentAt = none ∧ t.lastError = none
  sent : t.status = .sent → t.sentAt.isSome = true ∧ t.lastError = none
  failed : t.status = .failed → t.lastError.isSome = true ∧ t.sentAt = none
  sentAt : t.sentAt.isSome = true → t.status = .sent

/-- A row as `createNotificationTasks` makes it. -/
structure Untouched (t : NotificationTask) : Prop where
  status : t.status = .pending
  attempts : t.attempts = 0
  sentAt : t.sentAt = none
  lastError : t.lastError = none

theorem Untouched.consistent {t : NotificationTask} (h : Untouched t) : Consistent t where
  pending _ := ⟨h.attempts, h.sentAt, h.lastError⟩
  sent hsent := by
    rw [h.status] at hsent
    cases hsent
  failed hfailed := by
    rw [h.status] at hfailed
    cases hfailed
  sentAt hsome := by
    rw [h.sentAt] at hsome
    cases hsome

theorem untouched_taskRow (id messageId channelId : Id) (createdAt : Time) :
    Untouched (Messages.taskRow id messageId channelId createdAt) := ⟨rfl, rfl, rfl, rfl⟩

/-! ## The runs -/

/-- Beside the attempts rows are created, and removed with their messages and
channels. -/
inductive Meanwhile where
  | created (messageId : Id) (channelIds : List Id) (createdAt : Time)
  | removed (id : Id)

def Meanwhile.apply : Meanwhile → Store → Store
  | .created messageId channelIds createdAt, s =>
      (Messages.createNotificationTasks messageId channelIds createdAt s).2
  | .removed id, s => (Removal.task id).apply s

abbrev AttemptEvent := Event TaskCall Choice Meanwhile

/-- Any number of attempts of the worker and of manual calls. -/
def attempts : System TaskCall Store Choice Meanwhile Op Answer ApiError Unit where
  start := TaskCall.program
  exec := exec
  env := Meanwhile.apply

/-- The update is the record of a delivery, or it is not applied to a row that
is `SENT`. -/
def KeepsRecord (s : Store) (c : Choice) : Op → Prop
  | .updateTask id data => data.status ≠ .sent →
      (exec c (.updateTask id data) s).1.isOk = true → ∀ t ∈ s.tasks, t.id = id → t.status ≠ .sent
  | _ => True

instance (s : Store) (c : Choice) : DecidablePred (KeepsRecord s c)
  | .updateTask id data => inferInstanceAs (Decidable (data.status ≠ .sent →
      (exec c (.updateTask id data) s).1.isOk = true →
        ∀ t ∈ s.tasks, t.id = id → t.status ≠ .sent))
  | .findTaskWithRelations _ => .isTrue trivial
  | .startSend _ _ _ => .isTrue trivial
  | .finishSend => .isTrue trivial
  | .now => .isTrue trivial
  | .emit _ => .isTrue trivial

def RecordKept (P : TaskPool) : AttemptEvent → Prop
  | .perform index choice => ∀ op ∈ P.awaited? index, KeepsRecord P.store choice op
  | _ => True

instance (P : TaskPool) (e : AttemptEvent) : Decidable (RecordKept P e) :=
  match e with
  | .perform index choice =>
      inferInstanceAs (Decidable (∀ op ∈ P.awaited? index, KeepsRecord P.store choice op))
  | .spawn _ => .isTrue trivial
  | .env _ => .isTrue trivial

/-! ## The updates -/

/-- One of the three updates of an attempt. -/
def Shaped : Op → Prop
  | .updateTask _ data => data = setProcessing ∨ (∃ time, data = setSent time) ∨
      ∃ message, data = setFailed message
  | _ => True

theorem processTask_awaits (id : Id) : (processTask id).Awaits Shaped := by
  refine Program.Awaits.bind (Program.awaits_await trivial) fun found => ?_
  cases found with
  | none => exact trivial
  | some task =>
      refine Program.Awaits.bind (Program.awaits_await (Or.inl rfl)) fun _ => ?_
      refine Program.Awaits.handle ?_ fun error => ?_
      · rw [factoryGet_eq]
        refine Program.Awaits.bind (Program.awaits_ret _) fun provider => ?_
        refine Program.Awaits.bind (Program.Awaits.bind (Program.awaits_await trivial) fun _ =>
          Program.awaits_await trivial) fun _ => ?_
        refine Program.Awaits.bind (Program.awaits_await trivial) fun time => ?_
        refine Program.Awaits.bind (Program.awaits_await (Or.inr (Or.inl ⟨time, rfl⟩))) fun _ => ?_
        exact Program.awaits_await trivial
      · refine Program.Awaits.bind (Program.awaits_await (Or.inr (Or.inr ⟨_, rfl⟩))) fun _ => ?_
        exact Program.Awaits.bind (Program.awaits_await trivial) fun _ => trivial

theorem program_awaits (l : TaskCall) : l.program.Awaits Shaped := by
  obtain ⟨caller, id⟩ := l
  cases caller with
  | worker => exact processTask_awaits id
  | manual =>
      refine (processTask_awaits id).handle fun error => ?_
      split_ifs <;> exact trivial

/-- An update of an attempt keeps a row consistent unless it takes the place of
the record of a delivery. -/
theorem apply_consistent_iff {data : TaskUpdate} {id : Id} (hshaped : Shaped (.updateTask id data))
    {t : NotificationTask} (ht : Consistent t) :
    Consistent (data.apply t) ↔ (data.status ≠ .sent → t.status ≠ .sent) := by
  have hsentAt : t.status ≠ .sent → t.sentAt = none := fun hne =>
    Option.not_isSome_iff_eq_none.mp fun hsome => hne (ht.sentAt hsome)
  rcases hshaped with rfl | ⟨time, rfl⟩ | ⟨message, rfl⟩
  · constructor
    · intro hconsistent _ hsent
      have hstatus := hconsistent.sentAt (ht.sent hsent).1
      cases hstatus
    · intro hnot
      have hnone := hsentAt (hnot (by decide))
      refine ⟨fun h => (by cases h), fun h => (by cases h), fun h => (by cases h), fun h => ?_⟩
      have hsome : t.sentAt.isSome = true := h
      rw [hnone] at hsome
      cases hsome
  · refine ⟨fun _ hne => absurd rfl hne, fun _ => ?_⟩
    exact ⟨fun h => (by cases h), fun _ => ⟨rfl, rfl⟩, fun h => (by cases h), fun _ => rfl⟩
  · constructor
    · intro hconsistent _ hsent
      have hstatus := hconsistent.sentAt (ht.sent hsent).1
      cases hstatus
    · intro hnot
      have hnone := hsentAt (hnot fun h => by cases h)
      refine ⟨fun h => (by cases h), fun h => (by cases h), fun _ => ⟨rfl, hnone⟩, fun h => ?_⟩
      have hsome : t.sentAt.isSome = true := h
      rw [hnone] at hsome
      cases hsome

theorem exec_consistent_iff {c : Choice} {op : Op} {s : Store} (hshaped : Shaped op)
    (hs : ∀ t ∈ s.tasks, Consistent t) :
    (∀ t ∈ (exec c op s).2.tasks, Consistent t) ↔ KeepsRecord s c op := by
  cases op with
  | updateTask id data =>
      have hsame : ∀ e, (∀ t ∈ s.tasks, Consistent t) ↔ (data.status ≠ .sent →
          (.error e : Except ApiError Unit).isOk = true →
            ∀ t ∈ s.tasks, t.id = id → t.status ≠ .sent) := fun e =>
        iff_of_true hs fun _ hok => by cases hok
      rw [KeepsRecord, exec]
      rcases c.query_cases s (if (s.task? id).isSome then (.ok (), updateTaskRow s id data)
        else (.error recordNotFound, s)) with ⟨e, -, heq⟩ | ⟨-, heq⟩ <;> rw [heq]
      · exact hsame e
      · split_ifs with hrow
        · simp only [updateTaskRow, List.mem_map, forall_exists_index, and_imp,
            forall_apply_eq_imp_iff₂]
          constructor
          · intro hall hne _ t ht hid
            have hconsistent := hall t ht
            rw [if_pos hid] at hconsistent
            exact (apply_consistent_iff hshaped (hs t ht)).mp hconsistent hne
          · intro hkeeps t ht
            split_ifs with hid
            · exact (apply_consistent_iff hshaped (hs t ht)).mpr fun hne => hkeeps hne rfl t ht hid
            · exact hs t ht
        · exact hsame recordNotFound
  | findTaskWithRelations id =>
      refine iff_of_true ?_ trivial
      rw [exec]
      rcases c.query_cases s (.ok (taskWithRelations? s id), s) with ⟨e, -, heq⟩ | ⟨-, heq⟩ <;>
        rw [heq] <;> exact hs
  | startSend provider config payload => exact iff_of_true hs trivial
  | finishSend => exact iff_of_true hs trivial
  | now => exact iff_of_true hs trivial
  | emit event => exact iff_of_true hs trivial

theorem Meanwhile.consistent (change : Meanwhile) {s : Store} (hs : ∀ t ∈ s.tasks, Consistent t) :
    ∀ t ∈ (change.apply s).tasks, Consistent t := by
  cases change with
  | removed id => exact fun t ht => hs t (List.mem_filter.mp ht).1
  | created messageId channelIds createdAt =>
      obtain ⟨rows, heq, -, hrows, -⟩ :=
        Messages.insertTasks_spec messageId createdAt channelIds s
      intro t ht
      rw [Meanwhile.apply, Messages.createNotificationTasks, heq] at ht
      dsimp only at ht
      split_ifs at ht
      · rcases List.mem_append.mp ht with ht | ht
        · exact hs t ht
        · rw [hrows t ht]
          exact (untouched_taskRow _ _ _ _).consistent
      · exact hs t ht

/-! ## Every run -/

theorem awaits_shaped {allowed : TaskPool → AttemptEvent → Prop} {P₀ P : TaskPool}
    (hinit : P₀.calls = []) (hrun : attempts.Run allowed P₀ P) {index : ℕ} {op : Op}
    (hop : P.awaited? index = some op) : Shaped op := by
  obtain ⟨call, next, hget, hrest⟩ := Pool.exists_of_awaited? hop
  have hawaits := hrun.awaits hinit (fun _ l _ => program_awaits l) call
    (List.mem_of_getElem? hget)
  rw [hrest] at hawaits
  exact hawaits.1

/-- From untouched rows the rows stay consistent along every run in which no attempt
takes the place of a delivery that is on record, and a step that does so leaves
a row that is not consistent. -/
theorem tasks_consistent {P₀ : TaskPool} (hinit : P₀.calls = [])
    (huntouched : ∀ t ∈ P₀.store.tasks, Untouched t) :
    (∀ P, attempts.Run RecordKept P₀ P → ∀ t ∈ P.store.tasks, Consistent t) ∧
      ∀ allowed P, attempts.Run allowed P₀ P → (∀ t ∈ P.store.tasks, Consistent t) → ∀ e,
        ((∀ t ∈ (attempts.step P e).store.tasks, Consistent t) ↔ RecordKept P e) := by
  have hstep : ∀ allowed P, attempts.Run allowed P₀ P → (∀ t ∈ P.store.tasks, Consistent t) →
      ∀ e, ((∀ t ∈ (attempts.step P e).store.tasks, Consistent t) ↔ RecordKept P e) := by
    intro allowed P hrun hP e
    cases e with
    | spawn label => exact iff_of_true hP trivial
    | env change => exact iff_of_true (change.consistent hP) trivial
    | perform index choice =>
        cases hop : P.awaited? index with
        | none =>
            rw [attempts.step_of_not_awaited hop]
            exact iff_of_true hP fun op hsome => by rw [hop] at hsome; cases hsome
        | some op =>
            obtain ⟨call, next, -, -, hafter⟩ := attempts.step_of_awaited hop choice
            rw [hafter]
            refine (exec_consistent_iff (awaits_shaped hinit hrun hop) hP).trans ?_
            simp [RecordKept, hop]
  refine ⟨fun P hrun => ?_, hstep⟩
  refine Machine.Run.invariant hrun (fun P => ∀ t ∈ P.store.tasks, Consistent t) ?_ ?_
  · exact fun t ht => (huntouched t ht).consistent
  · exact fun P e hrun hP he => (hstep RecordKept P hrun hP e).mpr he

/-! ## A delivery that is taken back -/

def performs (index count : ℕ) : List AttemptEvent :=
  List.replicate count (.perform index calm)

/-- One attempt, to its end. -/
def attempted (caller : Caller) (index : ℕ) : List AttemptEvent :=
  .spawn ⟨caller, 4⟩ :: performs index 7

theorem untouched_oneTask : ∀ t ∈ oneTask.tasks, Untouched t := by
  intro t ht
  obtain rfl := List.mem_singleton.mp ht
  exact ⟨rfl, rfl, rfl, rfl⟩

theorem tasks_consistent_attempted :
    rowStatus (attempts.runList ⟨oneTask, []⟩ (attempted .worker 0)).store 4 = some .sent ∧
      ∀ t ∈ (attempts.runList ⟨oneTask, []⟩ (attempted .worker 0)).store.tasks, Consistent t :=
  ⟨by decide, (tasks_consistent rfl untouched_oneTask).1 _ (Machine.Run.refl.list (by decide))⟩

/-- The worker delivers the message, and a manual call runs the task again. -/
def rerun : TaskPool :=
  attempts.runList ⟨oneTask, []⟩ (attempted .worker 0 ++ .spawn ⟨.manual, 4⟩ :: performs 1 2)

theorem rerun_inconsistent :
    attempts.Run (fun _ _ => True) ⟨oneTask, []⟩ rerun ∧
      ∃ t ∈ rerun.store.tasks,
        t.status = .processing ∧ t.sentAt.isSome = true ∧ ¬ Consistent t := by
  have hrow : ⟨4, 2, 3, .processing, 2, none, some 1000, 0⟩ ∈ rerun.store.tasks := by decide
  refine ⟨Machine.Run.refl.list ?_, _, hrow, rfl, rfl, fun h => ?_⟩
  · simp [Machine.AllowedList, attempted, performs, List.replicate]
  · cases h.sentAt rfl

end SocialMonitor.Notifications

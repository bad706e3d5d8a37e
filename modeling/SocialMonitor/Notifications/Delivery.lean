import SocialMonitor.Notifications.Task
import SocialMonitor.Queue

/-!
# At most one delivery

Calls of `processTask` and `dispatch` interleave over the task table.  The
queue runs a job until a run returns or five runs have thrown, and may run it
again while an earlier run is stalled.  `dispatch` may be called at any time,
and a row may vanish with its message or channel.
-/

namespace SocialMonitor.Notifications

open Async

/-! ## The runs of the queue and of manual calls -/

inductive Caller where
  | worker
  | manual
deriving DecidableEq

structure TaskCall where
  caller : Caller
  taskId : Id
deriving DecidableEq

def TaskCall.program : TaskCall → Api Unit
  | ⟨.worker, id⟩ => processTask id
  | ⟨.manual, id⟩ => dispatch id

/-- The row of a task is removed with its message or its channel. -/
inductive Removal where
  | task (id : Id)

def Removal.apply : Removal → Store → Store
  | .task id, s => { s with tasks := s.tasks.filter fun t => t.id ≠ id }

abbrev History := List (Entry Op Answer ApiError)

abbrev RunningCall := Call TaskCall Op Answer ApiError Unit

abbrev TaskPool := Pool TaskCall Store Op Answer ApiError Unit

abbrev TaskEvent := Event TaskCall Choice Removal

def system : System TaskCall Store Choice Removal Op Answer ApiError Unit where
  start := TaskCall.program
  exec := exec
  env := Removal.apply

def jobRuns (P : TaskPool) (id : Id) : List RunningCall :=
  P.calls.filter fun c => c.label = ⟨.worker, id⟩

def hasThrown (c : RunningCall) : Bool :=
  match c.outcome? with
  | some (.error _) => true
  | _ => false

def hasReturned (c : RunningCall) : Bool :=
  match c.outcome? with
  | some (.ok _) => true
  | _ => false

/-- The queue may run the job: no run has returned and fewer than five have
thrown.  A run still in progress is taken for stalled. -/
def QueueRuns (P : TaskPool) (id : Id) : Prop :=
  (∀ c ∈ jobRuns P id, hasReturned c = false) ∧
    ((jobRuns P id).filter hasThrown).length < Queue.jobAttempts

instance (P : TaskPool) (id : Id) : Decidable (QueueRuns P id) :=
  inferInstanceAs (Decidable (_ ∧ _))

def Admitted (P : TaskPool) : TaskEvent → Prop
  | .spawn ⟨.worker, id⟩ => QueueRuns P id
  | _ => True

instance : ∀ P e, Decidable (Admitted P e)
  | P, .spawn ⟨.worker, id⟩ => inferInstanceAs (Decidable (QueueRuns P id))
  | _, .spawn ⟨.manual, _⟩ => inferInstanceAs (Decidable True)
  | _, .perform _ _ => inferInstanceAs (Decidable True)
  | _, .env _ => inferInstanceAs (Decidable True)

/-! ## What a history tells -/

def writes (id : Id) : Entry Op Answer ApiError → Option NotificationStatus
  | ⟨.updateTask id' data, .ok _⟩ => if id' = id then some data.status else none
  | _ => none

def delivers : Entry Op Answer ApiError → Bool
  | ⟨.finishSend, .ok _⟩ => true
  | _ => false

def losesRecord (id : Id) : Entry Op Answer ApiError → Bool
  | ⟨.updateTask id' data, .error _⟩ => id' = id && data.status = .sent
  | _ => false

def Claimed (id : Id) (h : History) : Prop := ∃ e ∈ h, writes id e = some .processing

def Delivered (h : History) : Prop := ∃ e ∈ h, delivers e

def Recorded (id : Id) (h : History) : Prop := ∃ e ∈ h, writes id e = some .sent

def RecordLost (id : Id) (h : History) : Prop := ∃ e ∈ h, losesRecord id e

instance (id : Id) (h : History) : Decidable (Claimed id h) :=
  inferInstanceAs (Decidable (∃ e ∈ h, writes id e = some .processing))

@[simp] theorem not_claimed_nil {id : Id} : ¬ Claimed id [] := by simp [Claimed]

@[simp] theorem not_delivered_nil : ¬ Delivered [] := by simp [Delivered]

@[simp] theorem not_recorded_nil {id : Id} : ¬ Recorded id [] := by simp [Recorded]

@[simp] theorem not_recordLost_nil {id : Id} : ¬ RecordLost id [] := by simp [RecordLost]

@[simp] theorem claimed_cons {id : Id} {e : Entry Op Answer ApiError} {h : History} :
    Claimed id (e :: h) ↔ writes id e = some .processing ∨ Claimed id h := by
  simp [Claimed]

@[simp] theorem delivered_cons {e : Entry Op Answer ApiError} {h : History} :
    Delivered (e :: h) ↔ delivers e ∨ Delivered h := by
  simp [Delivered]

@[simp] theorem recorded_cons {id : Id} {e : Entry Op Answer ApiError} {h : History} :
    Recorded id (e :: h) ↔ writes id e = some .sent ∨ Recorded id h := by
  simp [Recorded]

@[simp] theorem recordLost_cons {id : Id} {e : Entry Op Answer ApiError} {h : History} :
    RecordLost id (e :: h) ↔ losesRecord id e ∨ RecordLost id h := by
  simp [RecordLost]

/-- Between the claim of the task and the end of the call. -/
def Working (id : Id) (c : RunningCall) : Prop :=
  c.label.taskId = id ∧ Claimed id c.history ∧ c.Running

instance (id : Id) (c : RunningCall) : Decidable (Working id c) :=
  inferInstanceAs (Decidable (_ ∧ _ ∧ _))

/-! ## The order of the operations of one call -/

def Possible : (op : Op) → Except ApiError (Answer op) → Prop
  | .startSend _ _ _, r => r = .ok ()
  | .now, r => ∃ time, r = .ok time
  | .emit _, r => r = .ok ()
  | _, _ => True

theorem exec_possible (c : Choice) (op : Op) (s : Store) : Possible op (exec c op s).1 := by
  cases op <;> simp [Possible, exec]

/-- What has happened in a call before it awaits an operation. -/
def Protocol (id : Id) (h : History) : Op → Prop
  | .updateTask id' data => id' = id ∧
      ((data.status = .processing ∧ ¬ Claimed id h ∧ ¬ Delivered h) ∨
        (data.status = .sent ∧ Claimed id h ∧ ¬ Recorded id h) ∨
          (data.status = .failed ∧ Claimed id h ∧ ¬ Recorded id h ∧
            (Delivered h → RecordLost id h)))
  | .startSend _ _ _ => Claimed id h ∧ ¬ Delivered h ∧ ¬ Recorded id h
  | .finishSend => Claimed id h ∧ ¬ Recorded id h
  | _ => True

/-- A call that ended after a delivery has tried to record it. -/
def Done (id : Id) (h : History) (_ : Except ApiError Unit) : Prop :=
  Delivered h → Recorded id h ∨ RecordLost id h

/-- Where a call stands when its attempt has failed. -/
def Failed (id : Id) (h : History) (_ : ApiError) : Prop :=
  Claimed id h ∧ ¬ Recorded id h ∧ (Delivered h → RecordLost id h)

theorem processTask_conforms (id : Id) :
    (processTask id).Conforms Possible (Protocol id) (Done id) [] := by
  simp only [processTask, findTaskWithRelations, updateTask, Program.bind_def,
    Program.tryCatch_def, Program.throw_def, Program.await, Program.obeys_bind,
    Program.conforms_call, Program.ofExcept_error, Program.ofExcept_ok, Program.obeys_ret,
    Program.obeys_raise, Program.Andthen]
  refine ⟨trivial, by simp [Done, delivers], ?_⟩
  rintro (_ | task) -
  · simp [Done, delivers]
  simp only [Program.obeys_bind, Program.conforms_call, Program.ofExcept_error,
    Program.ofExcept_ok, Program.obeys_ret, Program.obeys_raise, Program.Andthen]
  refine ⟨by simp [Protocol, setProcessing, writes, delivers], by simp [Done, delivers], ?_⟩
  intro answer _
  refine Program.Obeys.handle (Failed id) ?_ ?_
  · simp only [send, now, emit, factoryGet_eq, Program.bind_def, Program.await,
      Program.obeys_bind, Program.obeys_ret, Program.obeys_raise, Program.conforms_call,
      Program.ofExcept_error, Program.ofExcept_ok, Program.Andthen, Program.Orfail]
    simp [Protocol, Done, Failed, Possible, writes, delivers, losesRecord, setProcessing, setSent]
  · rintro h error ⟨hclaimed, hrec, hlost⟩
    simp only [emit, Program.await, Program.obeys_bind, Program.obeys_ret, Program.obeys_raise,
      Program.conforms_call, Program.ofExcept_error, Program.ofExcept_ok, Program.Andthen]
    simpa [Protocol, Done, Possible, writes, delivers, losesRecord, setFailed, hclaimed, hrec]
      using ⟨hlost, fun _ => hlost, hlost⟩

theorem dispatch_conforms (id : Id) :
    (dispatch id).Conforms Possible (Protocol id) (Done id) [] := by
  simp only [Program.Conforms, dispatch, Program.tryCatch_def, Program.obeys_handle]
  refine (processTask_conforms id).mono (fun _ _ h => h) ?_
  rintro h (error | _) hdone
  · simp only [Program.Orelse]
    split <;> exact hdone
  · exact hdone

theorem program_conforms (l : TaskCall) :
    l.program.Conforms Possible (Protocol l.taskId) (Done l.taskId) [] := by
  obtain ⟨caller, id⟩ := l
  cases caller with
  | worker => exact processTask_conforms id
  | manual => exact dispatch_conforms id

/-! ## The row of a task -/

def rowStatus (s : Store) (id : Id) : Option NotificationStatus :=
  (s.task? id).map NotificationTask.status

/-- An operation writes the status of a row exactly as its entry tells. -/
theorem rowStatus_exec (c : Choice) (op : Op) (s : Store) (id : Id) :
    rowStatus (exec c op s).2 id =
      (writes id ⟨op, (exec c op s).1⟩).or (rowStatus s id) := by
  cases op with
  | updateTask id' data =>
      simp only [exec]
      rcases c.query_cases s (if (s.task? id').isSome then (.ok (), updateTaskRow s id' data)
        else (.error recordNotFound, s)) with ⟨error, -, heq⟩ | ⟨-, heq⟩
      · rw [heq]
        simp [writes]
      · rw [heq]
        split_ifs with hrow
        · by_cases hid : id' = id
          · subst hid
            obtain ⟨row, hrow⟩ := Option.isSome_iff_exists.mp hrow
            simp [writes, rowStatus, task?_updateTaskRow, hrow, TaskUpdate.apply]
          · simp [writes, hid, rowStatus, task?_updateTaskRow, Ne.symm hid]
        · simp [writes]
  | findTaskWithRelations id' =>
      rcases c.query_cases s (.ok (taskWithRelations? s id'), s) with ⟨error, -, heq⟩ | ⟨-, heq⟩ <;>
        simp [exec, heq, writes]
  | startSend _ _ _ => simp [exec, writes]
  | finishSend => simp [exec, writes]
  | now => simp [exec, writes]
  | emit event => simp [exec, writes, rowStatus, Store.task?]

theorem rowStatus_removal (r : Removal) (s : Store) (id : Id) :
    rowStatus (r.apply s) id = none ∨ rowStatus (r.apply s) id = rowStatus s id := by
  obtain ⟨id'⟩ := r
  unfold rowStatus Store.task? Removal.apply
  rw [List.find?_filter]
  by_cases hid : id = id'
  · left
    simp +contextual [hid]
  · right
    congr 2
    funext t
    by_cases ht : t.id = id <;> simp [ht, hid]

/-! ## The invariant -/

/-- What holds of one task: one call at a time works on it, a delivery is on
record or is the next thing its call records, and while a call works towards
its record the row is not `SENT` and no other call has delivered. -/
structure TaskInv (id : Id) (P : TaskPool) : Prop where
  single : ∀ (i j : ℕ) (ci cj : RunningCall), P.calls[i]? = some ci → P.calls[j]? = some cj →
    Working id ci → Working id cj → i = j
  delivered : ∀ (i : ℕ) (c : RunningCall), P.calls[i]? = some c → c.label.taskId = id →
    Delivered c.history → (rowStatus P.store id = none ∨ rowStatus P.store id = some .sent) ∨
      (Working id c ∧ ¬ Recorded id c.history)
  unrecorded : ∀ (i : ℕ) (c : RunningCall), P.calls[i]? = some c → Working id c →
    ¬ Recorded id c.history → rowStatus P.store id ≠ some .sent
  alone : ∀ (i j : ℕ) (c cj : RunningCall), P.calls[i]? = some c → Working id c →
    ¬ Recorded id c.history → P.calls[j]? = some cj → cj.label.taskId = id →
      Delivered cj.history → i = j
  kept : ∀ (i : ℕ) (c : RunningCall), P.calls[i]? = some c → c.label.taskId = id →
    ¬ RecordLost id c.history

/-- The operation does not reach the defects: an update to `PROCESSING` is
applied only while the row is not `SENT` and no other call works on the task,
and an update to `SENT` does not fail. -/
def OrderlyOp (P : TaskPool) (index : ℕ) (choice : Choice) : Op → Prop
  | .updateTask id data =>
      let applied := (exec choice (.updateTask id data) P.store).1.isOk
      (data.status = .processing → applied →
        rowStatus P.store id ≠ some .sent ∧
          ∀ other ∈ P.calls.eraseIdx index, ¬ Working id other) ∧
      (data.status = .sent → applied)
  | _ => True

instance (P : TaskPool) (index : ℕ) (choice : Choice) :
    DecidablePred (OrderlyOp P index choice)
  | .updateTask _ _ => inferInstanceAs (Decidable (_ ∧ _))
  | .findTaskWithRelations _ => inferInstanceAs (Decidable True)
  | .startSend _ _ _ => inferInstanceAs (Decidable True)
  | .finishSend => inferInstanceAs (Decidable True)
  | .now => inferInstanceAs (Decidable True)
  | .emit _ => inferInstanceAs (Decidable True)

def Orderly (P : TaskPool) : TaskEvent → Prop
  | .perform index choice => ∀ op ∈ P.awaited? index, OrderlyOp P index choice op
  | _ => True

instance : ∀ P e, Decidable (Orderly P e)
  | _, .spawn _ => inferInstanceAs (Decidable True)
  | _, .env _ => inferInstanceAs (Decidable True)
  | _, .perform _ _ => inferInstanceAs (Decidable (∀ _ ∈ _, _))

section Step

variable {id : Id} {P : TaskPool} {s' : Store} {index : ℕ} {call c' : RunningCall}
  {e : Entry Op Answer ApiError}

/-- The call at `index` has gone on by the entry `e`. -/
structure Went (P : TaskPool) (s' : Store) (index : ℕ) (call c' : RunningCall)
    (e : Entry Op Answer ApiError) (id : Id) : Prop where
  get : P.calls[index]? = some call
  running : call.Running
  label : c'.label = call.label
  history : c'.history = e :: call.history
  status : rowStatus s' id = (writes id e).or (rowStatus P.store id)

theorem Went.calls (hw : Went P s' index call c' e id) {j : ℕ} {c : RunningCall}
    (h : (P.calls.set index c')[j]? = some c) :
    (j = index ∧ c = c') ∨ (j ≠ index ∧ P.calls[j]? = some c) := by
  have hlt : index < P.calls.length := (List.getElem?_eq_some_iff.mp hw.get).1
  by_cases hj : index = j
  · subst hj
    rw [List.getElem?_set_self hlt] at h
    exact Or.inl ⟨rfl, (Option.some.inj h).symm⟩
  · rw [List.getElem?_set_ne hj] at h
    exact Or.inr ⟨Ne.symm hj, h⟩

/-- Unless the entry is a claim, who works now has worked before. -/
theorem Went.worked (hw : Went P s' index call c' e id) (he : writes id e ≠ some .processing)
    {j : ℕ} {c : RunningCall} (h : (P.calls.set index c')[j]? = some c) (hc : Working id c) :
    ∃ c₀, P.calls[j]? = some c₀ ∧ Working id c₀ ∧
      (Recorded id c₀.history → Recorded id c.history) := by
  rcases hw.calls h with ⟨rfl, rfl⟩ | ⟨-, hget⟩
  · obtain ⟨hid, hclaimed, -⟩ := hc
    rw [hw.history, claimed_cons] at hclaimed
    refine ⟨call, hw.get, ⟨hw.label ▸ hid, hclaimed.resolve_left he, hw.running⟩, ?_⟩
    intro hrec
    rw [hw.history, recorded_cons]
    exact Or.inr hrec
  · exact ⟨c, hget, hc, fun h => h⟩

theorem Went.single (hw : Went P s' index call c' e id) (hinv : TaskInv id P)
    (he : writes id e ≠ some .processing) :
    ∀ (i j : ℕ) (ci cj : RunningCall), (P.calls.set index c')[i]? = some ci →
      (P.calls.set index c')[j]? = some cj → Working id ci → Working id cj → i = j := by
  intro i j ci cj hi hj hci hcj
  obtain ⟨_, hi₀, hci₀, -⟩ := hw.worked he hi hci
  obtain ⟨_, hj₀, hcj₀, -⟩ := hw.worked he hj hcj
  exact hinv.single _ _ _ _ hi₀ hj₀ hci₀ hcj₀

theorem Went.kept (hw : Went P s' index call c' e id) (hinv : TaskInv id P)
    (he : losesRecord id e = false) :
    ∀ (j : ℕ) (c : RunningCall), (P.calls.set index c')[j]? = some c → c.label.taskId = id →
      ¬ RecordLost id c.history := by
  intro j c h hid
  rcases hw.calls h with ⟨rfl, rfl⟩ | ⟨-, hget⟩
  · rw [hw.history, recordLost_cons, he]
    simpa using hinv.kept _ _ hw.get (hw.label ▸ hid)
  · exact hinv.kept _ _ hget hid

theorem Went.alone (hw : Went P s' index call c' e id) (hinv : TaskInv id P)
    (he : writes id e ≠ some .processing)
    (hdelivers : delivers e → call.label.taskId = id → Claimed id call.history) :
    ∀ (i j : ℕ) (c cj : RunningCall), (P.calls.set index c')[i]? = some c → Working id c →
      ¬ Recorded id c.history → (P.calls.set index c')[j]? = some cj →
        cj.label.taskId = id → Delivered cj.history → i = j := by
  intro i j c cj hi hc hrec hj hid hdel
  obtain ⟨c₀, hi₀, hc₀, hmono⟩ := hw.worked he hi hc
  have hrec₀ : ¬ Recorded id c₀.history := fun h => hrec (hmono h)
  rcases hw.calls hj with ⟨rfl, rfl⟩ | ⟨-, hget⟩
  · rw [hw.label] at hid
    rw [hw.history, delivered_cons] at hdel
    rcases hdel with hdel | hdel
    · exact hinv.single _ _ _ _ hi₀ hw.get hc₀ ⟨hid, hdelivers hdel hid, hw.running⟩
    · exact hinv.alone _ _ _ _ hi₀ hc₀ hrec₀ hw.get hid hdel
  · exact hinv.alone _ _ _ _ hi₀ hc₀ hrec₀ hget hid hdel

theorem TaskInv.other (hinv : TaskInv id P) (hw : Went P s' index call c' e id)
    (hid : call.label.taskId ≠ id) (he : writes id e = none) :
    TaskInv id ⟨s', P.calls.set index c'⟩ := by
  have hcalls : ∀ {j : ℕ} {c : RunningCall}, (P.calls.set index c')[j]? = some c →
      c.label.taskId = id → P.calls[j]? = some c := by
    intro j c h hc
    rcases hw.calls h with ⟨-, rfl⟩ | ⟨-, hget⟩
    · exact absurd (hw.label ▸ hc) hid
    · exact hget
  have hstatus : rowStatus s' id = rowStatus P.store id := by simpa [he] using hw.status
  constructor
  · intro i j ci cj hi hj hci hcj
    exact hinv.single _ _ _ _ (hcalls hi hci.1) (hcalls hj hcj.1) hci hcj
  · intro j c h hc hdel
    simpa only [hstatus] using hinv.delivered _ _ (hcalls h hc) hc hdel
  · intro j c h hc hrec
    simpa only [hstatus] using hinv.unrecorded _ _ (hcalls h hc.1) hc hrec
  · exact hw.alone hinv (by simp [he]) fun _ h => absurd h hid
  · intro j c h hc
    exact hinv.kept _ _ (hcalls h hc) hc

/-- A step that writes no row; it may be the delivery. -/
theorem TaskInv.quiet (hinv : TaskInv id P) (hw : Went P s' index call c' e id)
    (hid : call.label.taskId = id) (he : writes id e = none) (hlost : losesRecord id e = false)
    (hdelivers : delivers e → Claimed id call.history ∧ ¬ Recorded id call.history)
    (hdone : ¬ c'.Running → Delivered c'.history →
      Recorded id c'.history ∨ RecordLost id c'.history) :
    TaskInv id ⟨s', P.calls.set index c'⟩ := by
  have hstatus : rowStatus s' id = rowStatus P.store id := by simpa [he] using hw.status
  have hkept := hw.kept hinv hlost
  refine ⟨hw.single hinv (by simp [he]), ?_, ?_,
    hw.alone hinv (by simp [he]) fun h _ => (hdelivers h).1, hkept⟩
  · intro j c h hc hdel
    rcases hw.calls h with ⟨rfl, rfl⟩ | ⟨-, hget⟩
    · have hlive : ¬ Recorded id c.history → c.Running := by
        intro hrec
        by_contra hrun
        exact (hdone hrun hdel).elim hrec (hkept _ _ h hc)
      have hback : (Claimed id call.history ∧ ¬ Recorded id call.history) →
          Working id c ∧ ¬ Recorded id c.history := by
        rintro ⟨hclaimed, hrec⟩
        have hrec' : ¬ Recorded id c.history := by
          rw [hw.history, recorded_cons]
          simp [he, hrec]
        exact ⟨⟨hc, by rw [hw.history, claimed_cons]; exact Or.inr hclaimed, hlive hrec'⟩, hrec'⟩
      rw [hw.history, delivered_cons] at hdel
      rcases hdel with hdel | hdel
      · exact Or.inr (hback (hdelivers hdel))
      · rcases hinv.delivered _ _ hw.get hid hdel with hrow | ⟨hwork, hrec⟩
        · exact Or.inl (by simpa only [hstatus] using hrow)
        · exact Or.inr (hback ⟨hwork.2.1, hrec⟩)
    · simpa only [hstatus] using hinv.delivered _ _ hget hc hdel
  · intro j c h hc hrec
    obtain ⟨c₀, hget, hc₀, hmono⟩ := hw.worked (by simp [he]) h hc
    simpa only [hstatus] using hinv.unrecorded _ _ hget hc₀ fun hrec₀ => hrec (hmono hrec₀)

/-- The claim: it is applied to a row that is not `SENT` while nobody else
works on the task. -/
theorem TaskInv.claim (hinv : TaskInv id P) (hw : Went P s' index call c' e id)
    (he : writes id e = some .processing) (hlost : losesRecord id e = false)
    (hdel : ¬ Delivered c'.history) (hrow : rowStatus P.store id ≠ none)
    (hsent : rowStatus P.store id ≠ some .sent)
    (hfree : ∀ (j : ℕ) other, j ≠ index → P.calls[j]? = some other → ¬ Working id other) :
    TaskInv id ⟨s', P.calls.set index c'⟩ := by
  have hstatus : rowStatus s' id = some .processing := by simpa [he] using hw.status
  have honly : ∀ {j : ℕ} {c : RunningCall}, (P.calls.set index c')[j]? = some c →
      Working id c → j = index := by
    intro j c h hc
    rcases hw.calls h with ⟨rfl, -⟩ | ⟨hne, hget⟩
    · rfl
    · exact absurd hc (hfree _ _ hne hget)
  have hnobody : ∀ {j : ℕ} {c : RunningCall}, (P.calls.set index c')[j]? = some c →
      c.label.taskId = id → ¬ Delivered c.history := by
    intro j c h hc hdelc
    rcases hw.calls h with ⟨rfl, rfl⟩ | ⟨hne, hget⟩
    · exact hdel hdelc
    · rcases hinv.delivered _ _ hget hc hdelc with (hnone | hsome) | ⟨hwork, -⟩
      · exact hrow hnone
      · exact hsent hsome
      · exact hfree _ _ hne hget hwork
  refine ⟨?_, ?_, ?_, ?_, hw.kept hinv hlost⟩
  · intro i j ci cj hi hj hci hcj
    rw [honly hi hci, honly hj hcj]
  · intro j c h hc hdelc
    exact absurd hdelc (hnobody h hc)
  · intro j c _ _ _
    simp [hstatus]
  · intro i j c cj _ _ _ hj hc hdelc
    exact absurd hdelc (hnobody hj hc)

theorem TaskInv.record (hinv : TaskInv id P) (hw : Went P s' index call c' e id)
    (hid : call.label.taskId = id) (he : writes id e = some .sent)
    (hlost : losesRecord id e = false) (hclaimed : Claimed id call.history) :
    TaskInv id ⟨s', P.calls.set index c'⟩ := by
  have hstatus : rowStatus s' id = some .sent := by simpa [he] using hw.status
  refine ⟨hw.single hinv (by simp [he]), ?_, ?_,
    hw.alone hinv (by simp [he]) fun _ _ => hclaimed, hw.kept hinv hlost⟩
  · intro j c _ _ _
    exact Or.inl (Or.inr hstatus)
  · intro j c h hc hrec
    rcases hw.calls h with ⟨rfl, rfl⟩ | ⟨hne, hget⟩
    · refine absurd ?_ hrec
      rw [hw.history, recorded_cons]
      exact Or.inl he
    · exact absurd (hinv.single _ _ _ _ hget hw.get hc ⟨hid, hclaimed, hw.running⟩) hne

theorem TaskInv.fail (hinv : TaskInv id P) (hw : Went P s' index call c' e id)
    (hid : call.label.taskId = id) (he : writes id e = some .failed)
    (hlost : losesRecord id e = false) (hdel : ¬ Delivered c'.history)
    (hclaimed : Claimed id call.history) (hrec : ¬ Recorded id call.history)
    (hrow : rowStatus P.store id ≠ none) :
    TaskInv id ⟨s', P.calls.set index c'⟩ := by
  have hstatus : rowStatus s' id = some .failed := by simpa [he] using hw.status
  have hwork : Working id call := ⟨hid, hclaimed, hw.running⟩
  refine ⟨hw.single hinv (by simp [he]), ?_, ?_,
    hw.alone hinv (by simp [he]) fun _ _ => hclaimed, hw.kept hinv hlost⟩
  · intro j c h hc hdelc
    rcases hw.calls h with ⟨rfl, rfl⟩ | ⟨hne, hget⟩
    · exact absurd hdelc hdel
    · rcases hinv.delivered _ _ hget hc hdelc with (hnone | hsome) | ⟨hwork', -⟩
      · exact absurd hnone hrow
      · exact absurd hsome (hinv.unrecorded _ _ hw.get hwork hrec)
      · exact absurd (hinv.single _ _ _ _ hget hw.get hwork' hwork) hne
  · intro j c _ _ _
    simp [hstatus]

end Step

theorem rowStatus_of_updated {c : Choice} {id : Id} {data : TaskUpdate} {s : Store}
    (h : (exec c (.updateTask id data) s).1 = .ok ()) : rowStatus s id ≠ none := by
  intro hnone
  have hrow : s.task? id = none := by simpa [rowStatus] using hnone
  have hexec : exec c (.updateTask id data) s = c.query s (.error recordNotFound, s) := by
    simp [exec, hrow]
  rw [hexec] at h
  rcases c.query_cases (α := Unit) s (.error recordNotFound, s) with ⟨error, -, heq⟩ | ⟨-, heq⟩
  · rw [heq] at h
    cases h
  · rw [heq] at h
    cases h

/-- One awaited operation of any call keeps the invariant of every task. -/
theorem TaskInv.resumed {id : Id} {P : TaskPool} {index : ℕ} {choice : Choice}
    {call : RunningCall} {op : Op} {next : Except ApiError (Answer op) → Api Unit}
    (hinv : TaskInv id P) (hget : P.calls[index]? = some call)
    (hrest : call.rest = .call op next) (horderly : Orderly P (.perform index choice))
    (hconf : call.rest.Conforms Possible (Protocol call.label.taskId)
      (Done call.label.taskId) call.history) :
    TaskInv id (system.resumed P index choice call op next) := by
  have hw : Went P (exec choice op P.store).2 index call
      ⟨call.label, ⟨op, (exec choice op P.store).1⟩ :: call.history,
        next (exec choice op P.store).1⟩ ⟨op, (exec choice op P.store).1⟩ id :=
    ⟨hget, Call.running_of_rest hrest, rfl, rfl, rowStatus_exec choice op P.store id⟩
  rw [hrest] at hconf
  obtain ⟨hproto, hnext⟩ := hconf
  have hdone := hnext _ _ ⟨exec_possible choice op P.store, rfl⟩
  by_cases hid : call.label.taskId = id
  swap
  · refine hinv.other hw hid ?_
    cases op with
    | updateTask id' data =>
        obtain ⟨rfl, -⟩ := hproto
        cases hr : (exec choice (.updateTask call.label.taskId data) P.store).1 <;>
          simp [writes, hid]
    | _ => rfl
  subst hid
  have hended : ∀ {c : RunningCall}, c.rest = next (exec choice op P.store).1 →
      c.history = ⟨op, (exec choice op P.store).1⟩ :: call.history → ¬ c.Running →
      Delivered c.history → Recorded call.label.taskId c.history ∨
        RecordLost call.label.taskId c.history := by
    intro c hc hh hrun
    obtain ⟨r, hr⟩ := Option.ne_none_iff_exists'.mp hrun
    rw [← hc, Call.outcome?_eq_some.mp hr] at hdone
    rw [hh]
    exact hdone.ended
  cases op with
  | updateTask id' data =>
      obtain ⟨rfl, hproto⟩ := hproto
      obtain ⟨hclaim, hsent⟩ := horderly _ (Pool.awaited?_eq hget hrest)
      cases hr : (exec choice (.updateTask call.label.taskId data) P.store).1 with
      | error error =>
          have hnotSent : data.status ≠ .sent := fun h => by
            simpa [hr, Except.isOk, Except.toBool] using hsent h
          exact hinv.quiet hw rfl (by rw [hr]; rfl) (by rw [hr]; simp [losesRecord, hnotSent])
            (by simp [delivers]) (hended rfl rfl)
      | ok answer =>
          have hrow := rowStatus_of_updated hr
          have hwrites : writes call.label.taskId ⟨.updateTask call.label.taskId data,
              (exec choice (.updateTask call.label.taskId data) P.store).1⟩ =
                some data.status := by
            rw [hr]
            simp [writes]
          have hlost : losesRecord call.label.taskId ⟨.updateTask call.label.taskId data,
              (exec choice (.updateTask call.label.taskId data) P.store).1⟩ = false := by
            rw [hr]
            rfl
          rcases hproto with ⟨hst, -, hdel⟩ | ⟨hst, hclaimed, -⟩ | ⟨hst, hclaimed, hrec, hdel⟩
          · obtain ⟨hne, hfree⟩ := hclaim hst (by rw [hr]; rfl)
            exact hinv.claim hw (hst ▸ hwrites) hlost (by simpa [delivers] using hdel) hrow hne
              fun j other hj hother =>
                hfree other (List.mem_eraseIdx_iff_getElem?.mpr ⟨j, hj, hother⟩)
          · exact hinv.record hw rfl (hst ▸ hwrites) hlost hclaimed
          · have hdel' : ¬ Delivered call.history := fun h => hinv.kept _ _ hget rfl (hdel h)
            exact hinv.fail hw rfl (hst ▸ hwrites) hlost (by simpa [delivers] using hdel')
              hclaimed hrec hrow
  | finishSend => exact hinv.quiet hw rfl rfl rfl (fun _ => hproto) (hended rfl rfl)
  | _ => exact hinv.quiet hw rfl rfl rfl (by simp [delivers]) (hended rfl rfl)

/-! ## Runs -/

def StartsSend (P : TaskPool) (id : Id) (e : TaskEvent) : Prop :=
  ∃ index choice call provider config payload next, e = .perform index choice ∧
    P.calls[index]? = some call ∧ call.label.taskId = id ∧
      call.rest = .call (.startSend provider config payload) next

def DeliveredBy (P : TaskPool) (id : Id) : Prop :=
  ∃ c ∈ P.calls, c.label.taskId = id ∧ Delivered c.history

instance (h : History) : Decidable (Delivered h) :=
  inferInstanceAs (Decidable (∃ e ∈ h, delivers e))

instance (P : TaskPool) (id : Id) : Decidable (DeliveredBy P id) :=
  inferInstanceAs (Decidable (∃ c ∈ P.calls, c.label.taskId = id ∧ Delivered c.history))

/-- The event starts no send for a delivered task and puts no other status in
the place of `SENT`. -/
structure DeliversOnce (P : TaskPool) (e : TaskEvent) : Prop where
  send : ∀ id, StartsSend P id e → ¬ DeliveredBy P id
  sent : ∀ id, rowStatus P.store id = some .sent →
    rowStatus (system.step P e).store id ≠ some .processing ∧
      rowStatus (system.step P e).store id ≠ some .failed

def AdmittedOrderly (P : TaskPool) (e : TaskEvent) : Prop := Admitted P e ∧ Orderly P e

instance (P : TaskPool) (e : TaskEvent) : Decidable (AdmittedOrderly P e) :=
  inferInstanceAs (Decidable (_ ∧ _))

theorem calls_conform {P₀ P : TaskPool} (hinit : P₀.calls = [])
    {allowed : TaskPool → TaskEvent → Prop} (hrun : system.Run allowed P₀ P) :
    ∀ c ∈ P.calls, c.rest.Conforms Possible (Protocol c.label.taskId) (Done c.label.taskId)
      c.history := fun c hc =>
  (hrun.conforms hinit _ program_conforms
    (fun P _ choice _ op _ _ _ _ => exec_possible choice op P.store) c hc).2

theorem taskInv_of_run {P₀ P : TaskPool} (hinit : P₀.calls = [])
    (hrun : system.Run AdmittedOrderly P₀ P) (id : Id) : TaskInv id P := by
  refine hrun.invariant (TaskInv id) ?_ ?_ ?_ ?_
  · constructor <;> simp [hinit]
  · intro P label _ hinv _
    have hcalls : ∀ {j : ℕ} {c : RunningCall},
        (system.step P (.spawn label)).calls[j]? = some c → c.history = [] ∨
          P.calls[j]? = some c := by
      intro j c h
      rw [System.step, List.getElem?_append] at h
      split_ifs at h
      · exact Or.inr h
      · obtain ⟨-, rfl⟩ := List.getElem?_eq_some_iff.mp h
        exact Or.inl (by simp [System.spawned])
    have hworking : ∀ {j : ℕ} {c : RunningCall},
        (system.step P (.spawn label)).calls[j]? = some c → Working id c →
          P.calls[j]? = some c := by
      intro j c h hc
      refine (hcalls h).resolve_left fun hnil => ?_
      simpa [Claimed, hnil] using hc.2.1
    constructor
    · intro i j ci cj hi hj hci hcj
      exact hinv.single _ _ _ _ (hworking hi hci) (hworking hj hcj) hci hcj
    · intro j c h hc hdel
      rcases hcalls h with hnil | hget
      · simp [Delivered, hnil] at hdel
      · exact hinv.delivered _ _ hget hc hdel
    · intro j c h hc hrec
      exact hinv.unrecorded _ _ (hworking h hc) hc hrec
    · intro i j c cj hi hc hrec hj hid hdel
      rcases hcalls hj with hnil | hget
      · simp [Delivered, hnil] at hdel
      · exact hinv.alone _ _ _ _ (hworking hi hc) hc hrec hget hid hdel
    · intro j c h hc
      rcases hcalls h with hnil | hget
      · simp [RecordLost, hnil]
      · exact hinv.kept _ _ hget hc
  · intro P index choice call op next hrun hinv hallowed hget hrest
    exact hinv.resumed hget hrest hallowed.2
      (calls_conform hinit hrun call (List.mem_of_getElem? hget))
  · intro P change _ hinv _
    refine ⟨hinv.single, ?_, ?_, hinv.alone, hinv.kept⟩
    · intro j c h hc hdel
      rcases rowStatus_removal change P.store id with hnone | hsame
      · exact Or.inl (Or.inl hnone)
      · rcases hinv.delivered _ _ h hc hdel with hrow | hwork
        · exact Or.inl (hsame.symm ▸ hrow)
        · exact Or.inr hwork
    · intro j c h hc hrec hsent
      rcases rowStatus_removal change P.store id with hnone | hsame
      · exact Option.some_ne_none _ (hsent.symm.trans hnone)
      · exact hinv.unrecorded _ _ h hc hrec (hsame.symm.trans hsent)

theorem writes_eq_some {id : Id} {op : Op} {r : Except ApiError (Answer op)}
    {status : NotificationStatus} (h : writes id ⟨op, r⟩ = some status) :
    ∃ data, op = .updateTask id data ∧ r.isOk ∧ data.status = status := by
  cases op with
  | updateTask id' data =>
      cases r with
      | error error => simp [writes] at h
      | ok answer =>
          simp only [writes, Option.ite_none_right_eq_some, Option.some.injEq] at h
          exact ⟨data, by rw [h.1], rfl, h.2⟩
  | _ => simp [writes] at h

/-- Where no claim is applied to a `SENT` row or beside another call's work, and
no record of a delivery fails, deliveries happen at most once. -/
theorem delivered_once {P₀ P : TaskPool} {e : TaskEvent} (hinit : P₀.calls = [])
    (hrun : system.Run AdmittedOrderly P₀ P) (he : AdmittedOrderly P e) :
    DeliversOnce P e := by
  have hinv := fun id => taskInv_of_run hinit hrun id
  have hconf := calls_conform hinit hrun
  constructor
  · rintro id ⟨index, choice, call, provider, config, payload, next, rfl, hget, hid, hrest⟩
    rintro ⟨c, hc, hcid, hdel⟩
    have hcall := hconf call (List.mem_of_getElem? hget)
    rw [hrest, hid] at hcall
    obtain ⟨hclaimed, hnot, hrec⟩ := hcall.1
    have hwork : Working id call := ⟨hid, hclaimed, Call.running_of_rest hrest⟩
    obtain ⟨j, hj⟩ := List.mem_iff_getElem?.mp hc
    obtain rfl := (hinv id).alone _ _ _ _ hget hwork hrec hj hcid hdel
    obtain rfl := Option.some.inj (hget.symm.trans hj)
    exact hnot hdel
  · intro id hsent
    have hkeep : ∀ {status : Option NotificationStatus}, status = none ∨ status = some .sent →
        status ≠ some .processing ∧ status ≠ some .failed := by
      rintro status (rfl | rfl) <;> simp
    cases e with
    | spawn label => exact hkeep (Or.inr hsent)
    | env change => exact hkeep (hsent ▸ rowStatus_removal change P.store id)
    | perform index choice =>
        rcases system.step_perform P index choice with hsame | ⟨call, op, next, hget, hrest, hstep⟩
        · rw [hsame]
          exact hkeep (Or.inr hsent)
        rw [hstep]
        have hrow : rowStatus (system.resumed P index choice call op next).store id =
            (writes id ⟨op, (exec choice op P.store).1⟩).or (rowStatus P.store id) :=
          rowStatus_exec choice op P.store id
        have hcall := hconf call (List.mem_of_getElem? hget)
        rw [hrest] at hcall
        cases hwrites : writes id ⟨op, (exec choice op P.store).1⟩ with
        | none => exact hkeep (Or.inr (by simpa [hwrites, hsent] using hrow))
        | some status =>
            rw [hwrites, Option.some_or] at hrow
            obtain ⟨data, rfl, hok, hstatus⟩ := writes_eq_some hwrites
            obtain ⟨hid, hproto⟩ := hcall.1
            constructor
            · rintro hproc
              obtain rfl : status = .processing := Option.some.inj (hrow.symm.trans hproc)
              exact ((he.2 _ (Pool.awaited?_eq hget hrest)).1 hstatus hok).1 hsent
            · intro hfail
              obtain rfl : status = .failed := Option.some.inj (hrow.symm.trans hfail)
              rcases hproto with ⟨h, -⟩ | ⟨h, -⟩ | ⟨-, hclaimed, hrec, -⟩
              · simp [h] at hstatus
              · simp [h] at hstatus
              · rw [← hid] at hclaimed hrec
                exact (hinv id).unrecorded _ _ hget
                  ⟨hid.symm, hclaimed, Call.running_of_rest hrest⟩ hrec hsent


/-! ## The defect -/

def databaseDown : Choice := { calm with fault := some (.other "connection lost") }

/-- A run of the job up to the end of its send. -/
def sendEvents (index : ℕ) : List TaskEvent :=
  [.spawn ⟨.worker, 4⟩, .perform index calm, .perform index calm, .perform index calm,
    .perform index calm, .perform index calm]

theorem delivered_once_of_sendEvents :
    DeliversOnce (system.runList ⟨oneTask, []⟩ (sendEvents 0)) (.perform 0 calm) :=
  delivered_once rfl (Machine.Run.refl.list (by decide)) (by decide)

/-- The first run sends, cannot record it, stores `FAILED` and throws; the
second run is about to send. -/
def lostRecord : TaskPool :=
  system.runList ⟨oneTask, []⟩ (sendEvents 0 ++
    [.perform 0 databaseDown, .perform 0 calm, .perform 0 calm] ++ (sendEvents 1).take 3)

theorem lostRecord_sends_again :
    system.Run Admitted ⟨oneTask, []⟩ lostRecord ∧
      ¬ DeliversOnce lostRecord (.perform 1 calm) := by
  refine ⟨Machine.Run.refl.list (by decide), fun h => h.send 4 ?_ (by decide)⟩
  exact ⟨1, calm, _, _, _, _, _, rfl, rfl, rfl, rfl⟩

end SocialMonitor.Notifications

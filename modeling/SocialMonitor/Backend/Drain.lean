import SocialMonitor.Async.Owned
import SocialMonitor.Async.Progress
import SocialMonitor.Backend.Outbox
import SocialMonitor.Backend.Reads

/-!
# The worker empties the queues

From any state that the API reaches, the worker takes the jobs of each queue, a
few at once, and runs a job again after a throw, as often as the job allows.
The database works meanwhile, and the platforms answer as they like.
-/

namespace SocialMonitor.Backend

open Async

/-! ## The worker -/

/-- The option `concurrency` of the worker of each queue. -/
def concurrency : ℕ := 5

/-- The runs of the job of a task so far. -/
def runsOf (id : Id) (Q : ApiPool) : List RunningCall := Q.keyed Request.task? (some id)

def threw (c : RunningCall) : Bool :=
  match c.outcome? with
  | some (.error _) => true
  | _ => false

def returned (c : RunningCall) : Bool :=
  match c.outcome? with
  | some (.ok _) => true
  | _ => false

section Queues

variable (jobs : List Job) (Q : ApiPool) (job : Job)

/-- The job has not run yet, or is to run again. -/
def Waiting : Prop :=
  (∀ c ∈ runsOf job.taskId Q, threw c = true) ∧ (runsOf job.taskId Q).length < job.attempts

/-- The job has returned, or has thrown in the last of its runs. -/
def Completed : Prop :=
  (∀ c ∈ runsOf job.taskId Q, ¬ c.Running) ∧
    ((∃ c ∈ runsOf job.taskId Q, returned c = true) ∨
      job.attempts ≤ (runsOf job.taskId Q).length)

/-- The calls that the worker of a queue is running. -/
def active (queue : String) : List RunningCall :=
  Q.calls.filter fun c =>
    c.Running && jobs.any fun job => job.queue = queue && c.label.task? = some job.taskId

/-- A job starts when one of the `concurrency` calls of its queue is free. -/
def Working : ApiEvent → Prop
  | .spawn request => ∃ job ∈ jobs, request = .channel (.processTask job.taskId) ∧
      Waiting Q job ∧ (active jobs Q job.queue).length < concurrency
  | .perform _ choice => choice.fault = none
  | .env change => change.elim

end Queues

/-! ## One run of a job -/

/-- The row of a task, with the rows that it refers to. -/
abbrev Row := Option Notifications.TaskWithRelations

def rowOf : Option Id → Channels.World → Row
  | some id, w => Notifications.taskWithRelations? w.store id
  | none, _ => none

def Row.update (row : Row) (data : Notifications.TaskUpdate) : Row :=
  row.map fun task => { task with task := data.apply task.task }

/-- What the operations of an attempt do to the row. -/
def TaskStep : (op : Notifications.Op) → Row → Except ApiError (Notifications.Answer op) →
    Row → Prop
  | .findTaskWithRelations _, row, r, row' => row' = row ∧ r = .ok row
  | .updateTask _ data, row, r, row' => row.isSome → row' = row.update data ∧ r = .ok ()
  | .startSend _ _ _, row, _, row' => row' = row
  | .finishSend, row, r, row' => row' = row ∧ r = .ok ()
  | .now, row, r, row' => row' = row ∧ ∃ time, r = .ok time
  | .emit _, row, r, row' => row' = row ∧ r = .ok ()

def ChannelStep : (op : Channels.Op) → Row → Except ApiError (Channels.Answer op) → Row → Prop
  | .task op, row, r, row' => TaskStep op row r row'
  | _, row, _, row' => row' = row

def Step : (op : Op) → Row → Except ApiError (Answer op) → Row → Prop
  | .channel op, row, r, row' => ChannelStep op row r row'
  | _, row, _, row' => row' = row

/-- The operations of an attempt on its own row. -/
def OwnTask (id : Id) : Notifications.Op → Prop
  | .findTaskWithRelations id' => id' = id
  | .updateTask id' _ => id' = id
  | _ => True

def OwnChannel (id : Id) : Channels.Op → Prop
  | .task (.startSend _ _ _) => False
  | .task .finishSend => False
  | .task op => OwnTask id op
  | op => Channels.Plain op

def Own : Option Id → Op → Prop
  | some id, .channel op => OwnChannel id op
  | _, _ => False

/-- The row after one run of the job with the given outcome. -/
def Tried {α : Type} (t t' : NotificationTask) : Except ApiError α → Prop
  | .ok _ => ∃ time,
      t' = (Notifications.setSent time).apply (Notifications.setProcessing.apply t)
  | .error e =>
      t' = (Notifications.setFailed e.message).apply (Notifications.setProcessing.apply t)

def TriedRow {α : Type} (row : Row) (row' : Row) (r : Except ApiError α) : Prop :=
  match row with
  | none => row' = none
  | some task => ∃ t, row' = some { task with task := t } ∧ Tried task.task t r

section Run

variable {id : Id}

theorem processTask_tries (row : Row) : (Notifications.processTask id).Obeys TaskStep
    (fun _ op => OwnTask id op) (TriedRow row) row := by
  refine ⟨rfl, ?_⟩
  rintro r row ⟨rfl, rfl⟩
  cases row with
  | none => exact rfl
  | some task =>
      refine ⟨rfl, fun r row h => ?_⟩
      obtain ⟨rfl, rfl⟩ := h rfl
      -- The attempt is taken until one of the two updates that end it.
      apply Program.Obeys.handle fun row _ =>
        row = Row.update (some task) Notifications.setProcessing
      · rw [Notifications.factoryGet_eq]
        refine ⟨trivial, ?_⟩
        rintro (e | _) row rfl
        · exact rfl
        refine ⟨trivial, ?_⟩
        rintro r row ⟨rfl, rfl⟩
        refine ⟨trivial, ?_⟩
        rintro r row ⟨rfl, sentAt, rfl⟩
        refine ⟨rfl, fun r row h => ?_⟩
        obtain ⟨rfl, rfl⟩ := h rfl
        refine ⟨trivial, ?_⟩
        rintro r row ⟨rfl, rfl⟩
        exact ⟨_, rfl, sentAt, rfl⟩
      · rintro row e rfl
        refine ⟨rfl, fun r row h => ?_⟩
        obtain ⟨rfl, rfl⟩ := h rfl
        refine ⟨trivial, ?_⟩
        rintro r row ⟨rfl, rfl⟩
        exact ⟨_, rfl, rfl⟩

variable {config : Config}

theorem perform_steps (op : Notifications.Op) (row : Row) (hop : OwnTask id op) :
    (Channels.perform config.qq op).Obeys ChannelStep (fun _ op => OwnChannel id op)
      (fun row' r => TaskStep op row r row') row := by
  cases op with
  | startSend provider settings payload =>
      have hplain : (Channels.sendBy config.qq provider settings payload).Awaits Channels.Plain :=
        Channels.sendBy_plain provider settings payload
      refine hplain.obeys_kept ?_ ?_ fun r => rfl
      · intro op hop
        cases op with
        | task op => exact hop.elim
        | _ => exact hop
      · intro op r row' hop hstep
        cases op with
        | task op => exact hop.elim
        | _ => exact hstep
  | finishSend => exact ⟨rfl, rfl⟩
  | _ => exact ⟨hop, fun r row' h => by cases r <;> exact h⟩

/-- A run of a job, as a call of the API. -/
theorem program_tries (row : Row) : (program config (.channel (.processTask id))).Obeys Step
    (fun _ op => Own (some id) op) (TriedRow row) row := by
  have hinterp : (Channels.processTask config.qq id).Obeys ChannelStep
      (fun _ op => OwnChannel id op) (TriedRow row) row :=
    Program.Obeys.interp (fun row => row) (processTask_tries row)
      (fun op row hop => perform_steps op row hop) fun _ _ h => h
  have hchannel : (Channels.program config.qq (.processTask id)).Obeys ChannelStep
      (fun _ op => OwnChannel id op) (TriedRow row) row := by
    refine (Program.obeys_bind _ _ _ _ _ _).mpr (hinterp.mono (fun _ _ h => h) fun row' r h => ?_)
    cases r <;> exact h
  have hwithin : (ofChannels (Channels.program config.qq (.processTask id))).Obeys Step
      (fun _ op => Own (some id) op) (TriedRow row) row := by
    refine hchannel.within (fun row => row) ?_ (fun _ _ h => h) fun _ _ h => h
    intro op row r row' h
    rw [Program.map_answer]
    exact h
  refine (Program.obeys_bind _ _ _ _ _ _).mpr (hwithin.mono (fun _ _ h => h) fun row' r h => ?_)
  cases r <;> exact h

end Run

/-! ## In the database -/

/-- Only rows of tasks have changed. -/
structure Steady (s s' : Store) : Prop where
  targets : s'.targets = s.targets
  messages : s'.messages = s.messages
  channels : s'.channels = s.channels
  jobs : s'.jobs = s.jobs
  nextId : s'.nextId = s.nextId
  taskIds : s'.tasks.map NotificationTask.id = s.tasks.map NotificationTask.id

theorem Steady.trans {s₁ s₂ s₃ : Store} (h : Steady s₁ s₂) (h' : Steady s₂ s₃) : Steady s₁ s₃ :=
  ⟨h'.targets.trans h.targets, h'.messages.trans h.messages, h'.channels.trans h.channels,
    h'.jobs.trans h.jobs, h'.nextId.trans h.nextId, h'.taskIds.trans h.taskIds⟩

section Exec

variable {contains : String → String → Bool} {c : Channels.Choice} {id : Id} {op : Op}
  {w : Channels.World}

/-- What an operation of an attempt does. -/
theorem exec_own (hfault : c.fault = none) (hop : Own (some id) op) :
    Step op (rowOf (some id) w) (exec contains c op w).1
      (rowOf (some id) (exec contains c op w).2) ∧
    (∀ k, k ≠ some id → rowOf k (exec contains c op w).2 = rowOf k w) ∧
    Steady w.store (exec contains c op w).2.store := by
  cases op with
  | channel op =>
      cases op with
      | task op =>
          cases op with
          | findTaskWithRelations id' =>
              obtain rfl : id' = id := hop
              simp only [exec, Channels.exec, Notifications.exec, c.query_of_fault_none hfault]
              exact ⟨⟨rfl, rfl⟩, fun k hk => rfl, rfl, rfl, rfl, rfl, rfl, rfl⟩
          | updateTask id' data =>
              obtain rfl : id' = id := hop
              simp only [exec, Channels.exec, Notifications.exec, c.query_of_fault_none hfault]
              split_ifs with hfound
              · refine ⟨fun _ => ⟨?_, rfl⟩, fun k hk => ?_, rfl, rfl, rfl, rfl, rfl, ?_⟩
                · exact (Notifications.taskWithRelations?_updateTaskRow _ _ _ _).trans (if_pos rfl)
                · cases k with
                  | none => rfl
                  | some id =>
                      refine (Notifications.taskWithRelations?_updateTaskRow _ _ _ _).trans ?_
                      exact if_neg fun heq => hk (congrArg some heq)
                · exact map_id_eq (updateTask_id id' data) w.store.tasks
              · refine ⟨fun hrow => absurd ?_ hfound, fun k hk => rfl, rfl, rfl, rfl, rfl, rfl, rfl⟩
                exact Option.isSome_of_isSome_bind hrow
          | startSend provider settings payload => exact hop.elim
          | finishSend => exact hop.elim
          | now => exact ⟨⟨rfl, c.now, rfl⟩, fun k hk => rfl, rfl, rfl, rfl, rfl, rfl, rfl⟩
          | emit event =>
              refine ⟨⟨rfl, rfl⟩, fun k hk => ?_, rfl, rfl, rfl, rfl, rfl, rfl⟩
              cases k <;> rfl
      | now => exact ⟨rfl, fun k hk => rfl, rfl, rfl, rfl, rfl, rfl, rfl⟩
      | cachedToken => exact ⟨rfl, fun k hk => rfl, rfl, rfl, rfl, rfl, rfl, rfl⟩
      | cacheToken token =>
          refine ⟨rfl, fun k hk => ?_, rfl, rfl, rfl, rfl, rfl, rfl⟩
          cases k <;> rfl
      | fetch request => exact ⟨rfl, fun k hk => rfl, rfl, rfl, rfl, rfl, rfl, rfl⟩
      | _ => exact hop.elim
  | _ => exact hop.elim

end Exec

/-! ## All runs of the jobs -/

/-- The row after runs with the given outcomes, of which all but the last have
thrown. -/
inductive Tries (row : Row) : List (Except ApiError Reply) → Row → Prop where
  | none : Tries row [] row
  | run {rs : List (Except ApiError Reply)} {row' row'' : Row} {r : Except ApiError Reply} :
      Tries row rs row' → (∀ r ∈ rs, ∃ e, r = .error e) → TriedRow row' row'' r →
      Tries row (rs ++ [r]) row''

def Allotted (jobs : List Job) (k : Option Id) (rs : List (Except ApiError Reply)) : Prop :=
  rs = [] ∨ ∃ job ∈ jobs, k = some job.taskId ∧ rs.length ≤ job.attempts

section Runs

variable {config : Config} {jobs : List Job} {w : Channels.World} {Q : ApiPool}

theorem threw_eq_true {c : RunningCall} : threw c = true ↔ ∃ e, c.outcome? = some (.error e) := by
  unfold threw
  split <;> simp_all

theorem not_running_of_threw {c : RunningCall} (h : threw c = true) : ¬ c.Running := by
  obtain ⟨e, he⟩ := threw_eq_true.mp h
  simp [Call.Running, he]

theorem outcomes_of_threw {k : Option Id} (h : ∀ c ∈ Q.keyed Request.task? k, threw c = true) :
    (∀ r ∈ Q.outcomes Request.task? k, ∃ e, r = .error e) ∧
      (Q.outcomes Request.task? k).length = (Q.keyed Request.task? k).length := by
  constructor
  · intro r hr
    obtain ⟨c, hc, hout⟩ := List.mem_filterMap.mp hr
    obtain ⟨e, he⟩ := threw_eq_true.mp (h c hc)
    exact ⟨e, Option.some.inj (hout.symm.trans he)⟩
  · unfold Pool.outcomes
    rw [List.filterMap_length_eq_length]
    intro c hc
    obtain ⟨e, he⟩ := threw_eq_true.mp (h c hc)
    rw [he]
    rfl

theorem working_owns (w : Channels.World) : Owning (system config) (Working jobs) Request.task?
    rowOf Step (fun k _ op => Own k op)
    (fun k rs row => Tries (rowOf k w) rs row ∧ Allotted jobs k rs) where
  alone := by
    rintro Q - ⟨job, -, rfl, ⟨hthrew, -⟩, -⟩ c hc
    exact not_running_of_threw (hthrew c hc)
  start := by
    rintro Q - ⟨job, hjob, rfl, ⟨hthrew, hlength⟩, -⟩ row ⟨htries, -⟩
    obtain ⟨herrors, heq⟩ := outcomes_of_threw hthrew
    refine (program_tries row).mono (fun _ _ h => h) fun row' r h => ⟨htries.run herrors h, ?_⟩
    refine Or.inr ⟨job, hjob, rfl, ?_⟩
    rw [List.length_append, List.length_singleton]
    exact heq ▸ hlength
  acts := by
    intro Q index choice op k hfault hop
    cases k with
    | none => exact hop.elim
    | some id => exact (exec_own hfault hop).1
  frame := by
    intro Q index choice op k k' hfault hop hne
    cases k with
    | none => exact hop.elim
    | some id => exact (exec_own hfault hop).2.1 k' hne
  env := fun Q change => change.elim

theorem owned (hwork : (system config).Run (Working jobs) ⟨w, []⟩ Q) (k : Option Id) :
    Held Request.task? rowOf Step (fun k _ op => Own k op)
      (fun k rs row => Tries (rowOf k w) rs row ∧ Allotted jobs k rs) Q k :=
  hwork.owned (working_owns w) rfl (fun _ => ⟨.none, Or.inl rfl⟩) k

theorem steady_of_work (hwork : (system config).Run (Working jobs) ⟨w, []⟩ Q) :
    Steady w.store Q.store.store := by
  refine hwork.owned_store (working_owns w) rfl (fun _ => ⟨.none, Or.inl rfl⟩)
    (fun w' => Steady w.store w'.store) ⟨rfl, rfl, rfl, rfl, rfl, rfl⟩ ?_
    fun Q change => change.elim
  intro Q index choice op k hfault hop hsteady
  cases k with
  | none => exact hop.elim
  | some id => exact hsteady.trans (exec_own hfault hop).2.2

/-- Every call is a run of one of the jobs. -/
theorem runs_of_work (hwork : (system config).Run (Working jobs) ⟨w, []⟩ Q) :
    ∀ c ∈ Q.calls, ∃ job ∈ jobs, c.label.task? = some job.taskId := by
  refine hwork.invariant
    (fun Q => ∀ c ∈ Q.calls, ∃ job ∈ jobs, c.label.task? = some job.taskId) ?_ ?_ ?_ ?_
  · exact fun c hc => absurd hc List.not_mem_nil
  · rintro Q - hrun ih ⟨job, hjob, rfl, -⟩ c hc
    rcases List.mem_append.mp hc with hc | hc
    · exact ih c hc
    · obtain rfl := List.mem_singleton.mp hc
      exact ⟨job, hjob, rfl⟩
  · intro Q index choice call op next _ ih _ hget _ c hc
    rcases (system config).mem_resumed hc with hc | rfl
    · exact ih c hc
    · exact ih call (List.mem_of_getElem? hget)
  · exact fun Q change => change.elim

end Runs

/-! ## The rows -/

/-- A row after `k` of the runs that its job allows: it was sent in the last of
them, or all that there are have failed. -/
structure Settles (allowed k : ℕ) (t t' : NotificationTask) : Prop where
  same : t' = { t with
    status := t'.status
    attempts := t.attempts + k
    sentAt := t'.sentAt
    lastError := t'.lastError }
  bounds : 1 ≤ k ∧ k ≤ allowed
  ends : t'.status = .sent ∧ t'.sentAt.isSome ∧ t'.lastError = none ∨
    k = allowed ∧ t'.status = .failed ∧ t'.sentAt = t.sentAt ∧ t'.lastError.isSome

section Rows

variable {task : Notifications.TaskWithRelations} {row : Row}
  {rs : List (Except ApiError Reply)} {r : Except ApiError Reply}

/-- What runs that have all thrown leave. -/
theorem Tries.failed (h : Tries (some task) rs row) (hrs : ∀ r ∈ rs, ∃ e, r = .error e) :
    ∃ t, row = some { task with task := t } ∧
      t = { task.task with
        status := t.status
        attempts := task.task.attempts + rs.length
        lastError := t.lastError } ∧
      (rs ≠ [] → t.status = .failed ∧ t.lastError.isSome) := by
  induction h with
  | none => exact ⟨task.task, rfl, rfl, fun hne => absurd rfl hne⟩
  | @run rs row' row'' r _ hbefore htried ih =>
      obtain ⟨t, rfl, hsame, -⟩ := ih hbefore
      obtain ⟨e, rfl⟩ := hrs r (by simp)
      obtain ⟨t', rfl, rfl⟩ := htried
      refine ⟨_, rfl, ?_, fun _ => ⟨rfl, rfl⟩⟩
      rw [hsame]
      simp [Notifications.TaskUpdate.apply, Notifications.setFailed, Notifications.setProcessing,
        Nat.add_assoc]

theorem Tries.settles {allowed : ℕ} (h : Tries (some task) rs row) (hne : rs ≠ [])
    (hle : rs.length ≤ allowed) (hend : (∃ reply, .ok reply ∈ rs) ∨ allowed ≤ rs.length) :
    ∃ t, row = some { task with task := t } ∧ Settles allowed rs.length task.task t := by
  cases h with
  | none => exact absurd rfl hne
  | @run rs row' _ r htries hbefore htried =>
      have hone : 1 ≤ (rs ++ [r]).length := by simp
      cases r with
      | error e =>
          have hall : ∀ r ∈ rs ++ [Except.error e], ∃ e, r = .error e := by
            intro r hr
            rcases List.mem_append.mp hr with hr | hr
            · exact hbefore r hr
            · exact ⟨e, List.mem_singleton.mp hr⟩
          obtain ⟨t, hrow, hsame, hfailed⟩ := (htries.run hbefore htried).failed hall
          obtain ⟨hstatus, herror⟩ := hfailed hne
          have hfull : allowed ≤ (rs ++ [Except.error e]).length := by
            rcases hend with ⟨reply, hreply⟩ | hfull
            · obtain ⟨e', he'⟩ := hall _ hreply
              cases he'
            · exact hfull
          refine ⟨t, hrow, ?_, ⟨hone, hle⟩,
            Or.inr ⟨le_antisymm hle hfull, hstatus, by rw [hsame], herror⟩⟩
          rw [hsame]
      | ok reply =>
          obtain ⟨t, rfl, hsame, -⟩ := htries.failed hbefore
          obtain ⟨t', rfl, time, rfl⟩ := htried
          refine ⟨_, rfl, ?_, ⟨hone, hle⟩, Or.inl ⟨rfl, rfl, rfl⟩⟩
          rw [hsame]
          simp [Notifications.TaskUpdate.apply, Notifications.setSent, Notifications.setProcessing,
            Nat.add_assoc]

end Rows

/-! ## The worker goes on -/

section Finish

variable {config : Config} {jobs : List Job} {w : Channels.World} {Q Q' : ApiPool}

theorem length_runsOf (h : Q'.calls.map Call.label = Q.calls.map Call.label) (id : Id) :
    (runsOf id Q').length = (runsOf id Q).length := by
  have hlength : ∀ Q : ApiPool, (runsOf id Q).length =
      ((Q.calls.map Call.label).filter fun label => label.task? = some id).length := by
    intro Q
    rw [List.filter_map, List.length_map]
    rfl
  rw [hlength, hlength, h]

/-- The runs that the jobs still allow. -/
def remaining (jobs : List Job) (Q : ApiPool) : ℕ :=
  (jobs.map fun job => job.attempts - (runsOf job.taskId Q).length).sum

theorem waiting_of_ended {job : Job} (hended : ∀ c ∈ runsOf job.taskId Q, ¬ c.Running)
    (h : ¬ Completed Q job) : Waiting Q job := by
  have hopen : ¬ ((∃ c ∈ runsOf job.taskId Q, returned c = true) ∨
      job.attempts ≤ (runsOf job.taskId Q).length) := fun hdone => h ⟨hended, hdone⟩
  obtain ⟨hreturned, hlength⟩ := not_or.mp hopen
  refine ⟨fun c hc => ?_, not_le.mp hlength⟩
  obtain ⟨r, hr⟩ := Option.ne_none_iff_exists'.mp (hended c hc)
  cases r with
  | ok reply => exact absurd ⟨c, hc, by simp [returned, hr]⟩ hreturned
  | error e => exact threw_eq_true.mpr ⟨e, hr⟩

theorem remaining_spawn (config : Config) {job : Job} (hjob : job ∈ jobs)
    (hwaiting : Waiting Q job) :
    remaining jobs ((system config).step Q (.spawn (.channel (.processTask job.taskId)))) <
      remaining jobs Q := by
  have hruns : ∀ id, runsOf id ((system config).step Q
      (.spawn (.channel (.processTask job.taskId)))) = runsOf id Q ++
        if Request.task? (.channel (.processTask job.taskId)) = some id
        then [(system config).spawned (.channel (.processTask job.taskId))] else [] :=
    fun id => keyed_spawn
  refine List.sum_lt_sum _ _ (fun job' _ => ?_) ⟨job, hjob, ?_⟩
  · rw [hruns, List.length_append]
    omega
  · have hlength := hwaiting.2
    have hkey : Request.task? (.channel (.processTask job.taskId)) = some job.taskId := rfl
    rw [hruns, if_pos hkey, List.length_append, List.length_singleton]
    omega

theorem exists_completed (config : Config) (jobs : List Job) (Q : ApiPool) :
    ∃ Q', (system config).Run (Working jobs) Q Q' ∧ ∀ job ∈ jobs, Completed Q' job := by
  induction hn : remaining jobs Q using Nat.strong_induction_on generalizing Q with
  | _ n ih =>
      have hfinish : ∃ Q', (system config).Run (Working jobs) Q Q' ∧ Q'.Quiescent ∧
          Q'.calls.map Call.label = Q.calls.map Call.label :=
        System.exists_quiescent (fun _ _ => ⟨calmChoice, rfl⟩) Q
      obtain ⟨Q₁, hrun, hquiet, hlabels⟩ := hfinish
      have hended : ∀ id, ∀ c ∈ runsOf id Q₁, ¬ c.Running :=
        fun id c hc => hquiet c (Pool.mem_keyed.mp hc).1
      by_cases hdone : ∀ job ∈ jobs, Completed Q₁ job
      · exact ⟨Q₁, hrun, hdone⟩
      obtain ⟨job, hopen⟩ := not_forall.mp hdone
      obtain ⟨hjob, hopen⟩ := Classical.not_imp.mp hopen
      have hwaiting := waiting_of_ended (hended job.taskId) hopen
      have hactive : active jobs Q₁ job.queue = [] := by
        refine List.filter_eq_nil_iff.mpr fun c hc => ?_
        simp [hquiet c hc]
      have hspawn : Working jobs Q₁ (.spawn (.channel (.processTask job.taskId))) :=
        ⟨job, hjob, rfl, hwaiting, by rw [hactive]; decide⟩
      have hremaining : remaining jobs Q₁ = remaining jobs Q :=
        congrArg List.sum (List.map_congr_left fun job _ => by rw [length_runsOf hlabels])
      obtain ⟨Q₂, hrest, hcompleted⟩ := ih _
        (hn ▸ hremaining ▸ remaining_spawn config hjob hwaiting) _ rfl
      exact ⟨Q₂, (hrun.step hspawn).trans hrest, hcompleted⟩

end Finish

/-! ## The theorem -/

/-- What the worker has made of the tables. -/
structure Drained (jobs : List Job) (s : Store) (Q : ApiPool) : Prop where
  steady : Steady s Q.store.store
  settled : ∀ job ∈ jobs, Completed Q job → ∀ t, s.task? job.taskId = some t →
    ∃ t', Q.store.store.task? job.taskId = some t' ∧
      Settles Queue.jobAttempts (runsOf job.taskId Q).length t t'
  others : ∀ id, (∀ job ∈ jobs, job.taskId ≠ id) → Q.store.store.task? id = s.task? id

section Drained

variable {config : Config} {jobs : List Job} {w : Channels.World} {Q : ApiPool} {id : Id}
  {t : NotificationTask}

theorem rowOf_task (hw : Integrity w.store) (ht : w.store.task? id = some t) :
    ∃ task, rowOf (some id) w = some task ∧ task.task = t := by
  obtain ⟨task, htask⟩ := Option.isSome_iff_exists.mp
    (relations?_isSome hw (List.mem_of_find?_eq_some ht))
  have hrow : rowOf (some id) w = some task := by
    rw [rowOf, taskWithRelations?_eq, ht]
    exact htask
  exact ⟨task, hrow, Option.some.inj ((taskWithRelations?_id hrow).1.symm.trans ht)⟩

theorem Tries.row_eq {row row' : Row} (h : Tries row [] row') : row' = row := by
  generalize hrs : ([] : List (Except ApiError Reply)) = rs at h
  cases h with
  | none => rfl
  | run => simp at hrs

theorem length_outcomes (hended : ∀ c ∈ runsOf id Q, ¬ c.Running) :
    (Q.outcomes Request.task? (some id)).length = (runsOf id Q).length := by
  refine List.filterMap_length_eq_length.mpr fun c hc => ?_
  exact Option.isSome_iff_ne_none.mpr (hended c hc)

theorem settled_of_work (hw : Integrity w.store)
    (hjobs : ∀ job ∈ jobs, job.attempts = Queue.jobAttempts)
    (hwork : (system config).Run (Working jobs) ⟨w, []⟩ Q) {job : Job} (hjob : job ∈ jobs)
    (hdone : Completed Q job) (ht : w.store.task? job.taskId = some t) :
    ∃ t', Q.store.store.task? job.taskId = some t' ∧
      Settles Queue.jobAttempts (runsOf job.taskId Q).length t t' := by
  obtain ⟨hended, hend⟩ := hdone
  obtain ⟨htries, hallotted⟩ := (owned hwork (some job.taskId)).stage_of_ended hended
  have hlength := length_outcomes hended
  have hattempts := hjobs job hjob
  obtain ⟨task, hrow, rfl⟩ := rowOf_task hw ht
  rw [hrow] at htries
  have hends : (∃ reply, .ok reply ∈ Q.outcomes Request.task? (some job.taskId)) ∨
      Queue.jobAttempts ≤ (Q.outcomes Request.task? (some job.taskId)).length := by
    rcases hend with ⟨c, hc, hreturned⟩ | hfull
    · cases hout : c.outcome? with
      | none => simp [returned, hout] at hreturned
      | some r =>
          cases r with
          | error e => simp [returned, hout] at hreturned
          | ok reply => exact Or.inl ⟨reply, List.mem_filterMap.mpr ⟨c, hc, hout⟩⟩
    · rw [hlength, ← hattempts]
      exact Or.inr hfull
  have hne : Q.outcomes Request.task? (some job.taskId) ≠ [] := by
    intro hnil
    rcases hends with ⟨reply, hreply⟩ | hfull
    · rw [hnil] at hreply
      cases hreply
    · rw [hnil] at hfull
      exact absurd hfull (by decide)
  have hle : (Q.outcomes Request.task? (some job.taskId)).length ≤ Queue.jobAttempts := by
    rcases hallotted with hnil | ⟨job', hjob', -, hle⟩
    · exact absurd hnil hne
    · rwa [hjobs job' hjob'] at hle
  obtain ⟨t', hrow', hsettles⟩ := htries.settles hne hle hends
  exact ⟨t', (taskWithRelations?_id hrow').1, hlength ▸ hsettles⟩

theorem others_of_work (hw : Integrity w.store)
    (hwork : (system config).Run (Working jobs) ⟨w, []⟩ Q)
    (hid : ∀ job ∈ jobs, job.taskId ≠ id) : Q.store.store.task? id = w.store.task? id := by
  have hruns : Q.keyed Request.task? (some id) = [] := by
    refine List.filter_eq_nil_iff.mpr fun c hc => ?_
    obtain ⟨job, hjob, htask⟩ := runs_of_work hwork c hc
    simpa [htask] using hid job hjob
  have hheld := (owned hwork (some id)).stage_of_ended fun c hc => by rw [hruns] at hc; cases hc
  have hrow : rowOf (some id) Q.store = rowOf (some id) w := by
    have htries := hheld.1
    rw [Pool.outcomes, hruns] at htries
    exact htries.row_eq
  cases ht : w.store.task? id with
  | some t =>
      obtain ⟨task, htask, rfl⟩ := rowOf_task hw ht
      exact (taskWithRelations?_id (hrow.trans htask)).1
  | none =>
      refine List.find?_eq_none.mpr fun t hmem hteq => ?_
      have hids : t.id ∈ w.store.tasks.map NotificationTask.id :=
        (steady_of_work hwork).taskIds ▸ List.mem_map_of_mem hmem
      obtain ⟨t', hmem', heq⟩ := List.mem_map.mp hids
      exact List.find?_eq_none.mp ht t' hmem' (by rw [heq]; exact hteq)

end Drained

/-- Whatever the requests before have left, and in whatever order the worker
runs the jobs, beside one another and again: a completed job has settled its
task, the other rows are as they were, and the worker never waits for nothing
until all jobs are completed. -/
theorem queue_drains {config : Config} {allowed : ApiPool → ApiEvent → Prop} {P Q : ApiPool}
    (hrun : (system config).Run allowed initial P)
    (hwork : (system config).Run (Working P.store.store.jobs) ⟨P.store, []⟩ Q) :
    Drained P.store.store.jobs P.store.store Q ∧
      ∃ Q', (system config).Run (Working P.store.store.jobs) Q Q' ∧
        ∀ job ∈ P.store.store.jobs, Completed Q' job := by
  have hs := integrity_of_run hrun
  have hattempts : ∀ job ∈ P.store.store.jobs, job.attempts = Queue.jobAttempts := by
    intro job hjob
    obtain ⟨-, type, hjobOf, -⟩ := job_vouched hrun hjob
    rw [hjobOf]
    rfl
  refine ⟨⟨steady_of_work hwork, fun job hjob hdone t ht => ?_, fun id hid => ?_⟩,
    exists_completed config _ Q⟩
  · exact settled_of_work hs hattempts hwork hjob hdone ht
  · exact others_of_work hs hwork hid

/-- The platform does not answer the first run. -/
def workEvents : List ApiEvent :=
  .spawn (.channel (.processTask 3)) :: List.replicate 10 (.perform 0 calmChoice)

theorem queue_drains_sample :
    let P := (system sampleConfig).runList samplePool ingestEvents
    let Q := (system sampleConfig).runList ⟨P.store, []⟩ workEvents
    Q.store.store.tasks.map NotificationTask.attempts = [1] ∧
      Drained P.store.store.jobs P.store.store Q ∧
      ∃ Q', (system sampleConfig).Run (Working P.store.store.jobs) Q Q' ∧
        ∀ job ∈ P.store.store.jobs, Completed Q' job := by
  intro P Q
  have hrun : (system sampleConfig).Run (fun _ _ => True) initial P :=
    samplePool_run.list (by simp [Machine.AllowedList, ingestEvents])
  have hjob : Queue.jobOf 3 .qq ∈ P.store.store.jobs := by decide +kernel
  have hspawn : Working P.store.store.jobs ⟨P.store, []⟩ (.spawn (.channel (.processTask 3))) :=
    ⟨_, hjob, rfl, ⟨fun c hc => absurd hc List.not_mem_nil, by decide⟩,
      by decide⟩
  have hwork : (system sampleConfig).Run (Working P.store.store.jobs) ⟨P.store, []⟩ Q :=
    Machine.Run.refl.list ⟨hspawn, by simp [Machine.AllowedList, Working, calmChoice, calm]⟩
  exact ⟨by decide +kernel, queue_drains hrun hwork⟩

end SocialMonitor.Backend

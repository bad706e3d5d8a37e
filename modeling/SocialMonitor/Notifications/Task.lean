import SocialMonitor.Async.Pool
import SocialMonitor.Queue

/-!
# Processing a notification task

`NotificationService.processTask` and `dispatch`, over the operations they
await: the two repository calls, the send of the provider, which is started and
then awaited, the clock and the event stream.
-/

namespace SocialMonitor.Notifications

open Async

structure TaskWithRelations where
  task : NotificationTask
  message : Message
  target : MonitorTarget
  channel : NotificationChannel

structure NotificationPayload where
  sourceLabel : String
  targetName : String
  author : String
  content : String
  url : Option String
deriving DecidableEq, Repr

structure TaskUpdate where
  status : NotificationStatus
  attemptsIncrement : ℕ := 0
  sentAt : Option Time := none
  lastError : Option (Option String) := none
deriving DecidableEq

def TaskUpdate.apply (u : TaskUpdate) (t : NotificationTask) : NotificationTask :=
  { t with
    status := u.status
    attempts := t.attempts + u.attemptsIncrement
    sentAt := u.sentAt.orElse fun _ => t.sentAt
    lastError := u.lastError.getD t.lastError }

inductive Op where
  | findTaskWithRelations (id : Id)
  | updateTask (id : Id) (data : TaskUpdate)
  | startSend (provider : NotificationChannelType) (config : Js.Json)
      (payload : NotificationPayload)
  | finishSend
  | now
  | emit (event : SseEvent)

abbrev Answer : Op → Type
  | .findTaskWithRelations _ => Option TaskWithRelations
  | .updateTask _ _ => Unit
  | .startSend _ _ _ => Unit
  | .finishSend => Unit
  | .now => Time
  | .emit _ => Unit

abbrev Api := Program Op Answer ApiError

/-! ## The operations on the store -/

def taskWithRelations? (s : Store) (id : Id) : Option TaskWithRelations := do
  let task ← s.task? id
  let message ← s.message? task.messageId
  let target ← s.target? message.targetId
  let channel ← s.channel? task.channelId
  return ⟨task, message, target, channel⟩

def updateTaskRow (s : Store) (id : Id) (data : TaskUpdate) : Store :=
  { s with tasks := s.tasks.map fun t => if t.id = id then data.apply t else t }

theorem task?_updateTaskRow (s : Store) (id id' : Id) (data : TaskUpdate) :
    (updateTaskRow s id data).task? id' =
      if id' = id then (s.task? id').map data.apply else s.task? id' := by
  unfold Store.task? updateTaskRow
  induction s.tasks with
  | nil => simp
  | cons t ts ih =>
      by_cases ht : t.id = id
      · by_cases hid : t.id = id'
        · simp [ht, TaskUpdate.apply, ← hid]
        · have hne : id' ≠ id := fun h => hid (ht.trans h.symm)
          have hne' : id ≠ id' := Ne.symm hne
          simpa [ht, TaskUpdate.apply, hne, hne'] using ih
      · by_cases hid : t.id = id'
        · have hne : id' ≠ id := fun h => ht (hid.trans h)
          simp [hid, hne]
        · simpa [ht, hid] using ih

theorem taskWithRelations?_updateTaskRow (s : Store) (id id' : Id) (data : TaskUpdate) :
    taskWithRelations? (updateTaskRow s id data) id' =
      if id' = id then (taskWithRelations? s id').map fun t => { t with task := data.apply t.task }
      else taskWithRelations? s id' := by
  unfold taskWithRelations?
  rw [task?_updateTaskRow]
  split_ifs
  · cases s.task? id' with
    | none => rfl
    | some task =>
        simp [updateTaskRow, TaskUpdate.apply, Store.message?, Store.target?, Store.channel?]
  · rfl

/-- `prisma.update` of a row that is not there. -/
def recordNotFound : ApiError :=
  .prisma "P2025" "An operation failed because it depends on one or more records that were required but not found."

def exec (c : Choice) : (op : Op) → Store → Except ApiError (Answer op) × Store
  | .findTaskWithRelations id, s => c.query s (.ok (taskWithRelations? s id), s)
  | .updateTask id data, s =>
      c.query s <|
        if (s.task? id).isSome then (.ok (), updateTaskRow s id data)
        else (.error recordNotFound, s)
  | .startSend _ _ _, s => (.ok (), s)
  | .finishSend, s => (c.outcome, s)
  | .now, s => (.ok c.now, s)
  | .emit event, s => (.ok (), { s with events := s.events ++ [event] })

/-! ## The service -/

def findTaskWithRelations (id : Id) : Api (Option TaskWithRelations) :=
  Program.await (Op.findTaskWithRelations id)

def updateTask (id : Id) (data : TaskUpdate) : Api Unit := Program.await (Op.updateTask id data)

def now : Api Time := Program.await Op.now

def emit (event : SseEvent) : Api Unit := Program.await (Op.emit event)

def providers : List NotificationChannelType := [.telegram, .wechat, .qq]

/-- `NotificationProviderFactory.get`. -/
def factoryGet (type : NotificationChannelType) : Api NotificationChannelType :=
  if type ∈ providers then pure type
  else throw (.http .badRequest
    s!"Unsupported notification channel type: {type.name}"
    "UNSUPPORTED_CHANNEL_TYPE")

@[simp] theorem factoryGet_eq (type : NotificationChannelType) :
    factoryGet type = .ret type := by
  cases type <;> rfl

def send (provider : NotificationChannelType) (config : Js.Json)
    (payload : NotificationPayload) : Api Unit := do
  Program.await (Op.startSend provider config payload)
  Program.await Op.finishSend

def monitorTypeLabel : MonitorType → String
  | .xUser => "X"
  | .tgChannel => "TG频道"
  | .tgGroup => "TG群组"

/-- `a || b` on a string that may be missing. -/
def orNonempty (a : Option String) (b : String) : String :=
  match a with
  | some s => if s = "" then b else s
  | none => b

def buildPayload (t : TaskWithRelations) : NotificationPayload where
  sourceLabel := monitorTypeLabel t.target.type
  targetName := t.target.name
  author :=
    if t.target.type = .tgGroup then
      orNonempty t.message.authorName
        (orNonempty t.message.authorUsername (orNonempty t.message.authorExternalId ""))
    else ""
  content := t.message.content
  url := t.message.url

def taskNotFound (id : Id) : ApiError :=
  .http .notFound s!"Notification task not found: {id}" "TASK_NOT_FOUND"

def setProcessing : TaskUpdate := { status := .processing, attemptsIncrement := 1 }

def setSent (sentAt : Time) : TaskUpdate :=
  { status := .sent, sentAt := some sentAt, lastError := some none }

def setFailed (message : String) : TaskUpdate :=
  { status := .failed, lastError := some (some message) }

/-- One attempt.  The update to `SENT` stands inside the guarded part, so its
error is caught like an error of the provider. -/
def processTask (taskId : Id) : Api Unit := do
  let some task ← findTaskWithRelations taskId | throw (taskNotFound taskId)
  updateTask taskId setProcessing
  try
    let provider ← factoryGet task.channel.type
    send provider task.channel.config (buildPayload task)
    updateTask taskId (setSent (← now))
    emit (.notificationSent taskId task.channel.type (task.task.attempts + 1))
  catch error =>
    let message := error.message
    updateTask taskId (setFailed message)
    emit (.notificationFailed taskId task.channel.type (task.task.attempts + 1) message)
    throw error

/-- One attempt for a manual call: only a missing task is reported. -/
def dispatch (taskId : Id) : Api Unit := do
  try
    processTask taskId
  catch error =>
    if error.isNotFound then throw error

/-- `NotificationWorkerService.process`. -/
def process (job : Job) : Api Unit := processTask job.taskId

/-! ## A store with one fresh task -/

def oneTask : Store where
  targets := [⟨1, .tgChannel, "channel", none, "-1001", true, none, 0⟩]
  messages := [⟨2, .telegram, "-1001:7", 1, none, none, none, "text", none, 0⟩]
  channels := [⟨3, "bot", .telegram, true, .null, 0⟩]
  tasks := [⟨4, 2, 3, .pending, 0, none, none, 0⟩]
  jobs := [Queue.jobOf 4 .telegram]
  events := []
  nextId := 5

end SocialMonitor.Notifications

import SocialMonitor.Async.Pool
import SocialMonitor.Queue

/-!
# Creating a message

`MessageService.create` with `resolveTarget` and `routeToEnabledChannels`, over
the operations of the repository, the queue and the event stream.
-/

namespace SocialMonitor.Messages

open Async

structure Author where
  externalId : Option String
  username : Option String
  displayName : Option String
deriving DecidableEq, Repr

/-- `publishedAt` is `none` for an invalid date. -/
structure NormalizedMessage where
  source : MessageSource
  externalId : String
  targetExternalId : String
  targetType : MonitorType
  targetName : String
  author : Option Author
  content : String
  url : Option String
  publishedAt : Option Time
deriving DecidableEq, Repr

/-- `Prisma.MessageUncheckedCreateInput`. -/
structure MessageCreateInput where
  source : MessageSource
  externalId : String
  targetId : Id
  authorExternalId : Option String
  authorUsername : Option String
  authorName : Option String
  content : String
  url : Option String
  publishedAt : Option Time

structure MessageWithTarget where
  message : Message
  target : MonitorTarget
deriving DecidableEq, Repr

structure CreatedTask where
  id : Id
  channelId : Id
deriving DecidableEq, Repr

structure TargetRef where
  id : Id
  name : String
deriving DecidableEq, Repr

structure MessageDto where
  id : Id
  source : MessageSource
  target : TargetRef
  author : Option Author
  content : String
  url : Option String
  publishedAt : Time
deriving DecidableEq, Repr

inductive Op where
  | findTelegramTargetByExternalId (externalId : String)
  | findTargetByTypeExternalId (type : MonitorType) (externalId : String)
  | findUniqueBySourceExternalId (source : MessageSource) (externalId : String)
  | createMessage (data : MessageCreateInput)
  | updateTargetLastMessageAt (targetId : Id) (publishedAt : Option Time)
  | emit (event : SseEvent)
  | findEnabledNotificationChannels
  | createNotificationTasks (messageId : Id) (channelIds : List Id)
  | enqueueTask (taskId : Id) (type : NotificationChannelType)

abbrev Answer : Op → Type
  | .findTelegramTargetByExternalId _ => Option MonitorTarget
  | .findTargetByTypeExternalId _ _ => Option MonitorTarget
  | .findUniqueBySourceExternalId _ _ => Option MessageWithTarget
  | .createMessage _ => MessageWithTarget
  | .updateTargetLastMessageAt _ _ => Unit
  | .emit _ => Unit
  | .findEnabledNotificationChannels => List NotificationChannel
  | .createNotificationTasks _ _ => List CreatedTask
  | .enqueueTask _ _ => Unit

abbrev Api := Program Op Answer ApiError

/-! ## The operations on the store -/

def invalidDate : ApiError :=
  .other "Invalid value for argument publishedAt: Provided Date object is invalid. Expected Date."

def uniqueViolation : ApiError :=
  .prisma "P2002" "Unique constraint failed on the fields: (source,externalId)"

def foreignKeyViolation : ApiError := .prisma "P2003" "Foreign key constraint violated"

def recordNotFound : ApiError :=
  .prisma "P2025" "An operation failed because it depends on one or more records that were required but not found."

def messageByKey? (s : Store) (source : MessageSource) (externalId : String) : Option Message :=
  s.messages.find? fun m => m.source = source && m.externalId = externalId

/-- Include the target of a message. -/
def withTarget? (s : Store) (m : Message) : Option MessageWithTarget :=
  (s.target? m.targetId).map fun t => ⟨m, t⟩

def messageRow (data : MessageCreateInput) (id : Id) (publishedAt : Time) : Message where
  id := id
  source := data.source
  externalId := data.externalId
  targetId := data.targetId
  authorExternalId := data.authorExternalId
  authorUsername := data.authorUsername
  authorName := data.authorName
  content := data.content
  url := data.url
  publishedAt := publishedAt

def createMessage (data : MessageCreateInput) (s : Store) :
    Except ApiError MessageWithTarget × Store :=
  match data.publishedAt with
  | none => (.error invalidDate, s)
  | some publishedAt =>
      if (messageByKey? s data.source data.externalId).isSome then (.error uniqueViolation, s)
      else
        match s.target? data.targetId with
        | none => (.error foreignKeyViolation, s)
        | some target =>
            let row := messageRow data s.nextId publishedAt
            (.ok ⟨row, target⟩,
              { s with messages := s.messages ++ [row], nextId := s.nextId + 1 })

theorem createMessage_eq {data : MessageCreateInput} {s : Store} {publishedAt : Time}
    {target : MonitorTarget} (hdate : data.publishedAt = some publishedAt)
    (hkey : messageByKey? s data.source data.externalId = none)
    (htarget : s.target? data.targetId = some target) :
    createMessage data s = (.ok ⟨messageRow data s.nextId publishedAt, target⟩,
      { s with
        messages := s.messages ++ [messageRow data s.nextId publishedAt]
        nextId := s.nextId + 1 }) := by
  simp [createMessage, hdate, hkey, htarget]

def updateTargetLastMessageAt (targetId : Id) (publishedAt : Option Time) (s : Store) :
    Except ApiError Unit × Store :=
  match publishedAt with
  | none => (.error invalidDate, s)
  | some time =>
      if (s.target? targetId).isSome then
        (.ok (), { s with
          targets := s.targets.map fun t =>
            if t.id = targetId then { t with lastMessageAt := some time } else t })
      else (.error recordNotFound, s)

/-- The defaults of the table. -/
def taskRow (id messageId channelId : Id) (createdAt : Time) : NotificationTask where
  id := id
  messageId := messageId
  channelId := channelId
  status := .pending
  attempts := 0
  lastError := none
  sentAt := none
  createdAt := createdAt

def hasTask (s : Store) (messageId channelId : Id) : Bool :=
  s.tasks.any fun t => t.messageId = messageId && t.channelId = channelId

/-- `ON CONFLICT DO NOTHING`, one row after the other. -/
def insertTasks (messageId : Id) (createdAt : Time) :
    List Id → Store → List CreatedTask × Store
  | [], s => ([], s)
  | channelId :: rest, s =>
      if hasTask s messageId channelId then insertTasks messageId createdAt rest s
      else
        let row := taskRow s.nextId messageId channelId createdAt
        let inserted := insertTasks messageId createdAt rest
          { s with tasks := s.tasks ++ [row], nextId := s.nextId + 1 }
        (⟨row.id, row.channelId⟩ :: inserted.1, inserted.2)

def createNotificationTasks (messageId : Id) (channelIds : List Id) (createdAt : Time)
    (s : Store) : Except ApiError (List CreatedTask) × Store :=
  let inserted := insertTasks messageId createdAt channelIds s
  if inserted.1.all fun t => (s.message? messageId).isSome && (s.channel? t.channelId).isSome then
    (.ok inserted.1, inserted.2)
  else (.error foreignKeyViolation, s)

def isTelegram (type : MonitorType) : Bool := type = .tgChannel || type = .tgGroup

/-- The rows `findFirst` may answer with. -/
def telegramTargets (s : Store) (externalId : String) : List MonitorTarget :=
  s.targets.filter fun t => isTelegram t.type && t.externalId = externalId && t.enabled

def exec (c : Choice) : (op : Op) → Store → Except ApiError (Answer op) × Store
  | .findTelegramTargetByExternalId externalId, s =>
      let found := telegramTargets s externalId
      c.query s (.ok found[c.pick % found.length]?, s)
  | .findTargetByTypeExternalId type externalId, s =>
      c.query s (.ok (s.targets.find? fun t => t.type = type && t.externalId = externalId), s)
  | .findUniqueBySourceExternalId source externalId, s =>
      c.query s (.ok ((messageByKey? s source externalId).bind (withTarget? s)), s)
  | .createMessage data, s => c.query s (createMessage data s)
  | .updateTargetLastMessageAt targetId publishedAt, s =>
      c.query s (updateTargetLastMessageAt targetId publishedAt s)
  | .emit event, s => (.ok (), { s with events := s.events ++ [event] })
  | .findEnabledNotificationChannels, s => c.query s (.ok (s.channels.filter (·.enabled)), s)
  | .createNotificationTasks messageId channelIds, s =>
      c.query s (createNotificationTasks messageId channelIds c.now s)
  | .enqueueTask taskId type, s => Queue.enqueueTask c taskId type s

/-! ## The service -/

def targetNotFound (input : NormalizedMessage) : ApiError :=
  .http .notFound
    s!"Monitor target not found: {input.targetType.name}:{input.targetExternalId}"
    "TARGET_NOT_FOUND"

def findUniqueBySourceExternalId (source : MessageSource) (externalId : String) :
    Api (Option MessageWithTarget) :=
  Program.await (Op.findUniqueBySourceExternalId source externalId)

def resolveTarget (input : NormalizedMessage) : Api MonitorTarget := do
  let some target ←
      Program.await (Op.findTargetByTypeExternalId input.targetType input.targetExternalId)
    | throw (targetNotFound input)
  return target

def messageData (input : NormalizedMessage) (target : MonitorTarget) : MessageCreateInput where
  source := input.source
  externalId := input.externalId
  targetId := target.id
  authorExternalId := input.author.bind Author.externalId
  authorUsername := input.author.bind Author.username
  authorName := input.author.bind Author.displayName
  content := input.content
  url := input.url
  publishedAt := input.publishedAt

/-- `typeByChannelId.get`: the last entry of a channel wins. -/
def typeByChannelId (channels : List NotificationChannel) (id : Id) :
    Option NotificationChannelType :=
  (channels.reverse.find? fun c => c.id = id).map NotificationChannel.type

def enqueueCreated (channels : List NotificationChannel) (task : CreatedTask) : Api Unit :=
  match typeByChannelId channels task.channelId with
  | some type => Program.await (Op.enqueueTask task.id type)
  | none => pure ()

def routeToEnabledChannels (messageId : Id) : Api Unit := do
  let channels ← Program.await Op.findEnabledNotificationChannels
  if channels = [] then return
  let created ← Program.await
    (Op.createNotificationTasks messageId (channels.map NotificationChannel.id))
  created.forM (enqueueCreated channels)

def toDto (m : MessageWithTarget) : MessageDto where
  id := m.message.id
  source := m.message.source
  target := ⟨m.target.id, m.target.name⟩
  author :=
    if m.message.authorExternalId.isSome || m.message.authorUsername.isSome ||
        m.message.authorName.isSome then
      some ⟨m.message.authorExternalId, m.message.authorUsername, m.message.authorName⟩
    else none
  content := m.message.content
  url := m.message.url
  publishedAt := m.message.publishedAt

/-- The stored message of the key, and whether this call has stored it. -/
def findOrCreate (input : NormalizedMessage) (target : MonitorTarget) :
    Api (MessageWithTarget × Bool) := do
  match ← findUniqueBySourceExternalId input.source input.externalId with
  | some existing => pure (existing, false)
  | none =>
      try
        let message ← Program.await (Op.createMessage (messageData input target))
        pure (message, true)
      catch error =>
        if !error.isPrismaUniqueViolation then throw error
        let some deduped ← findUniqueBySourceExternalId input.source input.externalId
          | throw error
        pure (deduped, false)

def create (input : NormalizedMessage) : Api MessageDto := do
  let target ← resolveTarget input
  let (message, isNew) ← findOrCreate input target
  if isNew then
    Program.await (Op.updateTargetLastMessageAt target.id input.publishedAt)
    Program.await (Op.emit (.messageCreated message.message.id message.message.source
      message.target.name))
  routeToEnabledChannels message.message.id
  return toDto message

end SocialMonitor.Messages

import SocialMonitor.Channels.Providers
import SocialMonitor.Js.Text

/-!
# The notification service

The methods of `NotificationService` on channels and tasks, and
`MessageService.findNotifications`.  The send of `processTask` is that of the
provider.
-/

namespace SocialMonitor.Channels

open Async Notifications

structure ChannelConfigDto where
  configured : Bool
deriving DecidableEq

structure ChannelDto where
  id : Id
  name : String
  type : NotificationChannelType
  enabled : Bool
  config : ChannelConfigDto
deriving DecidableEq

structure CreateChannelDto where
  name : String
  type : NotificationChannelType
  config : Js.Json

structure UpdateChannelDto where
  name : Monitors.Field String
  enabled : Monitors.Field Bool
  config : Monitors.Field Js.Json

structure TaskDetailMessageDto where
  id : Id
  source : MessageSource
  targetName : String
  content : String
  url : Option String
  publishedAt : Time
deriving DecidableEq

structure TaskDetailDto where
  id : Id
  messageId : Id
  message : TaskDetailMessageDto
  channel : TaskChannelDto
  status : NotificationStatus
  attempts : ℕ
  lastError : Option String
  sentAt : Option Time
  createdAt : Time
deriving DecidableEq

structure MessageNotificationDto where
  id : Id
  channel : TaskChannelDto
  status : NotificationStatus
  attempts : ℕ
  sentAt : Option Time
deriving DecidableEq

/-- The config of a channel is not shown. -/
def toChannelDto (c : NotificationChannel) : ChannelDto where
  id := c.id
  name := c.name
  type := c.type
  enabled := c.enabled
  config := ⟨true⟩

def toTaskDetailDto (t : TaskWithRelations) : TaskDetailDto where
  id := t.task.id
  messageId := t.task.messageId
  message := ⟨t.message.id, t.message.source, t.target.name, t.message.content, t.message.url,
    t.message.publishedAt⟩
  channel := ⟨t.channel.id, t.channel.name, t.channel.type⟩
  status := t.task.status
  attempts := t.task.attempts
  lastError := t.task.lastError
  sentAt := t.task.sentAt
  createdAt := t.task.createdAt

def toNotificationDto (t : TaskWithChannel) : MessageNotificationDto where
  id := t.task.id
  channel := ⟨t.channel.id, t.channel.name, t.channel.type⟩
  status := t.task.status
  attempts := t.task.attempts
  sentAt := t.task.sentAt

def channelNotFound (id : Id) : ApiError :=
  .http .notFound s!"Notification channel not found: {id}" "CHANNEL_NOT_FOUND"

def messageNotFound (id : Id) : ApiError :=
  .http .notFound s!"Message not found: {id}" "MESSAGE_NOT_FOUND"

def validateConfig (type : NotificationChannelType) (config : Js.Json) : Except ApiError Unit :=
  match type with
  | .telegram =>
      if (truthy? config "botToken").isSome && (truthy? config "chatId").isSome then .ok ()
      else .error telegramRequires
  | .wechat => if (truthy? config "webhookUrl").isSome then .ok () else .error wechatRequires
  | .qq => if (truthy? config "groupOpenid").isSome then .ok () else .error qqRequires

structure ChannelQueryDto where
  type : Option NotificationChannelType
  enabled : Option Bool

def listChannels (query : ChannelQueryDto) : Api (List ChannelDto) := do
  let channels ← Program.await (Op.findChannels ⟨query.type, query.enabled⟩)
  return channels.map toChannelDto

def createChannel (dto : CreateChannelDto) : Api ChannelDto := do
  Program.ofExcept (validateConfig dto.type dto.config)
  let created ← Program.await (Op.createChannel ⟨Js.trim dto.name, dto.type, dto.config⟩)
  return toChannelDto created

/-- `getChannel` and the private `ensureChannelExists` look a channel up alike. -/
def ensureChannelExists (id : Id) : Api NotificationChannel := do
  let some channel ← Program.await (Op.findChannelById id) | throw (channelNotFound id)
  return channel

def getChannel (id : Id) : Api ChannelDto := do
  let channel ← ensureChannelExists id
  return toChannelDto channel

/-- `dto.name.trim()`, where the name is given. -/
def trimmedName : Monitors.Field String → Except ApiError (Option String)
  | .undefined => .ok none
  | .null => .error (typeError (.nullProperty "trim"))
  | .value name => .ok (some (Js.trim name))

/-- A config that is given is checked for the type of the channel. -/
def validateUpdate (type : NotificationChannelType) : Monitors.Field Js.Json → Except ApiError Unit
  | .value config => if config.truthy then validateConfig type config else .ok ()
  | _ => .ok ()

def updateChannel (id : Id) (dto : UpdateChannelDto) : Api ChannelDto := do
  let current ← ensureChannelExists id
  Program.ofExcept (validateUpdate current.type dto.config)
  let name ← Program.ofExcept (trimmedName dto.name)
  let updated ← Program.await (Op.updateChannel id ⟨name, dto.enabled, dto.config⟩)
  return toChannelDto updated

variable (setting : Setting)

/-- The operations of a task: the send is the program of the provider. -/
def perform : (op : Notifications.Op) → Api (Notifications.Answer op)
  | .startSend provider config payload => sendBy setting provider config payload
  | .finishSend => pure ()
  | op => Program.await (Op.task op)

def testPayload : NotificationPayload where
  sourceLabel := "TG群组"
  targetName := "Social Monitor"
  author := "测试用户"
  content := "Social Monitor 测试消息"
  url := none

def testChannel (id : Id) : Api Bool := do
  let channel ← ensureChannelExists id
  let provider ← (factoryGet channel.type).interp (perform setting)
  sendBy setting provider channel.config testPayload
  return true

def processTask (taskId : Id) : Api Unit :=
  (Notifications.processTask taskId).interp (perform setting)

def dispatch (taskId : Id) : Api Unit := (Notifications.dispatch taskId).interp (perform setting)

def listTasks (query : TaskQueryDto) : Api (Listing.Paginated TaskDto) :=
  (Notifications.listTasks query).interp fun op => Program.await (Op.findTasks op)

def getTask (id : Id) : Api TaskDetailDto := do
  let some task ← Program.await (Op.task (.findTaskWithRelations id)) | throw (taskNotFound id)
  return toTaskDetailDto task

/-- `MessageService.findNotifications`. -/
def findNotifications (messageId : Id) : Api (List MessageNotificationDto) := do
  let some _ ← Program.await (Op.findMessage messageId) | throw (messageNotFound messageId)
  let tasks ← Program.await (Op.findNotifications messageId)
  return tasks.map toNotificationDto

/-! ## Requests -/

inductive Request where
  | createChannel (dto : CreateChannelDto)
  | updateChannel (id : Id) (dto : UpdateChannelDto)
  | listChannels (query : ChannelQueryDto)
  | getChannel (id : Id)
  | testChannel (id : Id)
  | processTask (taskId : Id)
  | dispatch (taskId : Id)
  | listTasks (query : TaskQueryDto)
  | getTask (id : Id)
  | findNotifications (messageId : Id)

inductive Reply where
  | channel (dto : ChannelDto)
  | channels (dtos : List ChannelDto)
  | tested (success : Bool)
  | processed
  | tasks (body : Listing.Paginated TaskDto)
  | task (dto : TaskDetailDto)
  | notifications (dtos : List MessageNotificationDto)

def program : Request → Api Reply
  | .createChannel dto => return .channel (← createChannel dto)
  | .updateChannel id dto => return .channel (← updateChannel id dto)
  | .listChannels query => return .channels (← listChannels query)
  | .getChannel id => return .channel (← getChannel id)
  | .testChannel id => return .tested (← testChannel setting id)
  | .processTask taskId => do
      processTask setting taskId
      return .processed
  | .dispatch taskId => do
      dispatch setting taskId
      return .processed
  | .listTasks query => return .tasks (← listTasks query)
  | .getTask id => return .task (← getTask id)
  | .findNotifications messageId => return .notifications (← findNotifications messageId)

def serve (request : Request) (choices : ℕ → Choice) (w : World) : Except ApiError Reply × World :=
  (program setting request).run exec choices w

end SocialMonitor.Channels

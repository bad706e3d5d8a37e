import SocialMonitor.Js.Utf16
import SocialMonitor.Listing
import SocialMonitor.Notifications.Task

/-!
# Tasks as they are shown

`NotificationService.listTasks` and `getTask`.
-/

namespace SocialMonitor.Notifications

open Async

structure TaskMessageDto where
  id : Id
  targetName : String
  content : Js.CodeUnits
deriving DecidableEq

structure TaskChannelDto where
  id : Id
  name : String
  type : NotificationChannelType
deriving DecidableEq

structure TaskDto where
  id : Id
  messageId : Id
  message : TaskMessageDto
  channel : TaskChannelDto
  status : NotificationStatus
  attempts : ℕ
  lastError : Option String
  sentAt : Option Time
  createdAt : Time
deriving DecidableEq

/-- A message is shown by its first 120 code units. -/
def toTaskDto (t : TaskWithRelations) : TaskDto where
  id := t.task.id
  messageId := t.task.messageId
  message := ⟨t.message.id, t.target.name, (Js.utf16 t.message.content.toList).take 120⟩
  channel := ⟨t.channel.id, t.channel.name, t.channel.type⟩
  status := t.task.status
  attempts := t.task.attempts
  lastError := t.task.lastError
  sentAt := t.task.sentAt
  createdAt := t.task.createdAt

structure TaskQueryDto where
  page : Option ℕ
  pageSize : Option ℕ
  status : Option NotificationStatus
  channelId : Option Id
  dateFrom : Option Time
  dateTo : Option Time

/-- `Prisma.NotificationTaskWhereInput`. -/
structure TaskWhere where
  status : Option NotificationStatus
  channelId : Option Id
  gte : Option Time
  lte : Option Time

def TaskQueryDto.filter (query : TaskQueryDto) : TaskWhere where
  status := query.status
  channelId := query.channelId
  gte := query.dateFrom
  lte := query.dateTo

def TaskWhere.selects (w : TaskWhere) (t : NotificationTask) : Bool :=
  w.status.all (fun status => t.status = status) &&
    w.channelId.all (fun channelId => t.channelId = channelId) &&
    w.gte.all (fun dateFrom => dateFrom ≤ t.createdAt) && w.lte.all fun dateTo =>
      t.createdAt ≤ dateTo

def relations? (s : Store) (task : NotificationTask) : Option TaskWithRelations := do
  let message ← s.message? task.messageId
  let target ← s.target? message.targetId
  let channel ← s.channel? task.channelId
  return ⟨task, message, target, channel⟩

def taskSource : Listing.Source TaskWhere NotificationTask TaskWithRelations where
  rows := Store.tasks
  selects := TaskWhere.selects
  orderBy := NotificationTask.createdAt
  related := relations?

def listTasks (query : TaskQueryDto) : Program (Listing.Op TaskWhere)
    (Listing.Answer TaskWhere TaskWithRelations) ApiError (Listing.Paginated TaskDto) :=
  Listing.list toTaskDto query.filter query.page query.pageSize

end SocialMonitor.Notifications

import SocialMonitor.Js.Json

/-!
# The stored data

The rows of the tables, the jobs of the notification queues and the events of
the SSE stream.  An identifier stands for a `cuid`: the database draws it from
a counter, so that it differs from every identifier drawn before.
-/

namespace SocialMonitor

abbrev Id := ℕ

/-- Milliseconds since the epoch. -/
abbrev Time := ℤ

inductive MonitorType where
  | xUser
  | tgChannel
  | tgGroup
deriving DecidableEq, Repr

def MonitorType.name : MonitorType → String
  | .xUser => "X_USER"
  | .tgChannel => "TG_CHANNEL"
  | .tgGroup => "TG_GROUP"

inductive MessageSource where
  | x
  | telegram
deriving DecidableEq, Repr

inductive NotificationChannelType where
  | telegram
  | wechat
  | qq
deriving DecidableEq, Repr

def NotificationChannelType.name : NotificationChannelType → String
  | .telegram => "TELEGRAM"
  | .wechat => "WECHAT"
  | .qq => "QQ"

inductive NotificationStatus where
  | pending
  | processing
  | sent
  | failed
  | cancelled
deriving DecidableEq, Repr

structure MonitorTarget where
  id : Id
  type : MonitorType
  name : String
  username : Option String
  externalId : String
  enabled : Bool
  lastMessageAt : Option Time
  createdAt : Time
deriving DecidableEq, Repr

structure Message where
  id : Id
  source : MessageSource
  externalId : String
  targetId : Id
  authorExternalId : Option String
  authorUsername : Option String
  authorName : Option String
  content : String
  url : Option String
  publishedAt : Time
deriving DecidableEq, Repr

structure NotificationChannel where
  id : Id
  name : String
  type : NotificationChannelType
  enabled : Bool
  config : Js.Json
  createdAt : Time

structure NotificationTask where
  id : Id
  messageId : Id
  channelId : Id
  status : NotificationStatus
  attempts : ℕ
  lastError : Option String
  sentAt : Option Time
  createdAt : Time
deriving DecidableEq, Repr

/-- What `queue.add` was given. -/
structure Job where
  queue : String
  taskId : Id
  attempts : ℕ
deriving DecidableEq, Repr

inductive SseEvent where
  | messageCreated (id : Id) (source : MessageSource) (targetName : String)
  | notificationSent (id : Id) (channelType : NotificationChannelType) (attempts : ℕ)
  | notificationFailed (id : Id) (channelType : NotificationChannelType) (attempts : ℕ)
      (error : String)
  | monitorStatusChanged (id : Id) (enabled : Bool) (type : MonitorType)
deriving DecidableEq, Repr

structure Store where
  targets : List MonitorTarget
  messages : List Message
  channels : List NotificationChannel
  tasks : List NotificationTask
  jobs : List Job
  events : List SseEvent
  nextId : Id

def Store.empty : Store := ⟨[], [], [], [], [], [], 0⟩

namespace Store

def target? (s : Store) (id : Id) : Option MonitorTarget := s.targets.find? fun t => t.id = id

def message? (s : Store) (id : Id) : Option Message := s.messages.find? fun m => m.id = id

def channel? (s : Store) (id : Id) : Option NotificationChannel :=
  s.channels.find? fun c => c.id = id

def task? (s : Store) (id : Id) : Option NotificationTask := s.tasks.find? fun t => t.id = id

end Store

/-! ## Errors -/

inductive HttpStatus where
  | badRequest
  | unauthorized
  | notFound
  | conflict
  | serviceUnavailable
deriving DecidableEq, Repr

/-- What the services throw: an exception of the web framework with the code of
its response, an error of the database client with its code, or another
error. -/
inductive ApiError where
  | http (status : HttpStatus) (message code : String)
  | prisma (code message : String)
  | other (message : String)
deriving DecidableEq, Repr

namespace ApiError

def message : ApiError → String
  | http _ message _ => message
  | prisma _ message => message
  | other message => message

/-- `error instanceof NotFoundException`. -/
def isNotFound : ApiError → Bool
  | http .notFound _ _ => true
  | _ => false

def isPrismaUniqueViolation : ApiError → Bool
  | prisma code _ => code = "P2002"
  | _ => false

end ApiError

/-- What the outside decides at one step: an error of the database, of the
queue or of the platform, the time, and which of several rows comes first. -/
structure Choice where
  fault : Option ApiError
  queueFault : Option ApiError
  outcome : Except ApiError Unit
  now : Time
  pick : ℕ

/-- Nothing fails. -/
def calm : Choice := ⟨none, none, .ok (), 1000, 0⟩

/-- A call of the database fails without an effect or is applied. -/
def Choice.query {α : Type} (c : Choice) (s : Store) (applied : Except ApiError α × Store) :
    Except ApiError α × Store :=
  match c.fault with
  | some error => (.error error, s)
  | none => applied

theorem Choice.query_of_fault_none {α : Type} {c : Choice} (h : c.fault = none) (s : Store)
    (applied : Except ApiError α × Store) : c.query s applied = applied := by
  simp [query, h]

theorem Choice.query_cases {α : Type} (c : Choice) (s : Store)
    (applied : Except ApiError α × Store) :
    (∃ error, c.fault = some error ∧ c.query s applied = (.error error, s)) ∨
      c.fault = none ∧ c.query s applied = applied := by
  cases h : c.fault with
  | some error => exact Or.inl ⟨error, rfl, by simp [query, h]⟩
  | none => exact Or.inr ⟨rfl, by simp [query, h]⟩

end SocialMonitor

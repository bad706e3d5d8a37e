import SocialMonitor.Js.Arithmetic
import SocialMonitor.Js.Coercion
import SocialMonitor.Messages.Create
import SocialMonitor.Monitors.Service
import SocialMonitor.Notifications.Tasks

/-!
# Notification channels

The operations that `NotificationService` and the providers await: the
repository, the clock, the token that the QQ client keeps and requests to the
platforms.
-/

namespace SocialMonitor.Channels

open Async Notifications

structure HttpRequest where
  url : Js.CodeUnits
  authorization : Option Js.CodeUnits
  body : Js.Json

/-- A response; reading its body may fail too. -/
structure HttpResponse where
  status : ℕ
  text : Except ApiError String
  json : Except ApiError Js.Json

def HttpResponse.ok (response : HttpResponse) : Bool :=
  200 ≤ response.status && response.status < 300

structure CachedToken where
  token : Js.Json
  expiresAt : Js.Number

structure World where
  store : Store
  cachedToken : Option CachedToken

/-- What the outside decides at one step.  Without a response the network failed. -/
structure Choice extends SocialMonitor.Choice where
  response : Option HttpResponse

/-- `Prisma.NotificationChannelWhereInput`. -/
structure ChannelWhere where
  type : Option NotificationChannelType
  enabled : Option Bool

def ChannelWhere.selects (w : ChannelWhere) (c : NotificationChannel) : Bool :=
  w.type.all (fun type => c.type = type) && w.enabled.all fun enabled => c.enabled = enabled

structure ChannelData where
  name : String
  type : NotificationChannelType
  config : Js.Json

structure ChannelUpdate where
  name : Option String
  enabled : Monitors.Field Bool
  config : Monitors.Field Js.Json

structure TaskWithChannel where
  task : NotificationTask
  channel : NotificationChannel

inductive Op where
  | findChannels (filter : ChannelWhere)
  | findChannelById (id : Id)
  | createChannel (data : ChannelData)
  | updateChannel (id : Id) (data : ChannelUpdate)
  | findTasks (op : Listing.Op TaskWhere)
  | task (op : Notifications.Op)
  | findMessage (id : Id)
  | findNotifications (messageId : Id)
  | now
  | cachedToken
  | cacheToken (token : CachedToken)
  | fetch (request : HttpRequest)

abbrev Answer : Op → Type
  | .findChannels _ => List NotificationChannel
  | .findChannelById _ => Option NotificationChannel
  | .createChannel _ => NotificationChannel
  | .updateChannel _ _ => NotificationChannel
  | .findTasks op => Listing.Answer TaskWhere TaskWithRelations op
  | .task op => Notifications.Answer op
  | .findMessage _ => Option Messages.MessageWithTarget
  | .findNotifications _ => List TaskWithChannel
  | .now => Time
  | .cachedToken => Option CachedToken
  | .cacheToken _ => Unit
  | .fetch _ => HttpResponse

abbrev Api := Program Op Answer ApiError

/-! ## The operations on the store -/

def channelRow (data : ChannelData) (id : Id) (createdAt : Time) : NotificationChannel where
  id := id
  name := data.name
  type := data.type
  enabled := true
  config := data.config
  createdAt := createdAt

/-- The error of the database for a text that it cannot hold. -/
def unstorable : ApiError := .other "unsupported Unicode escape sequence"

/-- What the column of the configs holds of a value. -/
def storedConfig (config : Js.Json) : Except ApiError Js.Json :=
  match config.column? with
  | some held => .ok held
  | none => .error unstorable

theorem storedConfig_ok {config held : Js.Json} :
    storedConfig config = .ok held ↔ config.column? = some held := by
  unfold storedConfig
  split <;> simp_all

/-- The config that a field gives; the column takes the value `null` of JSON. -/
def given : Monitors.Field Js.Json → Option Js.Json
  | .undefined => none
  | .null => some .null
  | .value v => some v

def setConfig (old : Js.Json) (f : Monitors.Field Js.Json) : Except ApiError Js.Json :=
  match given f with
  | some config => storedConfig config
  | none => .ok old

theorem setConfig_ok {old held : Js.Json} {f : Monitors.Field Js.Json}
    (h : setConfig old f = .ok held) :
    given f = none ∧ held = old ∨ ∃ config, given f = some config ∧ config.column? = some held := by
  unfold setConfig at h
  split at h
  · rename_i config hgiven
    exact Or.inr ⟨config, hgiven, storedConfig_ok.mp h⟩
  · rename_i hgiven
    exact Or.inl ⟨hgiven, (Except.ok.inj h).symm⟩

def createChannelRow (data : ChannelData) (createdAt : Time) (s : Store) :
    Except ApiError NotificationChannel × Store :=
  match storedConfig data.config with
  | .error error => (.error error, s)
  | .ok config =>
      let row := channelRow { data with config := config } s.nextId createdAt
      (.ok row, { s with channels := s.channels ++ [row], nextId := s.nextId + 1 })

theorem createChannelRow_cases (data : ChannelData) (createdAt : Time) (s : Store) :
    (∃ error, createChannelRow data createdAt s = (.error error, s)) ∨
      ∃ config, data.config.column? = some config ∧ createChannelRow data createdAt s =
        (.ok (channelRow { data with config := config } s.nextId createdAt), { s with
          channels := s.channels ++
            [channelRow { data with config := config } s.nextId createdAt]
          nextId := s.nextId + 1 }) := by
  unfold createChannelRow
  cases hstored : storedConfig data.config with
  | error error => exact Or.inl ⟨error, rfl⟩
  | ok config => exact Or.inr ⟨config, storedConfig_ok.mp hstored, rfl⟩

def updatedChannel (data : ChannelUpdate) (c : NotificationChannel) :
    Except ApiError NotificationChannel := do
  let enabled ← Monitors.setColumn c.enabled data.enabled
  let config ← setConfig c.config data.config
  return { c with name := data.name.getD c.name, enabled := enabled, config := config }

theorem updatedChannel_ok {data : ChannelUpdate} {c row : NotificationChannel}
    (h : updatedChannel data c = .ok row) : data.enabled ≠ .null ∧
      setConfig c.config data.config = .ok row.config ∧ row = { c with
        name := data.name.getD c.name
        enabled := data.enabled.toOption.getD c.enabled
        config := row.config } := by
  unfold updatedChannel at h
  cases henabled : Monitors.setColumn c.enabled data.enabled with
  | error e => simp [henabled, bind, Except.bind] at h
  | ok enabled =>
      cases hconfig : setConfig c.config data.config with
      | error e => simp [henabled, hconfig, bind, Except.bind] at h
      | ok config =>
          simp only [henabled, hconfig, bind, Except.bind, pure, Except.pure, Except.ok.injEq] at h
          subst h
          refine ⟨?_, rfl, ?_⟩
          · intro hnull
            simp [hnull, Monitors.setColumn] at henabled
          · rw [← Monitors.setColumn_ok henabled]

def updateChannelRow (id : Id) (data : ChannelUpdate) (s : Store) :
    Except ApiError NotificationChannel × Store :=
  match s.channel? id with
  | none => (.error recordNotFound, s)
  | some c =>
      match updatedChannel data c with
      | .error error => (.error error, s)
      | .ok row =>
          (.ok row, { s with channels := s.channels.map fun c' => if c'.id = id then row else c' })

theorem updateChannelRow_cases (id : Id) (data : ChannelUpdate) (s : Store) :
    (∃ error, updateChannelRow id data s = (.error error, s)) ∨
      ∃ c row, s.channel? id = some c ∧ updatedChannel data c = .ok row ∧
        updateChannelRow id data s = (.ok row, { s with
          channels := s.channels.map fun c' => if c'.id = id then row else c' }) := by
  unfold updateChannelRow
  cases hc : s.channel? id with
  | none => exact Or.inl ⟨_, rfl⟩
  | some c =>
      cases hrow : updatedChannel data c with
      | error error => exact Or.inl ⟨error, by simp only [hrow]⟩
      | ok row => exact Or.inr ⟨c, row, rfl, hrow, by simp only [hrow]⟩

def taskWithChannel (s : Store) (task : NotificationTask) : Except ApiError TaskWithChannel :=
  match s.channel? task.channelId with
  | some channel => .ok ⟨task, channel⟩
  | none => .error Listing.inconsistent

/-- The tasks of a message, oldest first. -/
def notificationsOf (s : Store) (messageId : Id) (pick : ℕ) :
    Except ApiError (List TaskWithChannel) :=
  (Paging.ordering (fun t : NotificationTask => -t.createdAt) pick
    (s.tasks.filter fun t => t.messageId = messageId)).mapM (taskWithChannel s)

def World.on {α : Type} (w : World) (applied : Except ApiError α × Store) :
    Except ApiError α × World :=
  (applied.1, { w with store := applied.2 })

def exec (c : Choice) : (op : Op) → World → Except ApiError (Answer op) × World
  | .findChannels filter, w => w.on <| c.query w.store
      (.ok (Paging.ordering NotificationChannel.createdAt c.pick
        (w.store.channels.filter filter.selects)),
        w.store)
  | .findChannelById id, w => w.on (c.query w.store (.ok (w.store.channel? id), w.store))
  | .createChannel data, w => w.on (c.query w.store (createChannelRow data c.now w.store))
  | .updateChannel id data, w => w.on (c.query w.store (updateChannelRow id data w.store))
  | .findTasks op, w => w.on (Listing.exec taskSource c.toChoice op w.store)
  | .task op, w => w.on (Notifications.exec c.toChoice op w.store)
  | .findMessage id, w =>
      w.on (c.query w.store (.ok ((w.store.message? id).bind (Messages.withTarget? w.store)),
        w.store))
  | .findNotifications messageId, w =>
      w.on (c.query w.store (notificationsOf w.store messageId c.pick, w.store))
  | .now, w => (.ok c.now, w)
  | .cachedToken, w => (.ok w.cachedToken, w)
  | .cacheToken token, w => (.ok (), { w with cachedToken := some token })
  | .fetch _, w =>
      (match c.response with
        | some response => .ok response
        | none => .error (.other "fetch failed"), w)

end SocialMonitor.Channels

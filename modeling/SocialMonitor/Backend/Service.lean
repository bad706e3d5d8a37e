import SocialMonitor.Async.Within
import SocialMonitor.Backend.Operations
import SocialMonitor.Telegram.Ingest

/-!
# The whole API

Every request of the controllers and every job that the worker processes is one
call.  The calls of all services run over one database.
-/

namespace SocialMonitor.Backend

open Async

/-- The environment variables that the services read, how the database matches
a keyword, and the start of the day of a time in the zone of the server. -/
structure Config where
  secret : String
  qq : Channels.Setting
  contains : String → String → Bool
  startOfDay : Time → Time

structure DashboardOverviewDto where
  todayMessages : ℕ
  xMessages : ℕ
  telegramMessages : ℕ
  monitors : ℕ
  notificationSent : ℕ
  notificationFailed : ℕ
deriving DecidableEq, Repr

/-! ## The services in the API -/

def ofMessages {α : Type} (p : Messages.Api α) : Api α := p.within Op.message fun _ a => a

def ofMonitors {α : Type} (p : Monitors.Api α) : Api α := p.within Op.monitor fun _ a => a

def ofChannels {α : Type} (p : Channels.Api α) : Api α := p.within Op.channel fun _ a => a

namespace MessageService

def list (query : Messages.MessageQueryDto) : Api (Listing.Paginated Messages.MessageDto) :=
  (Messages.list query).within Op.messages fun _ a => a

def findOne (id : Id) : Api Messages.MessageDto := do
  let some message ← Program.await (Op.findMessage id) | throw (Channels.messageNotFound id)
  return Messages.toDto message

end MessageService

namespace MonitorService

def list (query : Monitors.MonitorQueryDto) : Api (Listing.Paginated Monitors.MonitorDto) :=
  (Monitors.list query).within Op.monitors fun _ a => a

def findOne (id : Id) : Api Monitors.MonitorDto := do
  let some monitor ← Program.await (Op.monitor (.findUnique id)) | throw (Monitors.notFound id)
  return Monitors.toDto monitor

end MonitorService

namespace NotificationService

def removeChannel (id : Id) : Api Bool := do
  let _ ← ofChannels (Channels.ensureChannelExists id)
  Program.await (Op.deleteChannel id)
  return true

end NotificationService

namespace DashboardService

/-- The six counts are awaited together; the database answers them one by one. -/
def overview (startOfDay : Time → Time) : Api DashboardOverviewDto := do
  let now ← Program.await (Op.channel .now)
  let start := startOfDay now
  let todayMessages ← Program.await (Op.countMessages none start)
  let xMessages ← Program.await (Op.countMessages (some .x) start)
  let telegramMessages ← Program.await (Op.countMessages (some .telegram) start)
  let monitors ← Program.await (Op.countMonitors true)
  let notificationSent ← Program.await (Op.countTasks ⟨.sent, some start, none⟩)
  let notificationFailed ← Program.await (Op.countTasks ⟨.failed, none, some start⟩)
  return ⟨todayMessages, xMessages, telegramMessages, monitors, notificationSent,
    notificationFailed⟩

end DashboardService

/-! ## The calls -/

inductive Request where
  | ingest (secret : Option String) (payload : Telegram.IngestTelegramMessageDto)
  | listMessages (query : Messages.MessageQueryDto)
  | findMessage (id : Id)
  | monitor (request : Monitors.Request)
  | listMonitors (query : Monitors.MonitorQueryDto)
  | findMonitor (id : Id)
  | checkMonitor (id : Id)
  | channel (request : Channels.Request)
  | removeChannel (id : Id)
  | overview

inductive Reply where
  | ingested (answer : Telegram.IngestAnswer)
  | messages (body : Listing.Paginated Messages.MessageDto)
  | message (dto : Messages.MessageDto)
  | monitor (reply : Monitors.Reply)
  | monitors (body : Listing.Paginated Monitors.MonitorDto)
  | monitorFound (dto : Monitors.MonitorDto)
  | checked (check : Monitors.MonitorCheck)
  | channel (reply : Channels.Reply)
  | channelRemoved
  | overview (dto : DashboardOverviewDto)

def program (config : Config) : Request → Api Reply
  | .ingest secret payload => do
      return .ingested (← ofMessages (Telegram.ingest config.secret secret payload))
  | .listMessages query => return .messages (← MessageService.list query)
  | .findMessage id => return .message (← MessageService.findOne id)
  | .monitor request => return .monitor (← ofMonitors (Monitors.program request))
  | .listMonitors query => return .monitors (← MonitorService.list query)
  | .findMonitor id => return .monitorFound (← MonitorService.findOne id)
  | .checkMonitor id => return .checked (← ofMonitors (Monitors.check id))
  | .channel request => return .channel (← ofChannels (Channels.program config.qq request))
  | .removeChannel id => do
      let _ ← NotificationService.removeChannel id
      return .channelRemoved
  | .overview => return .overview (← DashboardService.overview config.startOfDay)

abbrev History := List (Entry Op Answer ApiError)

abbrev RunningCall := Call Request Op Answer ApiError Reply

abbrev ApiPool := Pool Request Channels.World Op Answer ApiError Reply

abbrev ApiEvent := Event Request Channels.Choice Empty

def system (config : Config) :
    System Request Channels.World Channels.Choice Empty Op Answer ApiError Reply where
  start := program config
  exec := exec config.contains
  env := fun change _ => change.elim

def initial : ApiPool := ⟨⟨Store.empty, none⟩, []⟩

section Runs

variable {config : Config} {allowed : ApiPool → ApiEvent → Prop} {P₀ P : ApiPool}

/-- What every write keeps holds along every run. -/
theorem store_invariant (hrun : (system config).Run allowed P₀ P) (Inv : Store → Prop)
    (hinit : Inv P₀.store.store) (hwrite : ∀ s s' effect, Write s effect s' → Inv s → Inv s') :
    Inv P.store.store := by
  refine hrun.invariant (fun P => Inv P.store.store) hinit ?_ ?_ ?_
  · exact fun P request _ h _ => h
  · intro P index choice call op next _ h _ _ _
    exact hwrite _ _ _ (exec_write config.contains choice op P.store) h
  · exact fun P change => change.elim

end Runs

/-! ## A monitor and a channel -/

def sampleConfig : Config where
  secret := "key"
  qq := ⟨"102", "secret", "https://bots.example/token", "https://api.example"⟩
  contains := fun text keyword => text = keyword
  startOfDay := fun now => now

def calmChoice : Channels.Choice := { calm with response := none }

def sampleMonitor : Monitors.CreateMonitorDto :=
  ⟨.tgChannel, "OpenAI News", .undefined, .value "-1001"⟩

def sampleChannel : Channels.CreateChannelDto :=
  ⟨"bot", .qq, .obj [(Channels.units "groupOpenid", .str (Channels.units "1"))]⟩

def sampleEvents : List ApiEvent :=
  [.spawn (.monitor (.create sampleMonitor)), .perform 0 calmChoice, .perform 0 calmChoice,
    .spawn (.channel (.createChannel sampleChannel)), .perform 1 calmChoice]

def samplePool : ApiPool := (system sampleConfig).runList initial sampleEvents

theorem samplePool_run : (system sampleConfig).Run (fun _ _ => True) initial samplePool :=
  Machine.Run.refl.list (by simp [Machine.AllowedList, sampleEvents])

end SocialMonitor.Backend

import SocialMonitor.Async.Tally
import SocialMonitor.Backend.Service
import SocialMonitor.Channels.Secrecy

/-!
# The event stream and the queues

Every event of the stream was emitted and every job enqueued by a call, and the
services differ in the events that they emit.
-/

namespace SocialMonitor.Backend

open Async

abbrev claims (e : Entry Op Answer ApiError) : List Id := (effectOf e).claimed

abbrev enqueued (e : Entry Op Answer ApiError) : List Job := (effectOf e).jobs

abbrev emitted (e : Entry Op Answer ApiError) : List SseEvent := (effectOf e).events

section Write

variable {s s' : Store} {effect : Effect}

theorem Write.jobs_eq (h : Write s effect s') : s'.jobs = s.jobs ++ effect.jobs := by
  cases h with
  | logged jobs events => rfl
  | _ => exact (List.append_nil _).symm

theorem Write.events_eq (h : Write s effect s') : s'.events = s.events ++ effect.events := by
  cases h with
  | logged jobs events => rfl
  | _ => exact (List.append_nil _).symm

end Write

section Runs

variable {config : Config} {allowed : ApiPool → ApiEvent → Prop} {P : ApiPool}

theorem jobs_of_run (hrun : (system config).Run allowed initial P) :
    P.store.store.jobs.Perm (P.collect enqueued) := by
  apply hrun.log enqueued (fun w => w.store.jobs) rfl rfl
  · exact fun choice op w => (exec_write config.contains choice op w).jobs_eq
  · exact fun change => change.elim

theorem events_of_run (hrun : (system config).Run allowed initial P) :
    P.store.store.events.Perm (P.collect emitted) := by
  apply hrun.log emitted (fun w => w.store.events) rfl rfl
  · exact fun choice op w => (exec_write config.contains choice op w).events_eq
  · exact fun change => change.elim

end Runs

/-! ## The events of each service -/

/-- What an event of the stream tells of an attempt. -/
structure Report where
  taskId : Id
  channelType : NotificationChannelType
  attempts : ℕ
deriving DecidableEq

def reportOf : SseEvent → Option Report
  | .notificationSent id type attempts => some ⟨id, type, attempts⟩
  | .notificationFailed id type attempts _ => some ⟨id, type, attempts⟩
  | _ => none

def reports (e : Entry Op Answer ApiError) : List Report := (emitted e).filterMap reportOf

/-- The message that an event announces. -/
def announcementOf : SseEvent → Option Id
  | .messageCreated id _ _ => some id
  | _ => none

def announced (e : Entry Op Answer ApiError) : List Id := (emitted e).filterMap announcementOf

/-- What the operations of a call may be: the events that they emit, and
whether they update a task or route a message. -/
def Op.Emits (E : SseEvent → Prop) (updates routes : Prop) : Op → Prop
  | .message (.emit event) => routes ∧ E event
  | .message (.enqueueTask _ _) => routes
  | .monitor (.emit event) => E event
  | .channel (.task (.emit event)) => E event
  | .channel (.task (.updateTask _ _)) => updates
  | _ => True

/-- The task that a request attempts. -/
def Request.task? : Request → Option Id
  | .channel (.processTask taskId) => some taskId
  | .channel (.dispatch taskId) => some taskId
  | _ => none

section Services

variable {config : Config} {E : SseEvent → Prop} {updates routes : Prop}

theorem routeToEnabledChannels_emits (hroutes : routes) (messageId : Id) :
    (Messages.routeToEnabledChannels messageId).Awaits
      fun op => (Op.message op).Emits E updates routes := by
  refine Program.Awaits.bind (Program.awaits_await trivial) fun channels => ?_
  split_ifs
  · exact trivial
  refine Program.Awaits.bind (Program.awaits_await trivial) fun created => ?_
  refine Program.Awaits.forM (fun t => ?_) created
  unfold Messages.enqueueCreated
  split
  · exact Program.awaits_await hroutes
  · exact trivial

theorem create_emits (hroutes : routes)
    (hE : ∀ id source targetName, E (.messageCreated id source targetName))
    (input : Messages.NormalizedMessage) :
    (Messages.create input).Awaits fun op => (Op.message op).Emits E updates routes := by
  refine Program.Awaits.bind ?_ fun target => Program.Awaits.bind ?_ fun found => ?_
  · refine Program.Awaits.bind (Program.awaits_await trivial) fun target? => ?_
    cases target? <;> exact trivial
  · refine Program.Awaits.bind (Program.awaits_await trivial) fun found? => ?_
    cases found? with
    | some existing => exact trivial
    | none =>
        refine Program.Awaits.handle (.bind (Program.awaits_await trivial) fun _ => trivial) ?_
        intro error
        split_ifs
        · exact trivial
        refine Program.Awaits.bind (Program.awaits_await trivial) fun deduped? => ?_
        cases deduped? <;> exact trivial
  · have hroute : ((Messages.routeToEnabledChannels found.1.message.id).bind fun _ =>
        .ret (Messages.toDto found.1)).Awaits fun op => (Op.message op).Emits E updates routes :=
      (routeToEnabledChannels_emits hroutes _).bind fun _ => trivial
    obtain ⟨m, isNew⟩ := found
    cases isNew with
    | false => exact hroute
    | true =>
        refine Program.Awaits.bind (Program.awaits_await trivial) fun _ => ?_
        exact Program.Awaits.bind (Program.awaits_await ⟨hroutes, hE _ _ _⟩) fun _ => hroute

theorem ingest_emits (hroutes : routes)
    (hE : ∀ id source targetName, E (.messageCreated id source targetName))
    (secret : Option String) (payload : Telegram.IngestTelegramMessageDto) :
    (Telegram.ingest config.secret secret payload).Awaits
      fun op => (Op.message op).Emits E updates routes := by
  unfold Telegram.ingest
  split_ifs
  · exact trivial
  refine Program.Awaits.bind (Program.awaits_await trivial) fun target? => ?_
  cases target? with
  | none => exact trivial
  | some target =>
      refine Program.Awaits.handle (.bind (create_emits hroutes hE _) fun _ => trivial) fun _ => ?_
      exact trivial

theorem ensureExists_emits (id : Id) :
    (Monitors.ensureExists id).Awaits fun op => (Op.monitor op).Emits E updates routes := by
  refine Program.Awaits.bind (Program.awaits_await trivial) fun monitor? => ?_
  cases monitor? <;> exact trivial

theorem monitor_emits (hE : ∀ id enabled type, E (.monitorStatusChanged id enabled type))
    (request : Monitors.Request) :
    (Monitors.program request).Awaits fun op => (Op.monitor op).Emits E updates routes := by
  cases request with
  | create dto =>
      refine Program.Awaits.bind (.bind (Program.awaits_ofExcept _) fun normalized => ?_)
        fun _ => trivial
      refine Program.Awaits.bind (Program.awaits_await trivial) fun existing => ?_
      split_ifs
      · exact trivial
      · exact Program.Awaits.bind (Program.awaits_await trivial) fun _ => trivial
  | update id dto =>
      refine Program.Awaits.bind (.bind (ensureExists_emits id) fun _ => ?_) fun _ => trivial
      exact Program.Awaits.bind (Program.awaits_await trivial) fun _ => trivial
  | setEnabled id enabled =>
      refine Program.Awaits.bind (.bind (ensureExists_emits id) fun _ => ?_) fun _ => trivial
      refine Program.Awaits.bind (Program.awaits_await trivial) fun updated => ?_
      exact Program.Awaits.bind (Program.awaits_await (hE _ _ _)) fun _ => trivial
  | remove id =>
      refine Program.Awaits.bind (.bind (ensureExists_emits id) fun _ => ?_) fun _ => trivial
      exact Program.Awaits.bind (Program.awaits_await trivial) fun _ => trivial

theorem emits_of_plain {op : Channels.Op} (h : Channels.Plain op) :
    (Op.channel op).Emits E updates routes := by
  cases op with
  | task op => exact h.elim
  | _ => exact trivial

theorem ensureChannelExists_emits (id : Id) :
    (Channels.ensureChannelExists id).Awaits fun op => (Op.channel op).Emits E updates routes := by
  refine Program.Awaits.bind (Program.awaits_await trivial) fun channel? => ?_
  cases channel? <;> exact trivial

theorem channel_emits {request : Channels.Request} (h : (Request.channel request).task? = none) :
    (Channels.program config.qq request).Awaits
      fun op => (Op.channel op).Emits E updates routes := by
  cases request with
  | processTask taskId => cases h
  | dispatch taskId => cases h
  | createChannel dto =>
      refine Program.Awaits.bind (.bind (Program.awaits_ofExcept _) fun _ => ?_) fun _ => trivial
      exact Program.Awaits.bind (Program.awaits_await trivial) fun _ => trivial
  | updateChannel id dto =>
      refine Program.Awaits.bind (.bind (ensureChannelExists_emits id) fun channel => ?_)
        fun _ => trivial
      refine Program.Awaits.bind (Program.awaits_ofExcept _) fun _ => ?_
      refine Program.Awaits.bind (Program.awaits_ofExcept _) fun name => ?_
      exact Program.Awaits.bind (Program.awaits_await trivial) fun _ => trivial
  | listChannels query =>
      exact .bind (.bind (Program.awaits_await trivial) fun _ => trivial) fun _ => trivial
  | getChannel id =>
      exact .bind (.bind (ensureChannelExists_emits id) fun _ => trivial) fun _ => trivial
  | testChannel id =>
      refine .bind (.bind (ensureChannelExists_emits id) fun channel => ?_) fun _ => trivial
      rw [Notifications.factoryGet_eq]
      refine Program.Awaits.bind (p := .ret channel.type) trivial fun provider => ?_
      refine Program.Awaits.bind ?_ fun _ => trivial
      exact (Channels.sendBy_plain _ _ _).mono fun _ h => emits_of_plain h
  | listTasks query =>
      exact .bind (Program.awaits_interp (fun _ => Program.awaits_await trivial) _) fun _ => trivial
  | getTask id =>
      refine .bind (.bind (Program.awaits_await trivial) fun task? => ?_) fun _ => trivial
      cases task? <;> exact trivial
  | findNotifications messageId =>
      refine .bind (.bind (Program.awaits_await trivial) fun message? => ?_) fun _ => trivial
      cases message? with
      | none => exact trivial
      | some message => exact .bind (Program.awaits_await trivial) fun _ => trivial

/-- Apart from the attempts, no request writes a task, and the events are
those of ingestion and of monitors. -/
theorem program_emits {request : Request}
    (hmessage : ∀ secret payload, request = .ingest secret payload →
      routes ∧ ∀ id source targetName, E (.messageCreated id source targetName))
    (hmonitor : ∀ id enabled type, E (.monitorStatusChanged id enabled type))
    (hrequest : request.task? = none) :
    (program config request).Awaits (Op.Emits E updates routes) := by
  have hlist : ∀ {Filter Record Dto : Type} {inj : Listing.Op Filter → Op}
      {out : (op : Listing.Op Filter) → Answer (inj op) → Listing.Answer Filter Record op}
      (toDto : Record → Dto) (filter : Filter) (page? pageSize? : Option ℕ),
      (∀ op, (inj op).Emits E updates routes) →
      ((Listing.list toDto filter page? pageSize?).within inj out).Awaits
        (Op.Emits E updates routes) := by
    intro Filter Record Dto inj out toDto filter page? pageSize? hinj
    exact ⟨hinj _, fun r => by
      cases r <;> first | exact trivial | exact ⟨hinj _, fun r => by cases r <;> exact trivial⟩⟩
  cases request with
  | ingest secret payload =>
      refine Program.Awaits.bind ?_ fun _ => trivial
      obtain ⟨hroutes, hE⟩ := hmessage _ _ rfl
      exact (ingest_emits hroutes hE secret payload).within fun _ h => h
  | listMessages query => exact .bind (hlist _ _ _ _ fun _ => trivial) fun _ => trivial
  | findMessage id =>
      refine .bind (.bind (Program.awaits_await trivial) fun message? => ?_) fun _ => trivial
      cases message? <;> exact trivial
  | monitor request =>
      refine Program.Awaits.bind ?_ fun _ => trivial
      exact (monitor_emits hmonitor request).within fun _ h => h
  | listMonitors query => exact .bind (hlist _ _ _ _ fun _ => trivial) fun _ => trivial
  | findMonitor id =>
      refine .bind (.bind (Program.awaits_await trivial) fun monitor? => ?_) fun _ => trivial
      cases monitor? <;> exact trivial
  | checkMonitor id =>
      have hcheck : (Monitors.check id).Awaits
          fun op => (Op.monitor op).Emits E updates routes := by
        refine Program.Awaits.bind (Program.awaits_await trivial) fun monitor? => ?_
        cases monitor? <;> exact trivial
      exact Program.Awaits.bind (hcheck.within fun _ h => h) fun _ => trivial
  | channel request =>
      refine Program.Awaits.bind ?_ fun _ => trivial
      exact (channel_emits hrequest).within fun _ h => h
  | removeChannel id =>
      refine .bind (.bind ((ensureChannelExists_emits id).within fun _ h => h) fun _ => ?_)
        fun _ => trivial
      exact Program.Awaits.bind (Program.awaits_await trivial) fun _ => trivial
  | overview =>
      refine Program.Awaits.bind ?_ fun _ => trivial
      refine Program.Awaits.bind (Program.awaits_await trivial) fun now => ?_
      refine Program.Awaits.bind (Program.awaits_await trivial) fun todayMessages => ?_
      refine Program.Awaits.bind (Program.awaits_await trivial) fun xMessages => ?_
      refine Program.Awaits.bind (Program.awaits_await trivial) fun telegramMessages => ?_
      refine Program.Awaits.bind (Program.awaits_await trivial) fun monitors => ?_
      refine Program.Awaits.bind (Program.awaits_await trivial) fun notificationSent => ?_
      exact Program.Awaits.bind (Program.awaits_await trivial) fun _ => trivial

end Services

end SocialMonitor.Backend

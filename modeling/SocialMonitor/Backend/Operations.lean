import SocialMonitor.Channels.Service
import SocialMonitor.Messages.List
import SocialMonitor.Monitors.Calls

/-!
# The operations of the whole API

All services await their operations on one database, one set of queues and one
event stream.  `Write` lists everything that one of these operations can do to
the tables.
-/

namespace SocialMonitor.Backend

open Async

/-- `Prisma.NotificationTaskWhereInput` of the overview, with the lower bounds. -/
structure TaskCount where
  status : NotificationStatus
  sentAt : Option Time
  createdAt : Option Time

def TaskCount.selects (w : TaskCount) (t : NotificationTask) : Bool :=
  t.status = w.status && w.sentAt.all (fun gte => t.sentAt.any fun time => gte ≤ time) &&
    w.createdAt.all fun gte => gte ≤ t.createdAt

inductive Op where
  | message (op : Messages.Op)
  | monitor (op : Monitors.Op)
  | channel (op : Channels.Op)
  | messages (op : Listing.Op Messages.MessageWhere)
  | monitors (op : Listing.Op Monitors.MonitorWhere)
  | findMessage (id : Id)
  | deleteChannel (id : Id)
  | countMessages (source : Option MessageSource) (gte : Time)
  | countMonitors (enabled : Bool)
  | countTasks (filter : TaskCount)

abbrev Answer : Op → Type
  | .message op => Messages.Answer op
  | .monitor op => Monitors.Answer op
  | .channel op => Channels.Answer op
  | .messages op => Listing.Answer Messages.MessageWhere Messages.MessageWithTarget op
  | .monitors op => Listing.Answer Monitors.MonitorWhere MonitorTarget op
  | .findMessage _ => Option Messages.MessageWithTarget
  | .deleteChannel _ => Unit
  | .countMessages _ _ => ℕ
  | .countMonitors _ => ℕ
  | .countTasks _ => ℕ

abbrev Api := Program Op Answer ApiError

/-! ## The operations on the store -/

/-- The tasks of the channel go with it. -/
def deleteChannelRow (id : Id) (s : Store) : Except ApiError Unit × Store :=
  match s.channel? id with
  | none => (.error Notifications.recordNotFound, s)
  | some _ =>
      (.ok (), { s with
        channels := s.channels.filter fun c => c.id ≠ id
        tasks := s.tasks.filter fun t => t.channelId ≠ id })

def messagesSince (source : Option MessageSource) (gte : Time) (s : Store) : List Message :=
  s.messages.filter fun m => source.all (fun source => m.source = source) && gte ≤ m.publishedAt

def exec (contains : String → String → Bool) (c : Channels.Choice) :
    (op : Op) → Channels.World → Except ApiError (Answer op) × Channels.World
  | .message op, w => w.on (Messages.exec c.toChoice op w.store)
  | .monitor op, w => w.on (Monitors.exec c.toChoice op w.store)
  | .channel op, w => Channels.exec c op w
  | .messages op, w =>
      w.on (Listing.exec (Messages.messageSource contains) c.toChoice op w.store)
  | .monitors op, w =>
      w.on (Listing.exec (Monitors.monitorSource contains) c.toChoice op w.store)
  | .findMessage id, w =>
      w.on (c.query w.store (.ok ((w.store.message? id).bind (Messages.withTarget? w.store)),
        w.store))
  | .deleteChannel id, w => w.on (c.query w.store (deleteChannelRow id w.store))
  | .countMessages source gte, w =>
      w.on (c.query w.store (.ok (messagesSince source gte w.store).length, w.store))
  | .countMonitors enabled, w =>
      w.on (c.query w.store (.ok (w.store.targets.countP fun t => t.enabled = enabled), w.store))
  | .countTasks filter, w =>
      w.on (c.query w.store (.ok (w.store.tasks.countP filter.selects), w.store))

/-! ## What an operation writes -/

def taskKey (t : NotificationTask) : Id × Id := (t.messageId, t.channelId)

/-- The attempts that an operation takes of tasks, what it adds to the queues and
to the event stream, and the tasks it creates with their keys. -/
structure Effect where
  claimed : List Id
  jobs : List Job
  events : List SseEvent
  opened : List (Id × Id × Id)

abbrev Effect.none : Effect := ⟨[], [], [], []⟩

def effectOf : Entry Op Answer ApiError → Effect
  | ⟨.channel (.task (.updateTask id data)), .ok _⟩ =>
      ⟨List.replicate data.attemptsIncrement id, [], [], []⟩
  | ⟨.message (.enqueueTask taskId type), .ok _⟩ => ⟨[], [Queue.jobOf taskId type], [], []⟩
  | ⟨.message (.emit event), _⟩ => ⟨[], [], [event], []⟩
  | ⟨.monitor (.emit event), _⟩ => ⟨[], [], [event], []⟩
  | ⟨.channel (.task (.emit event)), _⟩ => ⟨[], [], [event], []⟩
  | ⟨.message (.createNotificationTasks messageId _), .ok created⟩ =>
      ⟨[], [], [], created.map fun t => (t.id, messageId, t.channelId)⟩
  | _ => .none

inductive Write (s : Store) : Effect → Store → Prop where
  | logged (jobs : List Job) (events : List SseEvent) :
      Write s ⟨[], jobs, events, []⟩ { s with jobs := s.jobs ++ jobs, events := s.events ++ events }
  | targetCreated (row : MonitorTarget) (hid : row.id = s.nextId)
      (hkey : ∀ t ∈ s.targets, targetKey t ≠ targetKey row) :
      Write s .none { s with targets := s.targets ++ [row], nextId := s.nextId + 1 }
  | targetsUpdated (f : MonitorTarget → MonitorTarget) (hid : ∀ t, (f t).id = t.id)
      (hkey : Table.Unique targetKey s.targets → Table.Unique targetKey (s.targets.map f)) :
      Write s .none { s with targets := s.targets.map f }
  | targetDeleted (id : Id) : Write s .none { s with
      targets := s.targets.filter fun t => t.id ≠ id
      messages := s.messages.filter fun m => m.targetId ≠ id
      tasks := s.tasks.filter fun t =>
        !s.messages.any fun m => m.id = t.messageId && m.targetId = id }
  | messageCreated (row : Message) (hid : row.id = s.nextId)
      (hkey : ∀ m ∈ s.messages, Messages.messageKey m ≠ Messages.messageKey row)
      (htarget : row.targetId ∈ s.targets.map MonitorTarget.id) :
      Write s .none { s with messages := s.messages ++ [row], nextId := s.nextId + 1 }
  | channelCreated (row : NotificationChannel) (hid : row.id = s.nextId) :
      Write s .none { s with channels := s.channels ++ [row], nextId := s.nextId + 1 }
  | channelUpdated (id : Id) (c row : NotificationChannel) (hc : s.channel? id = some c)
      (hid : row.id = c.id) (htype : row.type = c.type) :
      Write s .none { s with channels := s.channels.map fun c' => if c'.id = id then row else c' }
  | channelDeleted (id : Id) : Write s .none { s with
      channels := s.channels.filter fun c => c.id ≠ id
      tasks := s.tasks.filter fun t => t.channelId ≠ id }
  | tasksInserted (messageId : Id) (createdAt : Time) (rows : List NotificationTask)
      (hids : rows.map NotificationTask.id = List.range' s.nextId rows.length)
      (hrows : ∀ t ∈ rows, t = Messages.taskRow t.id messageId t.channelId createdAt ∧
        messageId ∈ s.messages.map Message.id ∧
          t.channelId ∈ s.channels.map NotificationChannel.id)
      (hkey : Table.Unique taskKey s.tasks → Table.Unique taskKey (s.tasks ++ rows)) :
      Write s ⟨[], [], [], rows.map fun t => (t.id, taskKey t)⟩
        { s with tasks := s.tasks ++ rows, nextId := s.nextId + rows.length }
  | taskUpdated (id : Id) (data : Notifications.TaskUpdate)
      (hid : id ∈ s.tasks.map NotificationTask.id) :
      Write s ⟨List.replicate data.attemptsIncrement id, [], [], []⟩
        (Notifications.updateTaskRow s id data)

theorem Write.kept (s : Store) : Write s .none s := by
  have h := Write.logged (s := s) [] []
  simpa using h

theorem Write.emitted (s : Store) (event : SseEvent) :
    Write s ⟨[], [], [event], []⟩ { s with events := s.events ++ [event] } := by
  have h := Write.logged (s := s) [] [event]
  rwa [List.append_nil] at h

theorem Write.enqueued (s : Store) (job : Job) :
    Write s ⟨[], [job], [], []⟩ { s with jobs := s.jobs ++ [job] } := by
  have h := Write.logged (s := s) [job] []
  rwa [List.append_nil] at h

theorem query_write {c : Choice} {s : Store} {α : Type} {applied : Except ApiError α × Store}
    (h : Write s .none applied.2) : Write s .none (c.query s applied).2 := by
  rcases c.query_cases s applied with ⟨error, -, heq⟩ | ⟨-, heq⟩ <;> rw [heq]
  · exact .kept s
  · exact h

theorem Write.nextId {s s' : Store} {effect : Effect} (h : Write s effect s') :
    s.nextId ≤ s'.nextId := by
  cases h with
  | targetCreated => exact Nat.le_succ _
  | messageCreated => exact Nat.le_succ _
  | channelCreated => exact Nat.le_succ _
  | tasksInserted => exact Nat.le_add_right _ _
  | _ => exact le_rfl

/-! ### Inserted tasks -/

theorem hasTask_eq_false {s : Store} {messageId channelId : Id} :
    Messages.hasTask s messageId channelId = false ↔
      ∀ t ∈ s.tasks, taskKey t ≠ (messageId, channelId) := by
  simp [Messages.hasTask, taskKey]

theorem insertTasks_unique (messageId : Id) (createdAt : Time) (channelIds : List Id) (s : Store)
    (hs : Table.Unique taskKey s.tasks) :
    Table.Unique taskKey (Messages.insertTasks messageId createdAt channelIds s).2.tasks := by
  induction channelIds generalizing s with
  | nil => exact hs
  | cons channelId rest ih =>
      unfold Messages.insertTasks
      split_ifs with hhas
      · exact ih s hs
      · exact ih _ (hs.snoc (hasTask_eq_false.mp (Bool.eq_false_iff.mpr hhas)))

theorem mem_ids_of_isSome {α : Type} {f : α → Id} {rows : List α} {id : Id}
    (h : (rows.find? fun a => f a = id).isSome) : id ∈ rows.map f := by
  obtain ⟨a, ha, hid⟩ := List.find?_isSome.mp h
  exact List.mem_map.mpr ⟨a, ha, by simpa using hid⟩

theorem createNotificationTasks_write (messageId : Id) (channelIds : List Id) (createdAt : Time)
    (s : Store) :
    Write s (effectOf ⟨.message (.createNotificationTasks messageId channelIds),
        (Messages.createNotificationTasks messageId channelIds createdAt s).1⟩)
      (Messages.createNotificationTasks messageId channelIds createdAt s).2 := by
  have hunique := insertTasks_unique messageId createdAt channelIds s
  obtain ⟨rows, heq, hids, hrows, -⟩ :=
    Messages.insertTasks_spec messageId createdAt channelIds s
  unfold Messages.createNotificationTasks
  rw [heq] at hunique ⊢
  dsimp only
  split_ifs with hall
  · have hopened : ((rows.map fun t => (⟨t.id, t.channelId⟩ : Messages.CreatedTask)).map
        fun t => (t.id, messageId, t.channelId)) = rows.map fun t => (t.id, taskKey t) := by
      rw [List.map_map]
      refine List.map_congr_left fun t ht => ?_
      rw [hrows t ht]
      rfl
    have hinserted : Write s ⟨[], [], [], rows.map fun t => (t.id, taskKey t)⟩
        { s with tasks := s.tasks ++ rows, nextId := s.nextId + rows.length } := by
      refine .tasksInserted messageId createdAt rows hids (fun t ht => ⟨hrows t ht, ?_⟩) hunique
      have hrefers := List.all_eq_true.mp hall ⟨t.id, t.channelId⟩ (List.mem_map_of_mem ht)
      obtain ⟨hmessage, hchannel⟩ := Bool.and_eq_true_iff.mp hrefers
      exact ⟨mem_ids_of_isSome hmessage, mem_ids_of_isSome hchannel⟩
    rw [← hopened] at hinserted
    exact hinserted
  · exact .kept s

/-! ### Every operation -/

theorem message_write (c : Choice) (op : Messages.Op) (s : Store) :
    Write s (effectOf ⟨.message op, (Messages.exec c op s).1⟩) (Messages.exec c op s).2 := by
  cases op with
  | createNotificationTasks messageId channelIds =>
      simp only [Messages.exec]
      rcases c.query_cases s (Messages.createNotificationTasks messageId channelIds c.now s) with
        ⟨error, -, heq⟩ | ⟨-, heq⟩ <;> rw [heq]
      · exact .kept s
      · exact createNotificationTasks_write messageId channelIds c.now s
  | emit event => exact .emitted s event
  | enqueueTask taskId type =>
      unfold Messages.exec Queue.enqueueTask
      split
      · exact .kept s
      · exact .enqueued s _
  | createMessage data =>
      refine query_write ?_
      unfold Messages.createMessage
      split
      · exact .kept s
      · split_ifs with hkey
        · exact .kept s
        · split
          · exact .kept s
          · rename_i target htarget
            refine .messageCreated _ rfl ?_ (mem_ids_of_isSome (Option.isSome_of_eq_some htarget))
            exact Messages.messageByKey?_eq_none.mp (Option.not_isSome_iff_eq_none.mp hkey)
  | updateTargetLastMessageAt targetId publishedAt =>
      refine query_write ?_
      unfold Messages.updateTargetLastMessageAt
      split
      · exact .kept s
      · split_ifs
        · refine .targetsUpdated _ (fun t => by split_ifs <;> rfl) fun h => ?_
          exact h.map fun t => by split_ifs <;> rfl
        · exact .kept s
  | _ => exact query_write (.kept s)

theorem monitor_write (c : Choice) (op : Monitors.Op) (s : Store) :
    Write s (effectOf ⟨.monitor op, (Monitors.exec c op s).1⟩) (Monitors.exec c op s).2 := by
  cases op with
  | create data =>
      refine query_write ?_
      unfold Monitors.createTarget
      split_ifs with hkey
      · exact .kept s
      · refine .targetCreated _ rfl ?_
        exact Monitors.targetByKey?_eq_none.mp (Option.not_isSome_iff_eq_none.mp hkey)
  | update id data =>
      refine query_write ?_
      unfold Monitors.updateTarget
      split
      · exact .kept s
      · rename_i t ht
        split
        · exact .kept s
        · rename_i row hrow
          split_ifs with hany
          · exact .kept s
          · have hid : t.id = id := by simpa using List.find?_some ht
            refine .targetsUpdated _ (fun t' => ?_) fun h => Monitors.unique_replace h ?_
            · split_ifs with heq
              · rw [Monitors.updatedRow_ok hrow, hid, heq]
              · rfl
            · intro t' ht' hne hkey
              refine hany (List.any_eq_true.mpr ⟨t', ht', ?_⟩)
              simpa [hne, targetKey] using hkey
  | delete id =>
      refine query_write ?_
      unfold Monitors.deleteTarget
      split
      · exact .kept s
      · exact .targetDeleted id
  | emit event => exact .emitted s event
  | _ => exact query_write (.kept s)

theorem task_write (c : Channels.Choice) (op : Notifications.Op) (w : Channels.World) :
    Write w.store (effectOf ⟨.channel (.task op), (Channels.exec c (.task op) w).1⟩)
      (Channels.exec c (.task op) w).2.store := by
  cases op with
  | updateTask id data =>
      simp only [Channels.exec, Channels.World.on, Notifications.exec]
      rcases c.query_cases w.store (if (w.store.task? id).isSome
        then (.ok (), Notifications.updateTaskRow w.store id data)
        else (.error Notifications.recordNotFound, w.store)) with ⟨error, -, heq⟩ | ⟨-, heq⟩ <;>
        rw [heq]
      · exact .kept _
      · split_ifs with hfound
        · exact .taskUpdated id data (mem_ids_of_isSome hfound)
        · exact .kept _
  | findTaskWithRelations id => exact query_write (.kept _)
  | emit event => exact .emitted _ event
  | _ => exact .kept _

theorem listing_write {Filter Row Record : Type} (source : Listing.Source Filter Row Record)
    (c : Choice) (op : Listing.Op Filter) (s : Store) :
    Write s .none (Listing.exec source c op s).2 := by
  cases op <;> exact query_write (.kept s)

theorem channel_write (c : Channels.Choice) (op : Channels.Op) (w : Channels.World) :
    Write w.store (effectOf ⟨.channel op, (Channels.exec c op w).1⟩)
      (Channels.exec c op w).2.store := by
  cases op with
  | createChannel data =>
      refine query_write ?_
      rcases Channels.createChannelRow_cases data c.now w.store with
        ⟨error, heq⟩ | ⟨config, -, heq⟩ <;> rw [heq]
      · exact .kept _
      · exact .channelCreated _ rfl
  | updateChannel id data =>
      refine query_write ?_
      rcases Channels.updateChannelRow_cases id data w.store with
        ⟨error, heq⟩ | ⟨channel, row, hchannel, hrow, heq⟩ <;> rw [heq]
      · exact .kept _
      · obtain ⟨-, -, hfields⟩ := Channels.updatedChannel_ok hrow
        refine .channelUpdated id channel row hchannel ?_ ?_ <;> rw [hfields]
  | findTasks op => exact listing_write _ c.toChoice op w.store
  | task op => exact task_write c op w
  | now => exact .kept _
  | cachedToken => exact .kept _
  | cacheToken token => exact .kept _
  | fetch request => exact .kept _
  | _ => exact query_write (.kept _)

/-- Whatever is awaited, and whether or not it fails. -/
theorem exec_write (contains : String → String → Bool) (c : Channels.Choice) (op : Op)
    (w : Channels.World) : Write w.store (effectOf ⟨op, (exec contains c op w).1⟩)
      (exec contains c op w).2.store := by
  cases op with
  | message op => exact message_write c.toChoice op w.store
  | monitor op => exact monitor_write c.toChoice op w.store
  | channel op => exact channel_write c op w
  | messages op => exact listing_write _ c.toChoice op w.store
  | monitors op => exact listing_write _ c.toChoice op w.store
  | deleteChannel id =>
      refine query_write ?_
      unfold deleteChannelRow
      split
      · exact .kept _
      · exact .channelDeleted id
  | _ => exact query_write (.kept _)

end SocialMonitor.Backend

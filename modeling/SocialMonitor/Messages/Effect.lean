import SocialMonitor.Messages.Create
import SocialMonitor.Table

/-!
# What one operation does

`Effect` lists everything an operation of `create` can answer and do to the
store.  Below it stand the facts about the tables that every operation keeps.
-/

namespace SocialMonitor.Messages

open Async

/-! ## Inserting tasks -/

section InsertTasks

variable (messageId : Id) (createdAt : Time)

/-- The inserted rows have the next identifiers and stand behind the others. -/
theorem insertTasks_spec (channelIds : List Id) (s : Store) :
    ∃ rows : List NotificationTask,
      insertTasks messageId createdAt channelIds s =
        (rows.map fun t => ⟨t.id, t.channelId⟩,
          { s with tasks := s.tasks ++ rows, nextId := s.nextId + rows.length }) ∧
      rows.map NotificationTask.id = List.range' s.nextId rows.length ∧
      (∀ t ∈ rows, t = taskRow t.id messageId t.channelId createdAt) ∧
      ∀ t ∈ rows, t.channelId ∈ channelIds := by
  induction channelIds generalizing s with
  | nil => exact ⟨[], by simp [insertTasks]⟩
  | cons channelId rest ih =>
      by_cases hhas : hasTask s messageId channelId = true
      · obtain ⟨rows, heq, hids, hrows, hchannels⟩ := ih s
        refine ⟨rows, by simp [insertTasks, hhas, heq], hids, hrows, fun t ht => ?_⟩
        exact List.mem_cons_of_mem _ (hchannels t ht)
      · obtain ⟨rows, heq, hids, hrows, hchannels⟩ := ih
          { s with
            tasks := s.tasks ++ [taskRow s.nextId messageId channelId createdAt]
            nextId := s.nextId + 1 }
        refine ⟨taskRow s.nextId messageId channelId createdAt :: rows, ?_, ?_, ?_, ?_⟩
        · rw [insertTasks, if_neg hhas]
          dsimp only
          rw [heq]
          simp [taskRow, add_comm 1, add_assoc]
        · simp [hids, taskRow, List.range'_succ]
        · rintro t (_ | ⟨_, ht⟩)
          · rfl
          · exact hrows t ht
        · rintro t (_ | ⟨_, ht⟩)
          · exact List.mem_cons_self
          · exact List.mem_cons_of_mem _ (hchannels t ht)

end InsertTasks

/-! ## The effects -/

inductive Effect (s : Store) : (op : Op) → Except ApiError (Answer op) → Store → Prop where
  | failed {op : Op} {error : ApiError} : (∀ event, op ≠ .emit event) →
      Effect s op (.error error) s
  | telegramTarget {externalId : String} {found : Option MonitorTarget} :
      (∀ t ∈ found, t ∈ telegramTargets s externalId) →
      Effect s (.findTelegramTargetByExternalId externalId) (.ok found) s
  | target {type : MonitorType} {externalId : String} :
      Effect s (.findTargetByTypeExternalId type externalId)
        (.ok (s.targets.find? fun t => t.type = type && t.externalId = externalId)) s
  | message {source : MessageSource} {externalId : String} :
      Effect s (.findUniqueBySourceExternalId source externalId)
        (.ok ((messageByKey? s source externalId).bind (withTarget? s))) s
  | created {data : MessageCreateInput} {publishedAt : Time} {target : MonitorTarget} :
      data.publishedAt = some publishedAt →
      messageByKey? s data.source data.externalId = none →
      s.target? data.targetId = some target →
      Effect s (.createMessage data) (.ok ⟨messageRow data s.nextId publishedAt, target⟩)
        { s with
          messages := s.messages ++ [messageRow data s.nextId publishedAt]
          nextId := s.nextId + 1 }
  | touched {targetId : Id} {time : Time} :
      Effect s (.updateTargetLastMessageAt targetId (some time)) (.ok ())
        { s with
          targets := s.targets.map fun t =>
            if t.id = targetId then { t with lastMessageAt := some time } else t }
  | emitted {event : SseEvent} :
      Effect s (.emit event) (.ok ()) { s with events := s.events ++ [event] }
  | channels :
      Effect s .findEnabledNotificationChannels (.ok (s.channels.filter (·.enabled))) s
  | inserted {messageId : Id} {channelIds : List Id} {rows : List NotificationTask} :
      rows.map NotificationTask.id = List.range' s.nextId rows.length →
      (∀ t ∈ rows, t.messageId = messageId ∧ t.channelId ∈ channelIds) →
      Effect s (.createNotificationTasks messageId channelIds)
        (.ok (rows.map fun t => ⟨t.id, t.channelId⟩))
        { s with tasks := s.tasks ++ rows, nextId := s.nextId + rows.length }
  | enqueued {taskId : Id} {type : NotificationChannelType} :
      Effect s (.enqueueTask taskId type) (.ok ())
        { s with jobs := s.jobs ++ [Queue.jobOf taskId type] }

theorem query_effect {c : Choice} {s : Store} {op : Op}
    {applied : Except ApiError (Answer op) × Store} (hop : ∀ event, op ≠ .emit event)
    (h : Effect s op applied.1 applied.2) :
    Effect s op (c.query s applied).1 (c.query s applied).2 := by
  rcases c.query_cases s applied with ⟨error, -, heq⟩ | ⟨-, heq⟩ <;> rw [heq]
  · exact .failed hop
  · exact h

theorem exec_effect (c : Choice) (op : Op) (s : Store) :
    Effect s op (exec c op s).1 (exec c op s).2 := by
  cases op with
  | findTelegramTargetByExternalId externalId =>
      refine query_effect (by simp) (.telegramTarget fun t ht => ?_)
      exact List.mem_of_getElem? ht
  | findTargetByTypeExternalId type externalId => exact query_effect (by simp) .target
  | findUniqueBySourceExternalId source externalId => exact query_effect (by simp) .message
  | createMessage data =>
      refine query_effect (by simp) ?_
      unfold createMessage
      split
      · exact .failed (by simp)
      · split_ifs with hkey
        · exact .failed (by simp)
        · split
          · exact .failed (by simp)
          · exact .created ‹_› (by simpa using hkey) ‹_›
  | updateTargetLastMessageAt targetId publishedAt =>
      refine query_effect (by simp) ?_
      unfold updateTargetLastMessageAt
      split
      · exact .failed (by simp)
      · split_ifs
        · exact .touched
        · exact .failed (by simp)
  | emit event => exact .emitted
  | findEnabledNotificationChannels => exact query_effect (by simp) .channels
  | createNotificationTasks messageId channelIds =>
      refine query_effect (by simp) ?_
      obtain ⟨rows, heq, hids, hrows, hchannels⟩ := insertTasks_spec messageId c.now channelIds s
      unfold createNotificationTasks
      rw [heq]
      dsimp only
      split_ifs
      · refine .inserted hids fun t ht => ⟨?_, hchannels t ht⟩
        rw [hrows t ht, taskRow]
      · exact .failed (by simp)
  | enqueueTask taskId type =>
      unfold exec Queue.enqueueTask
      split
      · exact .failed (by simp)
      · exact .enqueued

/-! ## What every operation keeps -/

/-- Rows are neither removed nor given other keys. -/
structure Grows (s s' : Store) : Prop where
  messages : s.messages ⊆ s'.messages
  tasks : s.tasks ⊆ s'.tasks
  channels : ∀ c ∈ s.channels, ∃ c' ∈ s'.channels, c'.id = c.id ∧ c'.type = c.type
  nextId : s.nextId ≤ s'.nextId

theorem Grows.refl (s : Store) : Grows s s :=
  ⟨fun _ h => h, fun _ h => h, fun c hc => ⟨c, hc, rfl, rfl⟩, le_rfl⟩

theorem Effect.grows {s s' : Store} {op : Op} {r : Except ApiError (Answer op)}
    (h : Effect s op r s') : Grows s s' := by
  cases h with
  | created => exact ⟨by simp, fun _ h => h, (Grows.refl s).channels, by simp⟩
  | inserted => exact ⟨fun _ h => h, by simp, (Grows.refl s).channels, by simp⟩
  | _ => exact ⟨fun _ h => h, fun _ h => h, (Grows.refl s).channels, le_rfl⟩

def messageKey (m : Message) : MessageSource × String := (m.source, m.externalId)

/-- The keys of the tables, and identifiers the counter has passed. -/
structure Keyed (s : Store) : Prop where
  messages : Table.Unique messageKey s.messages
  tasks : Table.Drawn (s.tasks.map NotificationTask.id) s.nextId
  channels : Table.Drawn (s.channels.map NotificationChannel.id) s.nextId

def channelTypeOf? (s : Store) (taskId : Id) : Option NotificationChannelType :=
  (s.task? taskId).bind fun t => (s.channel? t.channelId).map NotificationChannel.type

theorem Keyed.channelTypeOf?_eq {s : Store} (hs : Keyed s) {t : NotificationTask}
    (ht : t ∈ s.tasks) {c : NotificationChannel} (hc : c ∈ s.channels)
    (hid : c.id = t.channelId) : channelTypeOf? s t.id = some c.type := by
  have htask : s.task? t.id = some t := Table.find?_of_nodup hs.tasks.nodup ht
  have hchannel : s.channel? c.id = some c := Table.find?_of_nodup hs.channels.nodup hc
  simp [channelTypeOf?, htask, ← hid, hchannel]

theorem messageByKey?_eq_none {s : Store} {source : MessageSource} {externalId : String} :
    messageByKey? s source externalId = none ↔
      ∀ m ∈ s.messages, messageKey m ≠ (source, externalId) := by
  simp [messageByKey?, messageKey]

theorem Effect.keyed {s s' : Store} {op : Op} {r : Except ApiError (Answer op)}
    (h : Effect s op r s') (hs : Keyed s) : Keyed s' := by
  cases h with
  | created _ hkey _ =>
      exact ⟨hs.messages.snoc (messageByKey?_eq_none.mp hkey), hs.tasks.mono (Nat.le_succ _),
        hs.channels.mono (Nat.le_succ _)⟩
  | @inserted messageId channelIds rows hids _ =>
      refine ⟨hs.messages, ?_, hs.channels.mono (Nat.le_add_right _ _)⟩
      rw [List.map_append, hids]
      exact hs.tasks.append_range rows.length
  | _ => exact ⟨hs.messages, hs.tasks, hs.channels⟩

/-! ## Changes from outside -/

/-- Channels are enabled, disabled and added while calls are in flight. -/
inductive Change where
  | setChannelEnabled (id : Id) (enabled : Bool)
  | addChannel (name : String) (type : NotificationChannelType) (config : Js.Json)
      (createdAt : Time)

def Change.apply : Change → Store → Store
  | .setChannelEnabled id enabled, s =>
      { s with
        channels := s.channels.map fun c => if c.id = id then { c with enabled := enabled } else c }
  | .addChannel name type config createdAt, s =>
      { s with
        channels := s.channels ++ [⟨s.nextId, name, type, true, config, createdAt⟩]
        nextId := s.nextId + 1 }

theorem Change.grows (change : Change) (s : Store) : Grows s (change.apply s) := by
  cases change with
  | setChannelEnabled id enabled =>
      refine ⟨fun _ h => h, fun _ h => h, fun c hc => ?_, le_rfl⟩
      refine ⟨_, List.mem_map_of_mem hc, ?_⟩
      split_ifs <;> exact ⟨rfl, rfl⟩
  | addChannel name type config createdAt =>
      refine ⟨fun _ h => h, fun _ h => h, fun c hc => ?_, Nat.le_succ _⟩
      exact ⟨c, List.mem_append_left _ hc, rfl, rfl⟩

theorem Change.keyed (change : Change) {s : Store} (hs : Keyed s) : Keyed (change.apply s) := by
  cases change with
  | setChannelEnabled id enabled =>
      have hids : ((Change.setChannelEnabled id enabled).apply s).channels.map
          NotificationChannel.id = s.channels.map NotificationChannel.id := by
        rw [Change.apply, List.map_map]
        refine List.map_congr_left fun c _ => ?_
        simp only [Function.comp_apply]
        split_ifs <;> rfl
      exact ⟨hs.messages, hs.tasks, hids ▸ hs.channels⟩
  | addChannel name type config createdAt =>
      refine ⟨hs.messages, hs.tasks.mono (Nat.le_succ _), ?_⟩
      rw [Change.apply, List.map_append]
      exact hs.channels.snoc

end SocialMonitor.Messages

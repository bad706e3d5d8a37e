import SocialMonitor.Backend.Service
import SocialMonitor.Pages

/-!
# The integrity of the tables

Keys tell the rows of each table apart, and every row refers to rows that
exist, in every state that calls of the API reach.
-/

namespace SocialMonitor.Backend

open Async

structure Integrity (s : Store) : Prop where
  targets : Table.Drawn (s.targets.map MonitorTarget.id) s.nextId
  messages : Table.Drawn (s.messages.map Message.id) s.nextId
  channels : Table.Drawn (s.channels.map NotificationChannel.id) s.nextId
  tasks : Table.Drawn (s.tasks.map NotificationTask.id) s.nextId
  targetKeys : Table.Unique targetKey s.targets
  messageKeys : Table.Unique Messages.messageKey s.messages
  taskKeys : Table.Unique taskKey s.tasks
  messageTarget : Table.Refers Message.targetId s.messages (s.targets.map MonitorTarget.id)
  taskMessage : Table.Refers NotificationTask.messageId s.tasks (s.messages.map Message.id)
  taskChannel :
    Table.Refers NotificationTask.channelId s.tasks (s.channels.map NotificationChannel.id)

theorem Integrity.empty : Integrity Store.empty := by
  constructor <;> first
    | exact ⟨List.nodup_nil, fun i hi => absurd hi List.not_mem_nil⟩
    | exact fun a ha => absurd ha List.not_mem_nil

/-! ## Every write keeps it -/

section Write

variable {s : Store}

theorem map_id_eq {α : Type} {id : α → Id} {f : α → α} (hf : ∀ a, id (f a) = id a)
    (rows : List α) : (rows.map f).map id = rows.map id := by
  rw [List.map_map]
  exact List.map_congr_left fun a _ => hf a

theorem channelUpdated_id {id : Id} {c row : NotificationChannel} (hc : s.channel? id = some c)
    (hid : row.id = c.id) (c' : NotificationChannel) :
    (if c'.id = id then row else c').id = c'.id := by
  have hcid : c.id = id := by simpa using List.find?_some hc
  split_ifs with heq
  · rw [hid, hcid, heq]
  · rfl

theorem updateTask_id (id : Id) (data : Notifications.TaskUpdate) (t : NotificationTask) :
    (if t.id = id then data.apply t else t).id = t.id := by
  split_ifs <;> rfl

theorem updateTask_key (id : Id) (data : Notifications.TaskUpdate) (t : NotificationTask) :
    taskKey (if t.id = id then data.apply t else t) = taskKey t := by
  split_ifs <;> rfl

theorem Integrity.targetDeleted (hs : Integrity s) (id : Id) : Integrity { s with
    targets := s.targets.filter fun t => t.id ≠ id
    messages := s.messages.filter fun m => m.targetId ≠ id
    tasks := s.tasks.filter fun t =>
      !s.messages.any fun m => m.id = t.messageId && m.targetId = id } where
  targets := hs.targets.sublist (List.filter_sublist.map _)
  messages := hs.messages.sublist (List.filter_sublist.map _)
  channels := hs.channels
  tasks := hs.tasks.sublist (List.filter_sublist.map _)
  targetKeys := hs.targetKeys.subset List.filter_sublist.subset
  messageKeys := hs.messageKeys.subset List.filter_sublist.subset
  taskKeys := hs.taskKeys.subset List.filter_sublist.subset
  messageTarget := hs.messageTarget.cascade_id id
  taskMessage := by
    have hcascade := hs.taskMessage.cascade fun m : Message => decide (m.targetId = id)
    simpa using hcascade
  taskChannel := hs.taskChannel.subset List.filter_sublist.subset

theorem Integrity.channelDeleted (hs : Integrity s) (id : Id) : Integrity { s with
    channels := s.channels.filter fun c => c.id ≠ id
    tasks := s.tasks.filter fun t => t.channelId ≠ id } where
  targets := hs.targets
  messages := hs.messages
  channels := hs.channels.sublist (List.filter_sublist.map _)
  tasks := hs.tasks.sublist (List.filter_sublist.map _)
  targetKeys := hs.targetKeys
  messageKeys := hs.messageKeys
  taskKeys := hs.taskKeys.subset List.filter_sublist.subset
  messageTarget := hs.messageTarget
  taskMessage := hs.taskMessage.subset List.filter_sublist.subset
  taskChannel := hs.taskChannel.cascade_id id

theorem Integrity.messageCreated (hs : Integrity s) {row : Message} (hid : row.id = s.nextId)
    (hkey : ∀ m ∈ s.messages, Messages.messageKey m ≠ Messages.messageKey row)
    (htarget : row.targetId ∈ s.targets.map MonitorTarget.id) :
    Integrity { s with messages := s.messages ++ [row], nextId := s.nextId + 1 } where
  targets := hs.targets.mono (Nat.le_succ _)
  messages := by
    rw [List.map_append, List.map_singleton, hid]
    exact hs.messages.snoc
  channels := hs.channels.mono (Nat.le_succ _)
  tasks := hs.tasks.mono (Nat.le_succ _)
  targetKeys := hs.targetKeys
  messageKeys := hs.messageKeys.snoc hkey
  taskKeys := hs.taskKeys
  messageTarget := hs.messageTarget.append fun m hm => List.mem_singleton.mp hm ▸ htarget
  taskMessage := hs.taskMessage.mono (by simp)
  taskChannel := hs.taskChannel

theorem Integrity.tasksInserted (hs : Integrity s) {messageId : Id} {createdAt : Time}
    {rows : List NotificationTask}
    (hids : rows.map NotificationTask.id = List.range' s.nextId rows.length)
    (hrows : ∀ t ∈ rows, t = Messages.taskRow t.id messageId t.channelId createdAt ∧
      messageId ∈ s.messages.map Message.id ∧ t.channelId ∈ s.channels.map NotificationChannel.id)
    (hkey : Table.Unique taskKey s.tasks → Table.Unique taskKey (s.tasks ++ rows)) :
    Integrity { s with tasks := s.tasks ++ rows, nextId := s.nextId + rows.length } where
  targets := hs.targets.mono (Nat.le_add_right _ _)
  messages := hs.messages.mono (Nat.le_add_right _ _)
  channels := hs.channels.mono (Nat.le_add_right _ _)
  tasks := by
    rw [List.map_append, hids]
    exact hs.tasks.append_range rows.length
  targetKeys := hs.targetKeys
  messageKeys := hs.messageKeys
  taskKeys := hkey hs.taskKeys
  messageTarget := hs.messageTarget
  taskMessage := hs.taskMessage.append fun t ht => by
    obtain ⟨heq, hmessage, -⟩ := hrows t ht
    rw [heq]
    exact hmessage
  taskChannel := hs.taskChannel.append fun t ht => (hrows t ht).2.2

theorem Write.integrity {s' : Store} {effect : Effect} (h : Write s effect s')
    (hs : Integrity s) : Integrity s' := by
  cases h with
  | logged jobs events => exact { hs with }
  | targetCreated row hid hkey =>
      have htargets : Table.Drawn ((s.targets ++ [row]).map MonitorTarget.id) (s.nextId + 1) := by
        rw [List.map_append, List.map_singleton, hid]
        exact hs.targets.snoc
      exact { hs with
        targets := htargets
        messages := hs.messages.mono (Nat.le_succ _)
        channels := hs.channels.mono (Nat.le_succ _)
        tasks := hs.tasks.mono (Nat.le_succ _)
        targetKeys := hs.targetKeys.snoc hkey
        messageTarget := hs.messageTarget.mono (by simp) }
  | targetsUpdated f hid hkey =>
      have hids := map_id_eq hid s.targets
      exact { hs with
        targets := hids ▸ hs.targets
        targetKeys := hkey hs.targetKeys
        messageTarget := hids ▸ hs.messageTarget }
  | targetDeleted id => exact hs.targetDeleted id
  | messageCreated row hid hkey htarget => exact hs.messageCreated hid hkey htarget
  | channelCreated row hid =>
      have hchannels : Table.Drawn ((s.channels ++ [row]).map NotificationChannel.id)
          (s.nextId + 1) := by
        rw [List.map_append, List.map_singleton, hid]
        exact hs.channels.snoc
      exact { hs with
        targets := hs.targets.mono (Nat.le_succ _)
        messages := hs.messages.mono (Nat.le_succ _)
        channels := hchannels
        tasks := hs.tasks.mono (Nat.le_succ _)
        taskChannel := hs.taskChannel.mono (by simp) }
  | channelUpdated id c row hc hid htype =>
      have hids := map_id_eq (channelUpdated_id hc hid) s.channels
      exact { hs with channels := hids ▸ hs.channels, taskChannel := hids ▸ hs.taskChannel }
  | channelDeleted id => exact hs.channelDeleted id
  | tasksInserted messageId createdAt rows hids hrows hkey =>
      exact hs.tasksInserted hids hrows hkey
  | taskUpdated id data hid =>
      have hids := map_id_eq (updateTask_id id data) s.tasks
      exact { hs with
        tasks := hids ▸ hs.tasks
        taskKeys := hs.taskKeys.map (updateTask_key id data)
        taskMessage := hs.taskMessage.map fun t => by split_ifs <;> rfl
        taskChannel := hs.taskChannel.map fun t => by split_ifs <;> rfl }

end Write

theorem integrity_of_run {config : Config} {allowed : ApiPool → ApiEvent → Prop} {P : ApiPool}
    (hrun : (system config).Run allowed initial P) : Integrity P.store.store :=
  store_invariant hrun Integrity Integrity.empty fun _ _ _ h => h.integrity

/-! ## Rows that are referred to are found -/

theorem find?_isSome_of_mem {α : Type} {f : α → Id} {rows : List α} {id : Id}
    (h : id ∈ rows.map f) : (rows.find? fun a => f a = id).isSome = true := by
  obtain ⟨a, ha, hid⟩ := List.mem_map.mp h
  exact List.find?_isSome.mpr ⟨a, ha, by simpa using hid⟩

theorem taskWithRelations?_eq {s : Store} {id : Id} :
    Notifications.taskWithRelations? s id = (s.task? id).bind (Notifications.relations? s) := rfl

theorem Integrity.intact {s : Store} (hs : Integrity s) : Intact s where
  messageIds := hs.messages.nodup
  taskIds := hs.tasks.nodup
  targetIds := hs.targets.nodup
  messageTarget m hm := find?_isSome_of_mem (hs.messageTarget m hm)
  taskMessage t ht := find?_isSome_of_mem (hs.taskMessage t ht)
  taskChannel t ht := find?_isSome_of_mem (hs.taskChannel t ht)

end SocialMonitor.Backend

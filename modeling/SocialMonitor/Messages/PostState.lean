import SocialMonitor.Messages.Dedup

/-!
# One call on its own

What a call of `create` leaves behind when nothing fails and nothing else runs,
and that the same call changes nothing when it is made again.
-/

namespace SocialMonitor.Messages

open Async

/-! ## Operations that do not fail -/

def Undisturbed (op : Op) (s : Store) (r : Except ApiError (Answer op)) (s' : Store) : Prop :=
  ∃ c : Choice, c.fault = none ∧ c.queueFault = none ∧ exec c op s = (r, s')

theorem Undisturbed.query {op : Op} {s s' : Store} {r : Except ApiError (Answer op)}
    (h : Undisturbed op s r s') {applied : Choice → Except ApiError (Answer op) × Store}
    (hexec : ∀ c, exec c op s = c.query s (applied c)) : ∃ c, applied c = (r, s') := by
  obtain ⟨c, hfault, -, heq⟩ := h
  rw [hexec, c.query_of_fault_none hfault] at heq
  exact ⟨c, heq⟩

/-- An operation that only reads. -/
theorem Undisturbed.read {op : Op} {s s' : Store} {r : Except ApiError (Answer op)}
    (h : Undisturbed op s r s') {answer : Answer op}
    (hexec : ∀ c, exec c op s = c.query s (.ok answer, s)) : r = .ok answer ∧ s = s' := by
  obtain ⟨_, heq⟩ := h.query hexec
  obtain ⟨hr, hs⟩ := Prod.mk.inj heq
  exact ⟨hr.symm, hs⟩

theorem Undisturbed.enqueue {taskId : Id} {type : NotificationChannelType} {s s' : Store}
    {r : Except ApiError Unit} (h : Undisturbed (.enqueueTask taskId type) s r s') :
    r = .ok () ∧ s' = { s with jobs := s.jobs ++ [Queue.jobOf taskId type] } := by
  obtain ⟨c, -, hqueue, heq⟩ := h
  simp only [exec, Queue.enqueueTask, hqueue, Prod.mk.injEq] at heq
  exact ⟨heq.1.symm, heq.2.symm⟩

theorem Undisturbed.emit {event : SseEvent} {s s' : Store} {r : Except ApiError Unit}
    (h : Undisturbed (.emit event) s r s') :
    r = .ok () ∧ s' = { s with events := s.events ++ [event] } := by
  obtain ⟨c, -, -, heq⟩ := h
  obtain ⟨hr, hs⟩ := Prod.mk.inj heq
  exact ⟨hr.symm, hs.symm⟩

/-! ## Tasks for the channels that have none -/

/-- The enabled channels that have no task for the message. -/
def unserved (s : Store) (messageId : Id) : List NotificationChannel :=
  s.channels.filter fun c => c.enabled && !hasTask s messageId c.id

theorem hasTask_append {s : Store} {row : NotificationTask} {messageId channelId : Id}
    (h : row.channelId ≠ channelId) :
    hasTask { s with tasks := s.tasks ++ [row], nextId := s.nextId + 1 } messageId channelId =
      hasTask s messageId channelId := by
  simp [hasTask, h]

theorem insertTasks_channels (messageId : Id) (createdAt : Time) {channelIds : List Id}
    (hnodup : channelIds.Nodup) (s : Store) :
    (insertTasks messageId createdAt channelIds s).1.map CreatedTask.channelId =
      channelIds.filter fun id => !hasTask s messageId id := by
  induction channelIds generalizing s with
  | nil => rfl
  | cons channelId rest ih =>
      obtain ⟨hnew, hrest⟩ := List.nodup_cons.mp hnodup
      by_cases hhas : hasTask s messageId channelId = true
      · simp [insertTasks, hhas, ih hrest]
      · rw [insertTasks, if_neg hhas, List.filter_cons_of_pos (by simpa using hhas)]
        refine congrArg (channelId :: ·) ((ih hrest _).trans (List.filter_congr fun id hid => ?_))
        have hne : channelId ≠ id := fun heq => hnew (heq ▸ hid)
        rw [hasTask_append hne]

/-- The rows of the tasks that one routing adds, and their jobs. -/
structure FannedOut (messageId : Id) (rows : List NotificationTask) (s s' : Store) : Prop where
  store : s' = { s with
    tasks := s.tasks ++ rows
    jobs := s.jobs ++
      List.zipWith (fun t c => Queue.jobOf t.id c.type) rows (unserved s messageId)
    nextId := s.nextId + rows.length }
  channels : rows.map NotificationTask.channelId =
    (unserved s messageId).map NotificationChannel.id
  ids : rows.map NotificationTask.id = List.range' s.nextId rows.length
  defaults : ∀ t ∈ rows, ∃ createdAt, t = taskRow t.id messageId t.channelId createdAt

theorem FannedOut.none {messageId : Id} {s : Store} (h : unserved s messageId = []) :
    FannedOut messageId [] s s := by
  constructor
  · simp
  · simp [h]
  · rfl
  · simp

theorem FannedOut.eq {messageId : Id} {rows : List NotificationTask} {s s' : Store}
    (h : FannedOut messageId rows s s') (hserved : unserved s messageId = []) : s' = s := by
  obtain rfl : rows = [] := by simpa [hserved] using h.channels
  simpa [hserved] using h.store

/-! ## The routing -/

theorem enqueueAll_post (channels : List NotificationChannel) (created : List CreatedTask)
    (s : Store) : (created.forM (enqueueCreated channels)).Obeys Undisturbed (fun _ _ => True)
      (fun s' r => r = .ok () ∧ s' = { s with jobs := s.jobs ++ created.filterMap fun t =>
        (typeByChannelId channels t.channelId).map (Queue.jobOf t.id) }) s := by
  induction created generalizing s with
  | nil => exact ⟨rfl, by simp⟩
  | cons t rest ih =>
      change ((enqueueCreated channels t).bind fun _ =>
        rest.forM (enqueueCreated channels)).Obeys _ _ _ _
      unfold enqueueCreated
      cases htype : typeByChannelId channels t.channelId with
      | none =>
          rw [List.filterMap_cons_none (by rw [htype]; rfl)]
          exact ih s
      | some type =>
          refine ⟨trivial, fun r s' h => ?_⟩
          obtain ⟨rfl, rfl⟩ := h.enqueue
          refine (ih _).mono (fun _ _ h => h) ?_
          rintro s'' r ⟨rfl, rfl⟩
          simp [htype]

theorem typeByChannelId_eq {channels : List NotificationChannel}
    (hnodup : (channels.map NotificationChannel.id).Nodup) {c : NotificationChannel}
    (hc : c ∈ channels) : typeByChannelId channels c.id = some c.type := by
  have hreverse : (channels.reverse.map NotificationChannel.id).Nodup := by
    rwa [List.map_reverse, List.nodup_reverse]
  rw [typeByChannelId, Table.find?_of_nodup hreverse (List.mem_reverse.mpr hc)]
  rfl

/-- The type of each task is the type of the channel it was added for. -/
theorem filterMap_jobs {channels : List NotificationChannel}
    (hnodup : (channels.map NotificationChannel.id).Nodup) (rows : List NotificationTask)
    (cs : List NotificationChannel) (hcs : cs ⊆ channels)
    (hrows : rows.map NotificationTask.channelId = cs.map NotificationChannel.id) :
    (rows.filterMap fun t => (typeByChannelId channels t.channelId).map (Queue.jobOf t.id)) =
      List.zipWith (fun t c => Queue.jobOf t.id c.type) rows cs := by
  induction rows generalizing cs with
  | nil => rfl
  | cons t rows ih =>
      cases cs with
      | nil => simp at hrows
      | cons c cs =>
          obtain ⟨hid, hrest⟩ := List.cons.inj hrows
          have htype := typeByChannelId_eq hnodup (hcs List.mem_cons_self)
          rw [List.filterMap_cons_some (b := Queue.jobOf t.id c.type) (by rw [hid, htype]; rfl),
            List.zipWith_cons_cons, ih cs (fun _ h => hcs (List.mem_cons_of_mem _ h)) hrest]

theorem unserved_eq (s : Store) (messageId : Id) : unserved s messageId =
    (s.channels.filter (·.enabled)).filter fun c => !hasTask s messageId c.id := by
  rw [unserved, List.filter_filter]
  exact List.filter_congr fun c _ => Bool.and_comm _ _

theorem createNotificationTasks_post {messageId : Id} (createdAt : Time) {s : Store}
    (hmessage : (s.message? messageId).isSome = true) {channels : List NotificationChannel}
    (hchannels : channels ⊆ s.channels) (hnodup : (channels.map NotificationChannel.id).Nodup) :
    ∃ rows : List NotificationTask,
      createNotificationTasks messageId (channels.map NotificationChannel.id) createdAt s =
        (.ok (rows.map fun t => ⟨t.id, t.channelId⟩),
          { s with tasks := s.tasks ++ rows, nextId := s.nextId + rows.length }) ∧
      rows.map NotificationTask.id = List.range' s.nextId rows.length ∧
      rows.map NotificationTask.channelId =
        (channels.filter fun c => !hasTask s messageId c.id).map NotificationChannel.id ∧
      ∀ t ∈ rows, t = taskRow t.id messageId t.channelId createdAt := by
  obtain ⟨rows, heq, hids, hrows, hmem⟩ :=
    insertTasks_spec messageId createdAt (channels.map NotificationChannel.id) s
  refine ⟨rows, ?_, hids, ?_, hrows⟩
  · have hall : ∀ t ∈ rows, (s.channel? t.channelId).isSome = true := by
      intro t ht
      obtain ⟨c, hc, hid⟩ := List.mem_map.mp (hmem t ht)
      exact List.find?_isSome.mpr ⟨c, hchannels hc, by simpa using hid⟩
    simp only [createNotificationTasks, heq]
    rw [if_pos (List.all_eq_true.mpr ?_)]
    intro created hcreated
    obtain ⟨t, ht, rfl⟩ := List.mem_map.mp hcreated
    simp [hmessage, hall t ht]
  · have hinserted := insertTasks_channels messageId createdAt hnodup s
    rwa [heq, List.map_map, List.filter_map] at hinserted

theorem routeToEnabledChannels_post {messageId : Id} {s : Store}
    (hmessage : (s.message? messageId).isSome = true)
    (hnodup : (s.channels.map NotificationChannel.id).Nodup) :
    (routeToEnabledChannels messageId).Obeys Undisturbed (fun _ _ => True)
      (fun s' r => r = .ok () ∧ ∃ rows, FannedOut messageId rows s s') s := by
  have hsub : s.channels.filter (·.enabled) ⊆ s.channels := List.filter_subset_self _
  have henabled : ((s.channels.filter (·.enabled)).map NotificationChannel.id).Nodup :=
    hnodup.sublist (List.filter_sublist.map _)
  refine ⟨trivial, fun r s₁ h => ?_⟩
  obtain ⟨rfl, rfl⟩ := h.read fun _ => rfl
  change (if _ = [] then _ else _ : Api Unit).Obeys _ _ _ _
  split_ifs with hnone
  · exact ⟨rfl, [], .none (by rw [unserved_eq, hnone]; rfl)⟩
  refine ⟨trivial, fun r s₂ h => ?_⟩
  obtain ⟨c, heq⟩ := h.query fun _ => rfl
  obtain ⟨rows, hinsert, hids, hchannels, hrows⟩ :=
    createNotificationTasks_post c.now hmessage hsub henabled
  obtain ⟨rfl, rfl⟩ := Prod.mk.inj (heq.symm.trans hinsert)
  refine (enqueueAll_post _ _ _).mono (fun _ _ h => h) ?_
  rintro s₃ r ⟨rfl, rfl⟩
  rw [← unserved_eq] at hchannels
  refine ⟨rfl, rows, ⟨?_, hchannels, hids, fun t ht => ⟨_, hrows t ht⟩⟩⟩
  have hunserved : unserved s messageId ⊆ s.channels.filter (·.enabled) := by
    rw [unserved_eq]
    exact List.filter_subset_self _
  rw [← filterMap_jobs henabled rows _ hunserved hchannels, List.filterMap_map]
  rfl

/-! ## The whole call -/

/-- The constraints of the schema that a call relies on. -/
structure Constrained (s : Store) : Prop where
  targets : (s.targets.map MonitorTarget.id).Nodup
  channels : (s.channels.map NotificationChannel.id).Nodup
  owners : ∀ m ∈ s.messages, (s.target? m.targetId).isSome = true

/-- The target the input names. -/
def targetOf? (s : Store) (input : NormalizedMessage) : Option MonitorTarget :=
  s.targets.find? fun t => t.type = input.targetType && t.externalId = input.targetExternalId

def touched (targetId : Id) (time : Time) (targets : List MonitorTarget) : List MonitorTarget :=
  targets.map fun t => if t.id = targetId then { t with lastMessageAt := some time } else t

theorem touched_id (targetId : Id) (time : Time) (t : MonitorTarget) :
    (if t.id = targetId then { t with lastMessageAt := some time } else t).id = t.id := by
  split_ifs <;> rfl

theorem updateTargetLastMessageAt_eq {s : Store} {targetId : Id} {time : Time}
    {target : MonitorTarget} (htarget : s.target? targetId = some target) :
    updateTargetLastMessageAt targetId (some time) s =
      (.ok (), { s with targets := touched targetId time s.targets }) := by
  simp [updateTargetLastMessageAt, touched, htarget]

/-- The store before the routing: the message of the key is there, or the input
is stored and announced. -/
inductive Filed (input : NormalizedMessage) (target : MonitorTarget) (s : Store) :
    MessageWithTarget → Store → Prop where
  | old {m : Message} {owner : MonitorTarget} :
      messageByKey? s input.source input.externalId = some m →
      s.target? m.targetId = some owner → Filed input target s ⟨m, owner⟩ s
  | new {time : Time} : input.publishedAt = some time →
      messageByKey? s input.source input.externalId = none →
      Filed input target s ⟨messageRow (messageData input target) s.nextId time, target⟩
        { s with
          targets := touched target.id time s.targets
          messages := s.messages ++ [messageRow (messageData input target) s.nextId time]
          events := s.events ++ [.messageCreated s.nextId input.source target.name]
          nextId := s.nextId + 1 }

theorem target?_touched {s : Store} {targetId : Id} {time : Time} {id : Id} :
    ({ s with targets := touched targetId time s.targets } : Store).target? id =
      (s.target? id).map fun t =>
        if t.id = targetId then { t with lastMessageAt := some time } else t := by
  simp only [Store.target?, touched, List.find?_map, Function.comp_def, touched_id]

theorem finish_post {input : NormalizedMessage} {target : MonitorTarget} {s s₁ : Store}
    {found : MessageWithTarget} (hfiled : Filed input target s found s₁)
    (hmessage : found.message ∈ s₁.messages)
    (hchannels : (s₁.channels.map NotificationChannel.id).Nodup) :
    ((routeToEnabledChannels found.message.id).bind fun _ => .ret (toDto found)).Obeys Undisturbed
      (fun _ _ => True) (fun s' r => ∃ found s₁ rows, r = .ok (toDto found) ∧
        Filed input target s found s₁ ∧ FannedOut found.message.id rows s₁ s') s₁ := by
  have hstored : (s₁.message? found.message.id).isSome = true :=
    List.find?_isSome.mpr ⟨found.message, hmessage, by simp⟩
  refine (Program.obeys_bind _ _ _ _ _ _).mpr
    ((routeToEnabledChannels_post hstored hchannels).mono (fun _ _ h => h) ?_)
  rintro s' r ⟨rfl, rows, hfanned⟩
  exact ⟨found, s₁, rows, rfl, hfiled, hfanned⟩

/-- A call whose target exists finds or stores its message and routes it. -/
theorem create_post {input : NormalizedMessage} {target : MonitorTarget} {s : Store}
    (hs : Constrained s) (htarget : targetOf? s input = some target)
    (hdate : messageByKey? s input.source input.externalId = none → input.publishedAt ≠ none) :
    (create input).Obeys Undisturbed (fun _ _ => True) (fun s' r => ∃ found s₁ rows,
      r = .ok (toDto found) ∧ Filed input target s found s₁ ∧
        FannedOut found.message.id rows s₁ s') s := by
  have hid : s.target? target.id = some target :=
    Table.find?_of_nodup hs.targets (List.mem_of_find?_eq_some htarget)
  refine ⟨trivial, fun r s₁ h => ?_⟩
  obtain ⟨hr, rfl⟩ := h.read fun _ => rfl
  obtain rfl : r = .ok (some target) := hr.trans (congrArg Except.ok htarget)
  refine ⟨trivial, fun r s₁ h => ?_⟩
  obtain ⟨hr, rfl⟩ := h.read fun _ => rfl
  cases hkey : messageByKey? s input.source input.externalId with
  | some m =>
      have hmem : m ∈ s.messages := List.mem_of_find?_eq_some hkey
      obtain ⟨owner, howner⟩ := Option.isSome_iff_exists.mp (hs.owners m hmem)
      obtain rfl : r = .ok (some ⟨m, owner⟩) := by
        rw [hr, hkey, Option.bind_some, withTarget?, howner]
        rfl
      exact finish_post (.old hkey howner) hmem hs.channels
  | none =>
      obtain ⟨time, htime⟩ := Option.ne_none_iff_exists'.mp (hdate hkey)
      obtain rfl : r = .ok none := by
        rw [hr, hkey]
        rfl
      refine ⟨trivial, fun r s₁ h => ?_⟩
      obtain ⟨_, heq⟩ := h.query fun _ => rfl
      obtain ⟨rfl, rfl⟩ := Prod.mk.inj (heq.symm.trans (createMessage_eq htime hkey hid))
      refine ⟨trivial, fun r s₂ h => ?_⟩
      obtain ⟨_, heq⟩ := h.query fun _ => rfl
      rw [htime] at heq
      obtain ⟨rfl, rfl⟩ := Prod.mk.inj (heq.symm.trans (updateTargetLastMessageAt_eq hid))
      refine ⟨trivial, fun r s₃ h => ?_⟩
      obtain ⟨rfl, rfl⟩ := h.emit
      exact finish_post (.new htime hkey) (List.mem_append_right _ List.mem_cons_self) hs.channels

/-! ## What a call leaves behind -/

/-- The store after one call, the message it ends up with and the tasks it adds. -/
structure PostState (input : NormalizedMessage) (target : MonitorTarget) (s s' : Store)
    (m : Message) (rows : List NotificationTask) : Prop where
  old : ∀ stored, messageByKey? s input.source input.externalId = some stored →
    m = stored ∧ s'.messages = s.messages ∧ s'.targets = s.targets ∧ s'.events = s.events
  new : messageByKey? s input.source input.externalId = none → ∃ time,
    input.publishedAt = some time ∧ m = messageRow (messageData input target) s.nextId time ∧
      s'.messages = s.messages ++ [m] ∧ s'.targets = touched target.id time s.targets ∧
      s'.events = s.events ++ [.messageCreated m.id m.source target.name]
  tasks : s'.tasks = s.tasks ++ rows
  served : rows.map NotificationTask.channelId =
    (unserved s m.id).map NotificationChannel.id
  defaults : ∀ t ∈ rows, ∃ createdAt, t = taskRow t.id m.id t.channelId createdAt
  fresh : (rows.map NotificationTask.id).Nodup ∧ ∀ t ∈ rows, s.nextId ≤ t.id
  jobs : s'.jobs = s.jobs ++
    List.zipWith (fun t c => Queue.jobOf t.id c.type) rows (unserved s m.id)
  channels : s'.channels = s.channels

section Filed

variable {input : NormalizedMessage} {target : MonitorTarget} {s s₁ s' : Store}
  {found : MessageWithTarget} {rows : List NotificationTask}

theorem Filed.postState (hfiled : Filed input target s found s₁)
    (hfanned : FannedOut found.message.id rows s₁ s') :
    PostState input target s s' found.message rows := by
  obtain ⟨rfl, hchannels, hids, hdefaults⟩ := hfanned
  have hfresh : (rows.map NotificationTask.id).Nodup ∧ ∀ t ∈ rows, s₁.nextId ≤ t.id := by
    rw [hids]
    refine ⟨List.nodup_range', fun t ht => ?_⟩
    have hmem : t.id ∈ List.range' s₁.nextId rows.length := hids ▸ List.mem_map_of_mem ht
    exact (List.mem_range'_1.mp hmem).1
  cases hfiled with
  | old hkey howner =>
      refine ⟨?_, by simp [hkey], rfl, hchannels, hdefaults, hfresh, rfl, rfl⟩
      rintro stored hstored
      exact ⟨Option.some.inj (hkey.symm.trans hstored), rfl, rfl, rfl⟩
  | @new time htime hkey =>
      refine ⟨by simp [hkey], fun _ => ⟨time, htime, rfl, rfl, rfl, rfl⟩, rfl, hchannels,
        hdefaults, ⟨hfresh.1, fun t ht => ?_⟩, rfl, rfl⟩
      exact (Nat.le_succ _).trans (hfresh.2 t ht)

/-! ## The same call again -/

theorem Filed.stored (hfiled : Filed input target s found s₁) :
    messageByKey? s₁ input.source input.externalId = some found.message := by
  cases hfiled with
  | old hkey _ => exact hkey
  | new _ hkey =>
      simp only [messageByKey?] at hkey
      simp [messageByKey?, List.find?_append, hkey, messageRow, messageData]

theorem Filed.owner (hs : Constrained s) (htarget : targetOf? s input = some target)
    (hfiled : Filed input target s found s₁) :
    ∃ owner, s₁.target? found.message.targetId = some owner ∧
      toDto ⟨found.message, owner⟩ = toDto found := by
  cases hfiled with
  | old _ howner => exact ⟨_, howner, rfl⟩
  | @new time _ _ =>
      have hid : s.target? target.id = some target :=
        Table.find?_of_nodup hs.targets (List.mem_of_find?_eq_some htarget)
      refine ⟨{ target with lastMessageAt := some time }, ?_, rfl⟩
      refine (target?_touched (s := s)).trans ?_
      simp [messageRow, messageData, hid]

theorem map_id_touched (targetId : Id) (time : Time) (targets : List MonitorTarget) :
    (touched targetId time targets).map MonitorTarget.id = targets.map MonitorTarget.id := by
  rw [touched, List.map_map]
  exact List.map_congr_left fun t _ => touched_id targetId time t

theorem Filed.constrained (hs : Constrained s) (htarget : targetOf? s input = some target)
    (hfiled : Filed input target s found s₁) : Constrained s₁ := by
  have howner := hfiled.owner hs htarget
  cases hfiled with
  | old => exact hs
  | @new time _ _ =>
      refine ⟨(map_id_touched target.id time s.targets).symm ▸ hs.targets, hs.channels,
        fun m hm => ?_⟩
      rcases List.mem_append.mp hm with hm | hm
      · refine (congrArg Option.isSome (target?_touched (s := s))).trans ?_
        rw [Option.isSome_map]
        exact hs.owners m hm
      · obtain rfl := List.mem_singleton.mp hm
        obtain ⟨owner, howner, -⟩ := howner
        exact Option.isSome_iff_exists.mpr ⟨owner, howner⟩

theorem Filed.targetOf? (htarget : targetOf? s input = some target)
    (hfiled : Filed input target s found s₁) : (Messages.targetOf? s₁ input).isSome = true := by
  cases hfiled with
  | old => simp [htarget]
  | @new time _ _ =>
      have hkeys : ∀ t : MonitorTarget, (if t.id = target.id then
          { t with lastMessageAt := some time } else t).type = t.type ∧
          (if t.id = target.id then { t with lastMessageAt := some time } else t).externalId =
            t.externalId := fun t => by split_ifs <;> exact ⟨rfl, rfl⟩
      simp only [Messages.targetOf?] at htarget
      simp [Messages.targetOf?, touched, List.find?_map, hkeys, htarget]

theorem FannedOut.hasTask (hfanned : FannedOut found.message.id rows s₁ s')
    {c : NotificationChannel} (hc : c ∈ s₁.channels) (henabled : c.enabled = true) :
    hasTask s' found.message.id c.id = true := by
  obtain ⟨rfl, hchannels, -, hdefaults⟩ := hfanned
  by_cases hhas : Messages.hasTask s₁ found.message.id c.id = true
  · simp only [Messages.hasTask, List.any_append, Bool.or_eq_true] at hhas ⊢
    exact Or.inl hhas
  · have hmem : c.id ∈ rows.map NotificationTask.channelId := by
      rw [hchannels]
      exact List.mem_map_of_mem (List.mem_filter.mpr ⟨hc, by simp [henabled, hhas]⟩)
    obtain ⟨t, ht, hid⟩ := List.mem_map.mp hmem
    obtain ⟨createdAt, heq⟩ := hdefaults t ht
    have hmessage : t.messageId = found.message.id := by rw [heq, taskRow]
    refine List.any_eq_true.mpr ⟨t, List.mem_append_right _ ht, ?_⟩
    simp [hmessage, hid]

/-- What may happen before the call is made again. -/
structure Between (s s' : Store) : Prop where
  targets : s'.targets = s.targets
  messages : s'.messages = s.messages
  tasks : ∀ messageId channelId, Messages.hasTask s messageId channelId = true →
    Messages.hasTask s' messageId channelId = true
  enabled : s'.channels.filter (·.enabled) = s.channels.filter (·.enabled)
  channels : (s'.channels.map NotificationChannel.id).Nodup

theorem Between.refl {s : Store} (h : (s.channels.map NotificationChannel.id).Nodup) :
    Between s s := ⟨rfl, rfl, fun _ _ h => h, rfl, h⟩

theorem create_again (hs : Constrained s) (htarget : targetOf? s input = some target)
    (hfiled : Filed input target s found s₁) (hfanned : FannedOut found.message.id rows s₁ s')
    {s₂ : Store} (hbetween : Between s' s₂) :
    (create input).Obeys Undisturbed (fun _ _ => True)
      (fun s₃ r => r = .ok (toDto found) ∧ s₃ = s₂) s₂ := by
  have hs₁ := hfiled.constrained hs htarget
  obtain ⟨owner, howner, hdto⟩ := hfiled.owner hs htarget
  have hstored := hfiled.stored
  obtain ⟨again, hagain⟩ := Option.isSome_iff_exists.mp (hfiled.targetOf? htarget)
  have hserved : unserved s₂ found.message.id = [] := by
    rw [unserved_eq, hbetween.enabled]
    refine List.filter_eq_nil_iff.mpr fun c hc => ?_
    obtain ⟨hc, henabled⟩ := List.mem_filter.mp hc
    rw [hfanned.store] at hc
    simp [hbetween.tasks _ _ (hfanned.hasTask hc henabled)]
  have htargets : s₂.targets = s₁.targets := by rw [hbetween.targets, hfanned.store]
  have hmessages : s₂.messages = s₁.messages := by rw [hbetween.messages, hfanned.store]
  have hs₂ : Constrained s₂ := by
    refine ⟨htargets ▸ hs₁.targets, hbetween.channels, fun m hm => ?_⟩
    rw [Store.target?, htargets]
    exact hs₁.owners m (hmessages ▸ hm)
  have hkey : messageByKey? s₂ input.source input.externalId = some found.message := by
    rw [messageByKey?, hmessages]
    exact hstored
  have htarget₂ : targetOf? s₂ input = some again := by
    rw [targetOf?, htargets]
    exact hagain
  refine (create_post hs₂ htarget₂ (by simp [hkey])).mono (fun _ _ h => h) ?_
  rintro s₃ r ⟨found', s₂', rows', rfl, hfiled', hfanned'⟩
  cases hfiled' with
  | new _ hnone => simp [hkey] at hnone
  | @old m owner' hkey' howner' =>
      obtain rfl : m = found.message := Option.some.inj (hkey'.symm.trans hkey)
      refine ⟨?_, hfanned'.eq hserved⟩
      rw [Store.target?, htargets] at howner'
      obtain rfl : owner' = owner := Option.some.inj (howner'.symm.trans howner)
      rw [hdto]

end Filed

/-! ## The theorem -/

theorem create_unknownTarget {input : NormalizedMessage} {s : Store}
    (htarget : targetOf? s input = none) :
    (create input).Obeys Undisturbed (fun _ _ => True)
      (fun s' r => r = .error (targetNotFound input) ∧ s' = s) s := by
  refine ⟨trivial, fun r s' h => ?_⟩
  obtain ⟨hr, rfl⟩ := h.read fun _ => rfl
  obtain rfl : r = .ok none := hr.trans (congrArg Except.ok htarget)
  exact ⟨rfl, rfl⟩

/-- No operation of the run fails. -/
def Calm (choices : ℕ → Choice) : Prop :=
  ∀ n, (choices n).fault = none ∧ (choices n).queueFault = none

theorem Calm.run {choices : ℕ → Choice} (hcalm : Calm choices) {α : Type} {p : Api α}
    {s : Store} {after : Store → Except ApiError α → Prop}
    (hp : p.Obeys Undisturbed (fun _ _ => True) after s) :
    after (p.run exec choices s).2 (p.run exec choices s).1 :=
  hp.run fun n _ _ => ⟨choices n, (hcalm n).1, (hcalm n).2, rfl⟩

/-- A new message needs a valid date; without one the database refuses the row. -/
theorem create_postState (input : NormalizedMessage) {s : Store} (hs : Constrained s)
    {choices : ℕ → Choice} (hcalm : Calm choices) :
    (targetOf? s input = none →
      (create input).run exec choices s = (.error (targetNotFound input), s)) ∧
    ∀ target, targetOf? s input = some target →
      (messageByKey? s input.source input.externalId = none → input.publishedAt ≠ none) →
      ∃ m owner rows s', (create input).run exec choices s = (.ok (toDto ⟨m, owner⟩), s') ∧
        PostState input target s s' m rows ∧
        ∀ s₁ choices', Between s' s₁ → Calm choices' →
          (create input).run exec choices' s₁ = (.ok (toDto ⟨m, owner⟩), s₁) := by
  refine ⟨fun htarget => ?_, fun target htarget hdate => ?_⟩
  · obtain ⟨hr, hstore⟩ := hcalm.run (create_unknownTarget htarget)
    exact Prod.ext hr hstore
  · obtain ⟨found, s₁, rows, hr, hfiled, hfanned⟩ := hcalm.run (create_post hs htarget hdate)
    refine ⟨found.message, found.target, rows, _, Prod.ext hr rfl, hfiled.postState hfanned, ?_⟩
    intro s₂ choices' hbetween hcalm'
    obtain ⟨hr', hstore⟩ := hcalm'.run (create_again hs htarget hfiled hfanned hbetween)
    exact Prod.ext hr' hstore

/-- The message is delivered again after a channel was added and one disabled. -/
def redelivered : Store :=
  { oneChannel with
    messages := [messageRow (messageData sampleMessage
      ⟨1, .tgChannel, "channel", none, "-1001", true, some 0, 0⟩) 3 0]
    channels := [⟨2, "bot", .telegram, true, .null, 0⟩, ⟨5, "group", .qq, true, .null, 0⟩,
      ⟨6, "room", .wechat, false, .null, 0⟩]
    tasks := [taskRow 4 3 2 0]
    jobs := [Queue.jobOf 4 .telegram]
    nextId := 7 }

theorem create_postState_redelivered :
    ((create sampleMessage).run exec (fun _ => calm) redelivered).2.tasks.map
      (fun t => (t.messageId, t.channelId)) = [(3, 2), (3, 5)] ∧
    (create sampleMessage).run exec (fun _ => calm)
        ((create sampleMessage).run exec (fun _ => calm) redelivered).2 =
      (create sampleMessage).run exec (fun _ => calm) redelivered := by
  have hconstrained : Constrained redelivered := ⟨by decide, by decide, by decide⟩
  have hcalm : Calm fun _ => calm := fun _ => ⟨rfl, rfl⟩
  obtain ⟨m, owner, rows, s', hrun, hpost, hagain⟩ :=
    (create_postState sampleMessage hconstrained hcalm).2 _ rfl (by decide)
  obtain ⟨rfl, -⟩ := hpost.old _ rfl
  have hchannels : s'.channels = redelivered.channels := hpost.channels
  rw [hrun]
  refine ⟨?_, hagain s' _ (.refl (hchannels ▸ hconstrained.channels)) hcalm⟩
  have hrows : rows.map (fun t => (t.messageId, t.channelId)) =
      (rows.map NotificationTask.channelId).map fun id => (3, id) := by
    rw [List.map_map]
    refine List.map_congr_left fun t ht => ?_
    obtain ⟨createdAt, heq⟩ := hpost.defaults t ht
    rw [heq]
    rfl
  rw [hpost.tasks, List.map_append, hrows, hpost.served]
  rfl

end SocialMonitor.Messages

import SocialMonitor.Async.Later
import SocialMonitor.Backend.Integrity

/-!
# What is removed stays removed

Identifiers are never drawn again.  So once a channel or a monitor is deleted
its row never comes back, nothing refers to it, and no call that starts later
reads it.
-/

namespace SocialMonitor.Backend

open Async

/-! ## The rows that an answer shows -/

/-- The channels of an answer. -/
def channelsIn : (op : Op) → Answer op → List Id
  | .message .findEnabledNotificationChannels, channels => channels.map NotificationChannel.id
  | .message (.createNotificationTasks _ _), created =>
      created.map Messages.CreatedTask.channelId
  | .channel (.findChannels _), channels => channels.map NotificationChannel.id
  | .channel (.findChannelById _), found => (found.map NotificationChannel.id).toList
  | .channel (.createChannel _), row => [row.id]
  | .channel (.updateChannel _ _), row => [row.id]
  | .channel (.findTasks (.findMany _ _ _)), tasks => tasks.map fun t => t.channel.id
  | .channel (.task (.findTaskWithRelations _)), found => (found.map fun t => t.channel.id).toList
  | .channel (.findNotifications _), tasks => tasks.map fun t => t.channel.id
  | _, _ => []

/-- The monitors of an answer. -/
def targetsIn : (op : Op) → Answer op → List Id
  | .message (.findTelegramTargetByExternalId _), found => (found.map MonitorTarget.id).toList
  | .message (.findTargetByTypeExternalId _ _), found => (found.map MonitorTarget.id).toList
  | .message (.findUniqueBySourceExternalId _ _), found => (found.map fun m => m.target.id).toList
  | .message (.createMessage _), m => [m.target.id]
  | .monitor (.findUnique _), found => (found.map MonitorTarget.id).toList
  | .monitor (.findUniqueByTypeExternalId _ _), found => (found.map MonitorTarget.id).toList
  | .monitor (.create _), row => [row.id]
  | .monitor (.update _ _), row => [row.id]
  | .messages (.findMany _ _ _), messages => messages.map fun m => m.target.id
  | .monitors (.findMany _ _ _), monitors => monitors.map MonitorTarget.id
  | .findMessage _, found => (found.map fun m => m.target.id).toList
  | .channel (.findMessage _), found => (found.map fun m => m.target.id).toList
  | .channel (.findTasks (.findMany _ _ _)), tasks => tasks.map fun t => t.target.id
  | .channel (.task (.findTaskWithRelations _)), found => (found.map fun t => t.target.id).toList
  | _, _ => []

def shown (rows : (op : Op) → Answer op → List Id) (e : Entry Op Answer ApiError) : List Id :=
  match e.answer with
  | .ok answer => rows e.op answer
  | .error _ => []

/-! ## Answers show rows of the tables -/

/-- The row is in the table, or it is drawn only now. -/
def Known (ids : List Id) (next : Id) (id : Id) : Prop := id ∈ ids ∨ id = next

theorem known_of_find? {α : Type} {f : α → Id} {rows : List α} {p : α → Bool} {next : Id} {a : α}
    (h : rows.find? p = some a) : Known (rows.map f) next (f a) :=
  Or.inl (List.mem_map_of_mem (List.mem_of_find?_eq_some h))

theorem query_ok {α : Type} {c : Choice} {s : Store} {applied : Except ApiError α × Store} {a : α}
    (h : (c.query s applied).1 = .ok a) : applied.1 = .ok a := by
  rcases c.query_cases s applied with ⟨error, -, heq⟩ | ⟨-, heq⟩ <;> rw [heq] at h
  · cases h
  · exact h

theorem mem_of_mapM_ok {α β : Type} {f : α → Except ApiError β} {as : List α} {bs : List β}
    (h : as.mapM f = .ok bs) {b : β} (hb : b ∈ bs) : ∃ a ∈ as, f a = .ok b := by
  induction as generalizing bs with
  | nil =>
      obtain rfl : [] = bs := Except.ok.inj h
      cases hb
  | cons a as ih =>
      rw [List.mapM_cons] at h
      cases ha : f a with
      | error e => simp [ha, bind, Except.bind] at h
      | ok b' =>
          cases has : as.mapM f with
          | error e => simp [ha, has, bind, Except.bind] at h
          | ok bs' =>
              simp only [ha, has, bind, Except.bind, pure, Except.pure, Except.ok.injEq] at h
              subst h
              rcases List.mem_cons.mp hb with rfl | hb
              · exact ⟨a, List.mem_cons_self, ha⟩
              · obtain ⟨a', ha', heq⟩ := ih has hb
                exact ⟨a', List.mem_cons_of_mem _ ha', heq⟩

theorem listing_related {Filter Row Record : Type} {source : Listing.Source Filter Row Record}
    {c : Choice} {filter : Filter} {skip take : ℕ} {s : Store} {records : List Record}
    (h : (Listing.exec source c (.findMany filter skip take) s).1 = .ok records) {record : Record}
    (hrecord : record ∈ records) : ∃ row ∈ source.rows s, source.related s row = some record := by
  obtain ⟨row, hrow, heq⟩ := mem_of_mapM_ok (query_ok h) hrecord
  refine ⟨row, (List.mem_filter.mp (Listing.mem_matching_of_mem_slice hrow)).1, ?_⟩
  unfold Listing.Source.record at heq
  split at heq
  · rename_i record' hrelated
    rw [hrelated, Except.ok.inj heq]
  · cases heq

section Relations

variable {s : Store} {task : NotificationTask} {found : Notifications.TaskWithRelations}

theorem relations?_mem (h : Notifications.relations? s task = some found) :
    found.target ∈ s.targets ∧ found.channel ∈ s.channels := by
  simp only [Notifications.relations?, Option.bind_eq_bind, Option.bind_eq_some_iff] at h
  obtain ⟨message, -, target, htarget, channel, hchannel, heq⟩ := h
  obtain rfl := Option.some_inj.mp heq
  exact ⟨List.mem_of_find?_eq_some htarget, List.mem_of_find?_eq_some hchannel⟩

theorem taskWithRelations?_mem {id : Id} (h : Notifications.taskWithRelations? s id = some found) :
    found.target ∈ s.targets ∧ found.channel ∈ s.channels := by
  obtain ⟨task, -, h⟩ := Option.bind_eq_some_iff.mp h
  exact relations?_mem h

theorem withTarget?_mem {m : Message} {record : Messages.MessageWithTarget}
    (h : Messages.withTarget? s m = some record) : record.target ∈ s.targets := by
  obtain ⟨target, htarget, rfl⟩ := Option.map_eq_some_iff.mp h
  exact List.mem_of_find?_eq_some htarget

end Relations

section Answers

variable {contains : String → String → Bool} {c : Channels.Choice} {w : Channels.World}

theorem message_channelsIn {op : Messages.Op} {answer : Messages.Answer op}
    (h : (Messages.exec c.toChoice op w.store).1 = .ok answer) :
    ∀ i ∈ channelsIn (.message op) answer, i ∈ w.store.channels.map NotificationChannel.id := by
  intro i hi
  cases op with
  | findEnabledNotificationChannels =>
      obtain rfl := Except.ok.inj (query_ok h)
      obtain ⟨channel, hchannel, rfl⟩ := List.mem_map.mp hi
      exact List.mem_map_of_mem (List.mem_filter.mp hchannel).1
  | createNotificationTasks messageId channelIds =>
      have hok := query_ok h
      unfold Messages.createNotificationTasks at hok
      dsimp only at hok
      split_ifs at hok with hall
      obtain rfl := Except.ok.inj hok
      obtain ⟨created, hcreated, rfl⟩ := List.mem_map.mp hi
      have hrefers := List.all_eq_true.mp hall created hcreated
      exact mem_ids_of_isSome (Bool.and_eq_true_iff.mp hrefers).2
  | _ => cases hi

theorem channel_channelsIn {op : Channels.Op} {answer : Channels.Answer op}
    (h : (Channels.exec c op w).1 = .ok answer) : ∀ i ∈ channelsIn (.channel op) answer,
      Known (w.store.channels.map NotificationChannel.id) w.store.nextId i := by
  intro i hi
  cases op with
  | findChannels filter =>
      obtain rfl := Except.ok.inj (query_ok h)
      obtain ⟨channel, hchannel, rfl⟩ := List.mem_map.mp hi
      have hmem := (Paging.ordered_ordering c.pick _).perm.subset hchannel
      exact Or.inl (List.mem_map_of_mem (List.mem_filter.mp hmem).1)
  | findChannelById id =>
      obtain rfl := Except.ok.inj (query_ok h)
      obtain ⟨channel, hchannel, rfl⟩ := Option.map_eq_some_iff.mp (Option.mem_toList.mp hi)
      exact known_of_find? hchannel
  | createChannel data =>
      have hok := query_ok h
      rcases Channels.createChannelRow_cases data c.now w.store with
        ⟨error, heq⟩ | ⟨config, -, heq⟩ <;> rw [heq] at hok
      · cases hok
      · obtain rfl := Except.ok.inj hok
        exact Or.inr (List.mem_singleton.mp hi)
  | updateChannel id data =>
      have hok := query_ok h
      rcases Channels.updateChannelRow_cases id data w.store with
        ⟨error, heq⟩ | ⟨channel, row, hchannel, hrow, heq⟩ <;> rw [heq] at hok
      · cases hok
      · obtain rfl := Except.ok.inj hok
        obtain ⟨-, -, hfields⟩ := Channels.updatedChannel_ok hrow
        obtain rfl := List.mem_singleton.mp hi
        refine Or.inl (List.mem_map.mpr ⟨channel, List.mem_of_find?_eq_some hchannel, ?_⟩)
        rw [hfields]
  | findTasks op =>
      cases op with
      | findMany filter skip take =>
          obtain ⟨task, htask, rfl⟩ := List.mem_map.mp hi
          obtain ⟨row, -, hrelated⟩ := listing_related h htask
          exact Or.inl (List.mem_map_of_mem (relations?_mem hrelated).2)
      | count filter => cases hi
  | task op =>
      cases op with
      | findTaskWithRelations id =>
          obtain rfl := Except.ok.inj (query_ok h)
          obtain ⟨found, hfound, rfl⟩ := Option.map_eq_some_iff.mp (Option.mem_toList.mp hi)
          exact Or.inl (List.mem_map_of_mem (taskWithRelations?_mem hfound).2)
      | _ => cases hi
  | findNotifications messageId =>
      obtain ⟨task, htask, rfl⟩ := List.mem_map.mp hi
      obtain ⟨row, -, heq⟩ := mem_of_mapM_ok (query_ok h) htask
      unfold Channels.taskWithChannel at heq
      split at heq
      · rename_i channel hchannel
        obtain rfl := Except.ok.inj heq
        exact known_of_find? hchannel
      · cases heq
  | _ => cases hi

theorem channelsIn_known {op : Op} {answer : Answer op}
    (h : (exec contains c op w).1 = .ok answer) : ∀ i ∈ channelsIn op answer,
      Known (w.store.channels.map NotificationChannel.id) w.store.nextId i := by
  intro i hi
  cases op with
  | message op => exact Or.inl (message_channelsIn h i hi)
  | channel op => exact channel_channelsIn h i hi
  | _ => cases hi

theorem message_targetsIn {op : Messages.Op} {answer : Messages.Answer op}
    (h : (Messages.exec c.toChoice op w.store).1 = .ok answer) :
    ∀ i ∈ targetsIn (.message op) answer, i ∈ w.store.targets.map MonitorTarget.id := by
  intro i hi
  cases op with
  | findTelegramTargetByExternalId externalId =>
      obtain rfl := Except.ok.inj (query_ok h)
      obtain ⟨target, htarget, rfl⟩ := Option.map_eq_some_iff.mp (Option.mem_toList.mp hi)
      exact List.mem_map_of_mem (List.mem_filter.mp (List.mem_of_getElem? htarget)).1
  | findTargetByTypeExternalId type externalId =>
      obtain rfl := Except.ok.inj (query_ok h)
      obtain ⟨target, htarget, rfl⟩ := Option.map_eq_some_iff.mp (Option.mem_toList.mp hi)
      exact List.mem_map_of_mem (List.mem_of_find?_eq_some htarget)
  | findUniqueBySourceExternalId source externalId =>
      obtain rfl := Except.ok.inj (query_ok h)
      obtain ⟨record, hrecord, rfl⟩ := Option.map_eq_some_iff.mp (Option.mem_toList.mp hi)
      obtain ⟨m, -, hrecord⟩ := Option.bind_eq_some_iff.mp hrecord
      exact List.mem_map_of_mem (withTarget?_mem hrecord)
  | createMessage data =>
      have hok := query_ok h
      unfold Messages.createMessage at hok
      split at hok
      · cases hok
      · split_ifs at hok
        split at hok
        · cases hok
        · rename_i target htarget
          obtain rfl := Except.ok.inj hok
          obtain rfl := List.mem_singleton.mp hi
          exact List.mem_map_of_mem (List.mem_of_find?_eq_some htarget)
  | _ => cases hi

theorem monitor_targetsIn {op : Monitors.Op} {answer : Monitors.Answer op}
    (h : (Monitors.exec c.toChoice op w.store).1 = .ok answer) :
    ∀ i ∈ targetsIn (.monitor op) answer,
      Known (w.store.targets.map MonitorTarget.id) w.store.nextId i := by
  intro i hi
  cases op with
  | findUnique id =>
      obtain rfl := Except.ok.inj (query_ok h)
      obtain ⟨target, htarget, rfl⟩ := Option.map_eq_some_iff.mp (Option.mem_toList.mp hi)
      exact known_of_find? htarget
  | findUniqueByTypeExternalId type externalId =>
      obtain rfl := Except.ok.inj (query_ok h)
      obtain ⟨target, htarget, rfl⟩ := Option.map_eq_some_iff.mp (Option.mem_toList.mp hi)
      exact known_of_find? htarget
  | create data =>
      have hok := query_ok h
      unfold Monitors.createTarget at hok
      split_ifs at hok
      obtain rfl := Except.ok.inj hok
      exact Or.inr (List.mem_singleton.mp hi)
  | update id data =>
      have hok := query_ok h
      unfold Monitors.updateTarget at hok
      split at hok
      · cases hok
      · rename_i t ht
        split at hok
        · cases hok
        · rename_i row hrow
          split_ifs at hok
          obtain rfl := Except.ok.inj hok
          obtain rfl := List.mem_singleton.mp hi
          rw [Monitors.updatedRow_ok hrow]
          exact Or.inl (List.mem_map.mpr ⟨t, List.mem_of_find?_eq_some ht, rfl⟩)
  | _ => cases hi

theorem channel_targetsIn {op : Channels.Op} {answer : Channels.Answer op}
    (h : (Channels.exec c op w).1 = .ok answer) :
    ∀ i ∈ targetsIn (.channel op) answer, i ∈ w.store.targets.map MonitorTarget.id := by
  intro i hi
  cases op with
  | findTasks op =>
      cases op with
      | findMany filter skip take =>
          obtain ⟨task, htask, rfl⟩ := List.mem_map.mp hi
          obtain ⟨row, -, hrelated⟩ := listing_related h htask
          exact List.mem_map_of_mem (relations?_mem hrelated).1
      | count filter => cases hi
  | task op =>
      cases op with
      | findTaskWithRelations id =>
          obtain rfl := Except.ok.inj (query_ok h)
          obtain ⟨found, hfound, rfl⟩ := Option.map_eq_some_iff.mp (Option.mem_toList.mp hi)
          exact List.mem_map_of_mem (taskWithRelations?_mem hfound).1
      | _ => cases hi
  | findMessage id =>
      obtain rfl := Except.ok.inj (query_ok h)
      obtain ⟨record, hrecord, rfl⟩ := Option.map_eq_some_iff.mp (Option.mem_toList.mp hi)
      obtain ⟨m, -, hrecord⟩ := Option.bind_eq_some_iff.mp hrecord
      exact List.mem_map_of_mem (withTarget?_mem hrecord)
  | _ => cases hi

theorem targetsIn_known {op : Op} {answer : Answer op} (h : (exec contains c op w).1 = .ok answer) :
    ∀ i ∈ targetsIn op answer,
      Known (w.store.targets.map MonitorTarget.id) w.store.nextId i := by
  intro i hi
  cases op with
  | message op => exact Or.inl (message_targetsIn h i hi)
  | monitor op => exact monitor_targetsIn h i hi
  | channel op => exact Or.inl (channel_targetsIn h i hi)
  | messages op =>
      cases op with
      | findMany filter skip take =>
          obtain ⟨record, hrecord, rfl⟩ := List.mem_map.mp hi
          obtain ⟨m, -, hrelated⟩ := listing_related h hrecord
          exact Or.inl (List.mem_map_of_mem (withTarget?_mem hrelated))
      | count filter => cases hi
  | monitors op =>
      cases op with
      | findMany filter skip take =>
          obtain ⟨record, hrecord, rfl⟩ := List.mem_map.mp hi
          obtain ⟨t, ht, hrelated⟩ := listing_related h hrecord
          obtain rfl := Option.some_inj.mp hrelated
          exact Or.inl (List.mem_map_of_mem ht)
      | count filter => cases hi
  | findMessage id =>
      obtain rfl := Except.ok.inj (query_ok h)
      obtain ⟨record, hrecord, rfl⟩ := Option.map_eq_some_iff.mp (Option.mem_toList.mp hi)
      obtain ⟨m, -, hrecord⟩ := Option.bind_eq_some_iff.mp hrecord
      exact Or.inl (List.mem_map_of_mem (withTarget?_mem hrecord))
  | _ => cases hi

end Answers

/-! ## Identifiers do not come back -/

/-- The identifier was drawn, and its row is gone. -/
structure Gone (ids : List Id) (next id : Id) : Prop where
  drawn : id < next
  absent : id ∉ ids

theorem Gone.unknown {ids : List Id} {next id : Id} (h : Gone ids next id) :
    ¬ Known ids next id := by
  rintro (hmem | rfl)
  · exact h.absent hmem
  · exact absurd h.drawn (lt_irrefl _)

section Write

variable {s s' : Store}

theorem known_append {α : Type} {f : α → Id} {rows : List α} {row : α} {next : Id}
    (hid : f row = next) : ∀ i ∈ (rows ++ [row]).map f, Known (rows.map f) next i := by
  intro i hi
  rw [List.map_append, List.map_singleton, List.mem_append] at hi
  exact hi.imp_right fun h => (List.mem_singleton.mp h).trans hid

theorem Write.channel_known {effect : Effect} (h : Write s effect s') :
    ∀ i ∈ s'.channels.map NotificationChannel.id,
    Known (s.channels.map NotificationChannel.id) s.nextId i := by
  cases h with
  | channelCreated row hid => exact known_append hid
  | channelUpdated id c row hc hid htype =>
      intro i hi
      rw [map_id_eq (channelUpdated_id hc hid) s.channels] at hi
      exact Or.inl hi
  | channelDeleted id => exact fun i hi => Or.inl ((List.filter_sublist.map _).subset hi)
  | _ => exact fun i hi => Or.inl hi

theorem Write.target_known {effect : Effect} (h : Write s effect s') :
    ∀ i ∈ s'.targets.map MonitorTarget.id,
    Known (s.targets.map MonitorTarget.id) s.nextId i := by
  cases h with
  | targetCreated row hid => exact known_append hid
  | targetsUpdated f hid =>
      intro i hi
      rw [map_id_eq hid s.targets] at hi
      exact Or.inl hi
  | targetDeleted id => exact fun i hi => Or.inl ((List.filter_sublist.map _).subset hi)
  | _ => exact fun i hi => Or.inl hi

theorem Gone.write {f : Store → List Id} {id : Id} (h : Gone (f s) s.nextId id)
    (hnext : s.nextId ≤ s'.nextId) (hknown : ∀ i ∈ f s', Known (f s) s.nextId i) :
    Gone (f s') s'.nextId id :=
  ⟨h.drawn.trans_le hnext, fun hmem => h.unknown (hknown id hmem)⟩

end Write

def channelIds (s : Store) : List Id := s.channels.map NotificationChannel.id

def targetIds (s : Store) : List Id := s.targets.map MonitorTarget.id

section Runs

variable {config : Config} {allowed : ApiPool → ApiEvent → Prop} {P₀ P : ApiPool}

/-- Later calls see nothing of a row that is gone. -/
theorem gone_later (hrun : (system config).Run allowed P₀ P) (ids : Store → List Id)
    (rows : (op : Op) → Answer op → List Id) {id : Id}
    (hwrite : ∀ s s' effect, Write s effect s' → ∀ i ∈ ids s', Known (ids s) s.nextId i)
    (hrows : ∀ c op w answer, (exec config.contains c op w).1 = .ok answer →
      ∀ i ∈ rows op answer, Known (ids w.store) w.store.nextId i)
    (hinit : Gone (ids P₀.store.store) P₀.store.store.nextId id) :
    Gone (ids P.store.store) P.store.store.nextId id ∧
      ∀ c ∈ P.since P₀, ∀ e ∈ c.history, id ∉ shown rows e := by
  refine hrun.later (fun w => Gone (ids w.store) w.store.nextId id) (fun e => id ∉ shown rows e)
    hinit ?_ ?_ fun change => change.elim
  · intro choice op w h
    have hw := exec_write config.contains choice op w
    exact h.write hw.nextId (hwrite _ _ _ hw)
  · intro choice op w h hmem
    unfold shown at hmem
    split at hmem
    · rename_i answer hanswer
      exact h.unknown (hrows choice op w answer hanswer id hmem)
    · cases hmem

/-- The delete of the request has succeeded. -/
def Deleted (h : History) : Request → Prop
  | .removeChannel id => ⟨.deleteChannel id, .ok ()⟩ ∈ h
  | .monitor (.remove id) => ⟨.monitor (.delete id), .ok ()⟩ ∈ h
  | _ => True

theorem removeChannel_conforms (id : Id) : (program config (.removeChannel id)).Conforms
    (fun _ _ => True) (fun _ _ => True)
    (fun h r => ∀ reply, r = .ok reply → Deleted h (.removeChannel id)) [] := by
  refine ⟨trivial, fun r h hr => ?_⟩
  obtain ⟨-, rfl⟩ := hr
  rcases r with e | _ | channel
  · exact fun reply hreply => nomatch hreply
  · exact fun reply hreply => nomatch hreply
  · refine ⟨trivial, fun r h hr => ?_⟩
    obtain ⟨-, rfl⟩ := hr
    rcases r with e | _
    · exact fun reply hreply => nomatch hreply
    · exact fun reply _ => List.mem_cons_self

theorem removeMonitor_conforms (id : Id) : (program config (.monitor (.remove id))).Conforms
    (fun _ _ => True) (fun _ _ => True)
    (fun h r => ∀ reply, r = .ok reply → Deleted h (.monitor (.remove id))) [] := by
  refine ⟨trivial, fun r h hr => ?_⟩
  obtain ⟨-, rfl⟩ := hr
  rcases r with e | _ | target
  · exact fun reply hreply => nomatch hreply
  · exact fun reply hreply => nomatch hreply
  · refine ⟨trivial, fun r h hr => ?_⟩
    obtain ⟨-, rfl⟩ := hr
    rcases r with e | _
    · exact fun reply hreply => nomatch hreply
    · exact fun reply _ => List.mem_cons_self

theorem program_deletes (request : Request) : (program config request).Conforms
    (fun _ _ => True) (fun _ _ => True)
    (fun h r => ∀ reply, r = .ok reply → Deleted h request) [] := by
  have hany : ∀ request : Request, (∀ h, Deleted h request) → (program config request).Conforms
      (fun _ _ => True) (fun _ _ => True)
      (fun h r => ∀ reply, r = .ok reply → Deleted h request) [] := fun request hdeleted =>
    (Program.obeys_trivial _ _).mono (fun _ _ h => h) fun h _ _ _ _ => hdeleted h
  cases request with
  | removeChannel id => exact removeChannel_conforms id
  | monitor request =>
      cases request with
      | remove id => exact removeMonitor_conforms id
      | _ => exact hany _ fun _ => trivial
  | _ => exact hany _ fun _ => trivial

/-- The history of a call that has returned. -/
theorem deleted_of_returned (hrun : (system config).Run allowed initial P) {c : RunningCall}
    (hc : c ∈ P.calls) {reply : Reply} (hreturned : c.Returned reply) :
    Deleted c.history c.label := by
  have hconforms := (hrun.conforms rfl (fun _ _ _ => True) program_deletes
    (fun _ _ _ _ _ _ _ _ _ => trivial) c hc).2
  rw [Call.outcome?_eq_some.mp hreturned] at hconforms
  exact hconforms.ended reply rfl

/-- The entry is not the given one, or the row is gone. -/
def GoneAfter (ids : Store → List Id) (id : Id) (deleting e : Entry Op Answer ApiError)
    (w : Channels.World) : Prop := e = deleting → Gone (ids w.store) w.store.nextId id

/-- A row that an operation has deleted is gone from then on. -/
theorem gone_of_deleted (hrun : (system config).Run allowed initial P) (ids : Store → List Id)
    {id : Id} (e : Entry Op Answer ApiError)
    (hwrite : ∀ s s' effect, Write s effect s' → ∀ i ∈ ids s', Known (ids s) s.nextId i)
    (hdelete : ∀ c w, Integrity w.store → (exec config.contains c e.op w).1 = e.answer →
      Gone (ids (exec config.contains c e.op w).2.store)
        (exec config.contains c e.op w).2.store.nextId id)
    {c : RunningCall} (hc : c ∈ P.calls) (he : e ∈ c.history) :
    Gone (ids P.store.store) P.store.store.nextId id := by
  have hfacts : ∀ c ∈ P.calls, ∀ e' ∈ c.history, GoneAfter ids id e e' P.store := by
    refine hrun.facts rfl ?_ ?_ ?_
    · rintro P choice op hrun rfl
      exact hdelete choice P.store (integrity_of_run hrun) rfl
    · intro e' choice op w h heq
      have hw := exec_write config.contains choice op w
      exact (h heq).write hw.nextId (hwrite _ _ _ hw)
    · exact fun e' change => change.elim
  exact hfacts c hc e he rfl

theorem gone_filter {α : Type} {f : α → Id} {rows : List α} {next id : Id} {a : α}
    (hdrawn : Table.Drawn (rows.map f) next) (ha : rows.find? (fun a => f a = id) = some a) :
    Gone ((rows.filter fun a => f a ≠ id).map f) next id := by
  have hid : f a = id := by simpa using List.find?_some ha
  refine ⟨?_, ?_⟩
  · rw [← hid]
    exact hdrawn.below (f a) (List.mem_map_of_mem (List.mem_of_find?_eq_some ha))
  · intro hmem
    obtain ⟨b, hb, hbid⟩ := List.mem_map.mp hmem
    exact absurd hbid (by simpa using (List.mem_filter.mp hb).2)

theorem deletedChannel_gone (hrun : (system config).Run allowed initial P) {c : RunningCall}
    (hc : c ∈ P.calls) {id : Id} (hdeleted : ⟨.deleteChannel id, .ok ()⟩ ∈ c.history) :
    Gone (channelIds P.store.store) P.store.store.nextId id := by
  refine gone_of_deleted hrun channelIds ⟨.deleteChannel id, .ok ()⟩
    (fun s s' effect h => h.channel_known) ?_ hc hdeleted
  intro choice w hs hok
  rcases choice.query_cases w.store (deleteChannelRow id w.store) with
    ⟨error, -, heq⟩ | ⟨-, heq⟩ <;>
    simp only [exec, Channels.World.on, heq] at hok ⊢
  · cases hok
  · unfold deleteChannelRow at hok ⊢
    cases hfind : w.store.channel? id with
    | none => simp [hfind] at hok
    | some channel => exact gone_filter hs.channels hfind

theorem deletedTarget_gone (hrun : (system config).Run allowed initial P) {c : RunningCall}
    (hc : c ∈ P.calls) {id : Id} (hdeleted : ⟨.monitor (.delete id), .ok ()⟩ ∈ c.history) :
    Gone (targetIds P.store.store) P.store.store.nextId id := by
  refine gone_of_deleted hrun targetIds ⟨.monitor (.delete id), .ok ()⟩
    (fun s s' effect h => h.target_known) ?_ hc hdeleted
  intro choice w hs hok
  rcases choice.query_cases w.store (Monitors.deleteTarget id w.store) with
    ⟨error, -, heq⟩ | ⟨-, heq⟩ <;>
    simp only [exec, Monitors.exec, Channels.World.on, heq] at hok ⊢
  · cases hok
  · unfold Monitors.deleteTarget at hok ⊢
    cases hfind : w.store.target? id with
    | none => simp [hfind] at hok
    | some target => exact gone_filter hs.targets hfind

/-! ## The theorem -/

/-- A channel that a finished request has deleted: nothing refers to it, and
no answer that a later call gets from the database shows it. -/
structure ChannelGone (P₀ P : ApiPool) (id : Id) : Prop where
  row : ∀ channel ∈ P.store.store.channels, channel.id ≠ id
  tasks : ∀ t ∈ P.store.store.tasks, t.channelId ≠ id
  later : ∀ c ∈ P.since P₀, ∀ e ∈ c.history, id ∉ shown channelsIn e

structure MonitorGone (P₀ P : ApiPool) (id : Id) : Prop where
  row : ∀ target ∈ P.store.store.targets, target.id ≠ id
  messages : ∀ m ∈ P.store.store.messages, m.targetId ≠ id
  later : ∀ c ∈ P.since P₀, ∀ e ∈ c.history, id ∉ shown targetsIn e

theorem channel_gone (hrun₀ : (system config).Run allowed initial P₀)
    (hrun : (system config).Run allowed P₀ P) {c : RunningCall} (hc : c ∈ P₀.calls) {id : Id}
    (hdeleted : ⟨.deleteChannel id, .ok ()⟩ ∈ c.history) : ChannelGone P₀ P id := by
  obtain ⟨hgone, hlater⟩ := gone_later hrun channelIds channelsIn
    (fun s s' effect h => h.channel_known) (fun c op w answer => channelsIn_known)
    (deletedChannel_gone hrun₀ hc hdeleted)
  have hs := integrity_of_run (hrun₀.trans hrun)
  refine ⟨?_, ?_, hlater⟩
  · rintro channel hchannel rfl
    exact hgone.absent (List.mem_map_of_mem hchannel)
  · rintro t ht rfl
    exact hgone.absent (hs.taskChannel t ht)

theorem monitor_gone (hrun₀ : (system config).Run allowed initial P₀)
    (hrun : (system config).Run allowed P₀ P) {c : RunningCall} (hc : c ∈ P₀.calls) {id : Id}
    (hdeleted : ⟨.monitor (.delete id), .ok ()⟩ ∈ c.history) : MonitorGone P₀ P id := by
  obtain ⟨hgone, hlater⟩ := gone_later hrun targetIds targetsIn
    (fun s s' effect h => h.target_known) (fun c op w answer => targetsIn_known)
    (deletedTarget_gone hrun₀ hc hdeleted)
  have hs := integrity_of_run (hrun₀.trans hrun)
  refine ⟨?_, ?_, hlater⟩
  · rintro target htarget rfl
    exact hgone.absent (List.mem_map_of_mem htarget)
  · rintro m hm rfl
    exact hgone.absent (hs.messageTarget m hm)

/-- Whatever calls run beside a removal, and however their steps interleave:
once it has answered, its row and what hangs on it are gone for good, and no
call that starts later is shown the row again. -/
theorem removed_for_good (hrun₀ : (system config).Run allowed initial P₀)
    (hrun : (system config).Run allowed P₀ P) {c : RunningCall} (hc : c ∈ P₀.calls)
    {reply : Reply} (hreturned : c.Returned reply) :
    (∀ id, c.label = .removeChannel id → ChannelGone P₀ P id) ∧
      ∀ id, c.label = .monitor (.remove id) → MonitorGone P₀ P id := by
  have hdeleted := deleted_of_returned hrun₀ hc hreturned
  refine ⟨fun id hlabel => ?_, fun id hlabel => ?_⟩ <;> rw [hlabel] at hdeleted
  · exact channel_gone hrun₀ hrun hc hdeleted
  · exact monitor_gone hrun₀ hrun hc hdeleted

end Runs

/-- The channel is removed. -/
def removalEvents : List ApiEvent :=
  [.spawn (.removeChannel 1), .perform 2 calmChoice, .perform 2 calmChoice]

/-- Another channel is created, and the channels are listed. -/
def laterEvents : List ApiEvent :=
  [.spawn (.channel (.createChannel sampleChannel)), .perform 3 calmChoice,
    .spawn (.channel (.listChannels ⟨none, none⟩)), .perform 4 calmChoice]

/-- The channel that a call has removed. -/
def removedChannel? (c : RunningCall) : Option Id :=
  match c.outcome?, c.label with
  | some (.ok .channelRemoved), .removeChannel id => some id
  | _, _ => none

theorem removedChannel?_eq_some {c : RunningCall} {id : Id} (h : removedChannel? c = some id) :
    c.Returned .channelRemoved ∧ c.label = .removeChannel id := by
  unfold removedChannel? at h
  split at h
  · rename_i houtcome hlabel
    obtain rfl := Option.some.inj h
    exact ⟨houtcome, hlabel⟩
  · cases h

theorem removed_for_good_sample :
    let P₀ := (system sampleConfig).runList samplePool removalEvents
    ChannelGone P₀ ((system sampleConfig).runList P₀ laterEvents) 1 := by
  intro P₀
  have hrun₀ : (system sampleConfig).Run (fun _ _ => True) initial P₀ :=
    samplePool_run.list (by simp [Machine.AllowedList, removalEvents])
  have hrun : (system sampleConfig).Run (fun _ _ => True) P₀
      ((system sampleConfig).runList P₀ laterEvents) :=
    Machine.Run.refl.list (by simp [Machine.AllowedList, laterEvents])
  have hremoved : P₀.calls.filterMap removedChannel? = [1] := by decide +kernel
  obtain ⟨c, hc, hone⟩ := List.mem_filterMap.mp (hremoved ▸ List.mem_singleton_self 1)
  obtain ⟨hreturned, hlabel⟩ := removedChannel?_eq_some hone
  exact (removed_for_good hrun₀ hrun hc hreturned).1 1 hlabel

end SocialMonitor.Backend

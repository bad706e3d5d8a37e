import SocialMonitor.Backend.Integrity

/-!
# What the read endpoints answer

In a state with intact tables a read answers, or says which row is missing.
No relation that a query includes is ever without its row.
-/

namespace SocialMonitor.Backend

open Async

/-- The requests that read the database. -/
def Request.reads : Request → Bool
  | .listMessages _ | .findMessage _ | .listMonitors _ | .findMonitor _ | .checkMonitor _ => true
  | .channel (.listChannels _) | .channel (.getChannel _) | .channel (.listTasks _) => true
  | .channel (.getTask _) | .channel (.findNotifications _) | .overview => true
  | _ => false

def absent {α : Type} (found : Option α) (error : ApiError) : Option ApiError :=
  match found with
  | some _ => none
  | none => some error

/-- The error for the row that the request names and the table has not. -/
def missing? (s : Store) : Request → Option ApiError
  | .findMessage id => absent (s.message? id) (Channels.messageNotFound id)
  | .findMonitor id | .checkMonitor id => absent (s.target? id) (Monitors.notFound id)
  | .channel (.getChannel id) => absent (s.channel? id) (Channels.channelNotFound id)
  | .channel (.getTask id) => absent (s.task? id) (Notifications.taskNotFound id)
  | .channel (.findNotifications id) => absent (s.message? id) (Channels.messageNotFound id)
  | _ => none

def Answered {α : Type} (missing : Option ApiError) (r : Except ApiError α) : Prop :=
  match missing with
  | some error => r = .error error
  | none => ∃ reply, r = .ok reply

section Calmly

variable (contains : String → String → Bool)

/-- An operation of the database that does not fail. -/
def Calmly (op : Op) (w : Channels.World) (r : Except ApiError (Answer op)) (w' : Channels.World) :
    Prop := ∃ c : Channels.Choice, c.fault = none ∧ exec contains c op w = (r, w')

variable {contains} {op : Op} {w w' : Channels.World} {r : Except ApiError (Answer op)}

theorem Calmly.ok (h : Calmly contains op w r w')
    (hexec : ∀ c : Channels.Choice, c.fault = none →
      ∃ answer, exec contains c op w = (.ok answer, w)) : w' = w ∧ ∃ answer, r = .ok answer := by
  obtain ⟨c, hfault, heq⟩ := h
  obtain ⟨answer, hexec⟩ := hexec c hfault
  obtain ⟨rfl, rfl⟩ := Prod.mk.inj (heq.symm.trans hexec)
  exact ⟨rfl, answer, rfl⟩

theorem exec_query {c : Channels.Choice} {answer : Answer op} (hfault : c.fault = none)
    (h : exec contains c op w = w.on (c.query w.store (.ok answer, w.store))) :
    exec contains c op w = (.ok answer, w) := by
  rw [h, c.query_of_fault_none hfault]
  rfl

theorem Calmly.read (h : Calmly contains op w r w') {answer : Answer op}
    (hexec : ∀ c : Channels.Choice,
      exec contains c op w = w.on (c.query w.store (.ok answer, w.store))) :
    w' = w ∧ r = .ok answer := by
  obtain ⟨c, hfault, heq⟩ := h
  obtain ⟨rfl, rfl⟩ := Prod.mk.inj (heq.symm.trans (exec_query hfault (hexec c)))
  exact ⟨rfl, rfl⟩

/-- The run of a request whose operations do not fail. -/
theorem Calmly.run {α : Type} {p : Api α} {choices : ℕ → Channels.Choice}
    (hcalm : ∀ n, (choices n).fault = none) {after : Channels.World → Except ApiError α → Prop}
    (hp : p.Obeys (Calmly contains) (fun _ _ => True) after w) :
    after (p.run (exec contains) choices w).2 (p.run (exec contains) choices w).1 :=
  hp.run fun n _ _ => ⟨choices n, hcalm n, rfl⟩

end Calmly

/-! ## The lists -/

section Lists

variable {Filter Row Record Dto : Type} {source : Listing.Source Filter Row Record} {s : Store}

/-- The two queries of a list endpoint. -/
theorem list_answers {S : Type} (store : S → Store)
    (step : (op : Listing.Op Filter) → S → Except ApiError (Listing.Answer Filter Record op) → S →
      Prop)
    (hstep : ∀ op w r w', step op w r w' → w' = w ∧ ∃ c : Choice, c.fault = none ∧
      r = (Listing.exec source c op (store w)).1)
    {w : S} {filter : Filter} (hrelated : source.Related (store w) filter) (toDto : Record → Dto)
    (page? pageSize? : Option ℕ) : (Listing.list toDto filter page? pageSize?).Obeys step
      (fun _ _ => True) (fun w' r => w' = w ∧ ∃ body, r = .ok body) w := by
  refine ⟨trivial, fun r w₁ h => ?_⟩
  obtain ⟨rfl, c, hfault, rfl⟩ := hstep _ _ _ _ h
  obtain ⟨records, hmapM, -⟩ := Listing.mapM_record fun row hrow =>
    hrelated row (Listing.mem_matching_of_mem_slice hrow)
  simp only [Listing.exec, Choice.query_of_fault_none hfault]
  rw [hmapM]
  refine ⟨trivial, fun r w₂ h => ?_⟩
  obtain ⟨rfl, c', hfault', rfl⟩ := hstep _ _ _ _ h
  simp only [Listing.exec, Choice.query_of_fault_none hfault']
  exact ⟨rfl, _, rfl⟩

end Lists

/-! ## Every read -/

section Reads

variable {config : Config} {w : Channels.World}

/-- What a read leaves behind and answers. -/
def After (w : Channels.World) (missing : Option ApiError) {α : Type} (w' : Channels.World)
    (r : Except ApiError α) : Prop := w' = w ∧ Answered missing r

/-- What a service answers is wrapped. -/
theorem After.reply {α β : Type} {p : Api α} {missing : Option ApiError} {f : α → β}
    (hp : p.Obeys (Calmly config.contains) (fun _ _ => True) (After w missing) w) :
    (p.bind fun a => .ret (f a)).Obeys (Calmly config.contains) (fun _ _ => True)
      (After w missing) w := by
  refine (Program.obeys_bind _ _ _ _ _ _).mpr (hp.mono (fun _ _ h => h) ?_)
  rintro w' r ⟨rfl, hr⟩
  cases missing with
  | none =>
      obtain ⟨a, rfl⟩ := hr
      exact ⟨rfl, _, rfl⟩
  | some error =>
      obtain rfl := hr
      exact ⟨rfl, rfl⟩

theorem After.channel {α β : Type} {p : Channels.Api α} {missing : Option ApiError} {f : α → β}
    (hp : (ofChannels p).Obeys (Calmly config.contains) (fun _ _ => True) (After w missing) w) :
    (ofChannels (p.bind fun a => .ret (f a))).Obeys (Calmly config.contains) (fun _ _ => True)
      (After w missing) w := by
  unfold ofChannels at hp ⊢
  rw [Program.within_bind]
  exact After.reply hp

theorem findMonitor_answers (id : Id) : (MonitorService.findOne id).Obeys (Calmly config.contains)
    (fun _ _ => True) (After w (absent (w.store.target? id) (Monitors.notFound id))) w := by
  refine ⟨trivial, fun r w' h => ?_⟩
  obtain ⟨rfl, rfl⟩ := h.read fun c => rfl
  cases w'.store.target? id with
  | none => exact ⟨rfl, rfl⟩
  | some t => exact ⟨rfl, _, rfl⟩

theorem checkMonitor_answers (id : Id) : (ofMonitors (Monitors.check id)).Obeys
    (Calmly config.contains) (fun _ _ => True)
    (After w (absent (w.store.target? id) (Monitors.notFound id))) w := by
  refine ⟨trivial, fun r w' h => ?_⟩
  obtain ⟨rfl, rfl⟩ := h.read fun c => rfl
  cases w'.store.target? id with
  | none => exact ⟨rfl, rfl⟩
  | some t => exact ⟨rfl, _, rfl⟩

theorem withTarget?_found {s : Store} (hs : Integrity s) {m : Message} (hm : m ∈ s.messages) :
    ∃ target, Messages.withTarget? s m = some ⟨m, target⟩ := by
  obtain ⟨target, htarget⟩ := Option.isSome_iff_exists.mp (hs.intact.messageTarget m hm)
  exact ⟨target, by rw [Messages.withTarget?, htarget]; rfl⟩

theorem findMessage_answers (hs : Integrity w.store) (id : Id) :
    (MessageService.findOne id).Obeys (Calmly config.contains) (fun _ _ => True)
      (After w (absent (w.store.message? id) (Channels.messageNotFound id))) w := by
  refine ⟨trivial, fun r w' h => ?_⟩
  obtain ⟨rfl, rfl⟩ := h.read fun c => rfl
  cases hfind : w'.store.message? id with
  | none => exact ⟨rfl, rfl⟩
  | some m =>
      obtain ⟨target, hrecord⟩ := withTarget?_found hs (List.mem_of_find?_eq_some hfind)
      rw [Option.bind_some, hrecord]
      exact ⟨rfl, _, rfl⟩

theorem getChannel_answers (id : Id) : (ofChannels (Channels.getChannel id)).Obeys
    (Calmly config.contains) (fun _ _ => True)
    (After w (absent (w.store.channel? id) (Channels.channelNotFound id))) w := by
  refine ⟨trivial, fun r w' h => ?_⟩
  obtain ⟨rfl, rfl⟩ := h.read fun c => rfl
  cases w'.store.channel? id with
  | none => exact ⟨rfl, rfl⟩
  | some c => exact ⟨rfl, _, rfl⟩

theorem relations?_isSome {s : Store} (hs : Integrity s) {t : NotificationTask}
    (ht : t ∈ s.tasks) : (Notifications.relations? s t).isSome := by
  obtain ⟨message, hmessage⟩ := Option.isSome_iff_exists.mp (hs.intact.taskMessage t ht)
  obtain ⟨channel, hchannel⟩ := Option.isSome_iff_exists.mp (hs.intact.taskChannel t ht)
  obtain ⟨target, htarget⟩ := Option.isSome_iff_exists.mp
    (hs.intact.messageTarget message (List.mem_of_find?_eq_some hmessage))
  simp [Notifications.relations?, hmessage, hchannel, htarget]

/-- An operation of a list endpoint only reads. -/
theorem listing_read {Filter Row Record : Type} (source : Listing.Source Filter Row Record)
    (op : Listing.Op Filter) {c : Choice} (hfault : c.fault = none) :
    (w.on (Listing.exec source c op w.store)).2 = w := by
  cases op <;> simp only [Listing.exec, Choice.query_of_fault_none hfault] <;> rfl

/-- A list endpoint in the API. -/
theorem page_answers {Filter Row Record Dto : Type} {source : Listing.Source Filter Row Record}
    {inj : Listing.Op Filter → Op}
    {out : (op : Listing.Op Filter) → Answer (inj op) → Listing.Answer Filter Record op}
    (hexec : ∀ c op w, (exec config.contains c (inj op) w).2 =
        (w.on (Listing.exec source c.toChoice op w.store)).2 ∧
      (exec config.contains c (inj op) w).1.map (out op) =
        (Listing.exec source c.toChoice op w.store).1)
    {filter : Filter} (hrelated : source.Related w.store filter) (toDto : Record → Dto)
    (page? pageSize? : Option ℕ) :
    ((Listing.list toDto filter page? pageSize?).within inj out).Obeys (Calmly config.contains)
      (fun _ _ => True) (After w none) w := by
  have hlist := list_answers Channels.World.store
    (fun op w r w' => ∃ r', Calmly config.contains (inj op) w r' w' ∧ r = r'.map (out op))
    ?_ hrelated toDto page? pageSize?
  · refine Program.Obeys.within id hlist ?_ (fun _ _ h => h) fun _ _ h => h
    exact fun op w r w' h => ⟨r, h, rfl⟩
  · rintro op w r w' ⟨_, ⟨c, hfault, heq⟩, rfl⟩
    obtain ⟨hworld, hanswer⟩ := hexec c op w
    rw [heq] at hworld hanswer
    exact ⟨hworld.trans (listing_read source op hfault), c.toChoice, hfault, hanswer⟩

theorem listMessages_answers (hs : Integrity w.store) (query : Messages.MessageQueryDto) :
    (MessageService.list query).Obeys (Calmly config.contains) (fun _ _ => True) (After w none)
      w := by
  apply page_answers fun c op w => ⟨rfl, Program.map_answer _⟩
  exact messages_related config.contains hs.intact query.filter

theorem listMonitors_answers (query : Monitors.MonitorQueryDto) :
    (MonitorService.list query).Obeys (Calmly config.contains) (fun _ _ => True) (After w none)
      w := by
  apply page_answers fun c op w => ⟨rfl, Program.map_answer _⟩
  exact fun t _ => rfl

theorem listTasks_answers (hs : Integrity w.store) (query : Notifications.TaskQueryDto) :
    (ofChannels (Channels.listTasks query)).Obeys (Calmly config.contains) (fun _ _ => True)
      (After w none) w := by
  have hrelated : Notifications.taskSource.Related w.store query.filter :=
    fun t ht => relations?_isSome hs (List.mem_filter.mp ht).1
  refine ⟨trivial, fun r w' h => ?_⟩
  obtain ⟨rfl, records, rfl⟩ := h.ok fun c hfault => by
    obtain ⟨records, hmapM, -⟩ := Listing.mapM_record fun row hrow =>
      hrelated row (Listing.mem_matching_of_mem_slice hrow)
    refine ⟨records, ?_⟩
    simp only [exec, Channels.exec, Listing.exec, Choice.query_of_fault_none hfault]
    rw [hmapM]
    rfl
  refine ⟨trivial, fun r w'' h => ?_⟩
  obtain ⟨rfl, rfl⟩ := h.read fun c => rfl
  exact ⟨rfl, _, rfl⟩

theorem getTask_answers (hs : Integrity w.store) (id : Id) :
    (ofChannels (Channels.getTask id)).Obeys (Calmly config.contains) (fun _ _ => True)
      (After w (absent (w.store.task? id) (Notifications.taskNotFound id))) w := by
  refine ⟨trivial, fun r w' h => ?_⟩
  obtain ⟨rfl, rfl⟩ := h.read fun c => rfl
  rw [taskWithRelations?_eq]
  cases hfind : w'.store.task? id with
  | none => exact ⟨rfl, rfl⟩
  | some t =>
      obtain ⟨found, hfound⟩ := Option.isSome_iff_exists.mp
        (relations?_isSome hs (List.mem_of_find?_eq_some hfind))
      rw [Option.bind_some, hfound]
      exact ⟨rfl, _, rfl⟩

theorem mapM_taskWithChannel {s : Store} {rows : List NotificationTask}
    (h : ∀ t ∈ rows, (s.channel? t.channelId).isSome) :
    ∃ tasks, rows.mapM (Channels.taskWithChannel s) = .ok tasks := by
  induction rows with
  | nil => exact ⟨[], rfl⟩
  | cons t rows ih =>
      obtain ⟨ht, hrows⟩ := List.forall_mem_cons.mp h
      obtain ⟨channel, hchannel⟩ := Option.isSome_iff_exists.mp ht
      obtain ⟨tasks, htasks⟩ := ih hrows
      have hok : Channels.taskWithChannel s t = .ok ⟨t, channel⟩ := by
        rw [Channels.taskWithChannel, hchannel]
      exact ⟨⟨t, channel⟩ :: tasks, by rw [List.mapM_cons, hok, htasks]; rfl⟩

theorem notificationsOf_ok {s : Store} (hs : Integrity s) (messageId : Id) (pick : ℕ) :
    ∃ tasks, Channels.notificationsOf s messageId pick = .ok tasks := by
  apply mapM_taskWithChannel
  intro t ht
  have hmem := (Paging.ordered_ordering pick _).perm.subset ht
  exact hs.intact.taskChannel t (List.mem_filter.mp hmem).1

theorem findNotifications_answers (hs : Integrity w.store) (id : Id) :
    (ofChannels (Channels.findNotifications id)).Obeys (Calmly config.contains)
      (fun _ _ => True)
      (After w (absent (w.store.message? id) (Channels.messageNotFound id))) w := by
  refine ⟨trivial, fun r w' h => ?_⟩
  obtain ⟨rfl, rfl⟩ := h.read fun c => rfl
  cases hfind : w'.store.message? id with
  | none => exact ⟨rfl, rfl⟩
  | some m =>
      obtain ⟨target, hrecord⟩ := withTarget?_found hs (List.mem_of_find?_eq_some hfind)
      rw [Option.bind_some, hrecord]
      refine ⟨trivial, fun r w'' h => ?_⟩
      obtain ⟨rfl, tasks, rfl⟩ := h.ok fun c hfault => by
        obtain ⟨tasks, htasks⟩ := notificationsOf_ok hs id c.pick
        refine ⟨tasks, ?_⟩
        simp only [exec, Channels.exec, htasks, c.query_of_fault_none hfault]
        rfl
      exact ⟨rfl, _, rfl⟩

theorem listChannels_answers (query : Channels.ChannelQueryDto) :
    (ofChannels (Channels.listChannels query)).Obeys (Calmly config.contains) (fun _ _ => True)
      (After w none) w := by
  refine ⟨trivial, fun r w' h => ?_⟩
  obtain ⟨rfl, channels, rfl⟩ := h.ok fun c hfault => ⟨_, exec_query hfault rfl⟩
  exact ⟨rfl, _, rfl⟩

theorem overview_answers (startOfDay : Time → Time) :
    (DashboardService.overview startOfDay).Obeys (Calmly config.contains) (fun _ _ => True)
      (After w none) w := by
  refine ⟨trivial, fun r w₁ h => ?_⟩
  obtain ⟨rfl, now, rfl⟩ := h.ok fun c _ => ⟨c.now, rfl⟩
  refine ⟨trivial, fun r w₂ h => ?_⟩
  obtain ⟨rfl, rfl⟩ := h.read fun c => rfl
  refine ⟨trivial, fun r w₃ h => ?_⟩
  obtain ⟨rfl, rfl⟩ := h.read fun c => rfl
  refine ⟨trivial, fun r w₄ h => ?_⟩
  obtain ⟨rfl, rfl⟩ := h.read fun c => rfl
  refine ⟨trivial, fun r w₅ h => ?_⟩
  obtain ⟨rfl, rfl⟩ := h.read fun c => rfl
  refine ⟨trivial, fun r w₆ h => ?_⟩
  obtain ⟨rfl, rfl⟩ := h.read fun c => rfl
  refine ⟨trivial, fun r w₇ h => ?_⟩
  obtain ⟨rfl, rfl⟩ := h.read fun c => rfl
  exact ⟨rfl, _, rfl⟩

theorem program_answers (hs : Integrity w.store) {request : Request}
    (hreads : request.reads = true) : (program config request).Obeys (Calmly config.contains)
      (fun _ _ => True) (After w (missing? w.store request)) w := by
  cases request with
  | ingest secret payload => cases hreads
  | monitor request => cases hreads
  | removeChannel id => cases hreads
  | listMessages query => exact After.reply (listMessages_answers hs query)
  | findMessage id => exact After.reply (findMessage_answers hs id)
  | listMonitors query => exact After.reply (listMonitors_answers query)
  | findMonitor id => exact After.reply (findMonitor_answers id)
  | checkMonitor id => exact After.reply (checkMonitor_answers id)
  | overview => exact After.reply (overview_answers config.startOfDay)
  | channel request =>
      refine After.reply ?_
      cases request with
      | listChannels query => exact After.channel (listChannels_answers query)
      | getChannel id => exact After.channel (getChannel_answers id)
      | listTasks query => exact After.channel (listTasks_answers hs query)
      | getTask id => exact After.channel (getTask_answers hs id)
      | findNotifications id => exact After.channel (findNotifications_answers hs id)
      | createChannel dto => cases hreads
      | updateChannel id dto => cases hreads
      | testChannel id => cases hreads
      | processTask taskId => cases hreads
      | dispatch taskId => cases hreads

end Reads

/-! ## The theorem -/

/-- In every state that calls of the API reach, keys tell the rows apart and every
row refers to rows that exist, and a read of the database that does not fail
changes nothing and answers, or names the row that does not exist. -/
theorem reads_answer {config : Config} {allowed : ApiPool → ApiEvent → Prop} {P : ApiPool}
    (hrun : (system config).Run allowed initial P) :
    Integrity P.store.store ∧ ∀ request : Request, request.reads = true →
      ∀ choices : ℕ → Channels.Choice, (∀ n, (choices n).fault = none) →
        ((program config request).run (exec config.contains) choices P.store).2 = P.store ∧
        Answered (missing? P.store.store request)
          ((program config request).run (exec config.contains) choices P.store).1 := by
  have hs := integrity_of_run hrun
  refine ⟨hs, fun request hreads choices hcalm => ?_⟩
  exact Calmly.run hcalm (program_answers hs hreads)

/-- The created monitor is found, and there is none after it. -/
theorem reads_answer_sample :
    Answered none ((program sampleConfig (.findMonitor 0)).run (exec sampleConfig.contains)
      (fun _ => calmChoice) samplePool.store).1 ∧
    Answered (some (Monitors.notFound 7)) ((program sampleConfig (.findMonitor 7)).run
      (exec sampleConfig.contains) (fun _ => calmChoice) samplePool.store).1 := by
  have hfound : (samplePool.store.store.target? 0).isSome = true := by decide +kernel
  have hnone : (samplePool.store.store.target? 7).isNone = true := by decide +kernel
  have hreads := (reads_answer samplePool_run).2
  constructor
  · obtain ⟨t, ht⟩ := Option.isSome_iff_exists.mp hfound
    have hanswer := hreads (.findMonitor 0) rfl (fun _ => calmChoice) fun _ => rfl
    rw [missing?, ht, absent] at hanswer
    exact hanswer.2
  · have hanswer := hreads (.findMonitor 7) rfl (fun _ => calmChoice) fun _ => rfl
    rw [missing?, Option.isNone_iff_eq_none.mp hnone, absent] at hanswer
    exact hanswer.2

end SocialMonitor.Backend

import SocialMonitor.Backend.Drain
import SocialMonitor.Backend.Lifecycle

/-!
# From a post to its notifications

What an accepted post leads to once the workers have emptied the queues: every
channel that was enabled when the post was routed has been notified, or its task
has failed in the last of its runs.
-/

namespace SocialMonitor.Backend

open Async

/-! ## One call -/

/-- The enabled channels have been read, and the tasks of the message for them
have been written. -/
def Routed (id : Id) (h : Messages.History) : Prop :=
  ∃ channels, ⟨.findEnabledNotificationChannels, .ok channels⟩ ∈ h ∧
    (channels = [] ∨ ∃ created, ⟨.createNotificationTasks id
      (channels.map NotificationChannel.id), .ok created⟩ ∈ h)

theorem Routed.subset {id : Id} {h h' : Messages.History} (hr : Routed id h) (hsub : h ⊆ h') :
    Routed id h' := by
  obtain ⟨channels, hfound, htasks⟩ := hr
  exact ⟨channels, hsub hfound, htasks.imp_right fun ⟨created, hmem⟩ => ⟨created, hsub hmem⟩⟩

section Ingest

variable {h : Messages.History}

/-- Nothing is asked of the operations or of their answers. -/
abbrev Leaves {α : Type} (p : Messages.Api α)
    (after : Messages.History → Except ApiError α → Prop) (h : Messages.History) : Prop :=
  p.Conforms (fun _ _ => True) (fun _ _ => True) after h

theorem leaves_any {α : Type} (p : Messages.Api α) (h : Messages.History) :
    Leaves p (fun _ _ => True) h := p.obeys_trivial h

theorem routeToEnabledChannels_routes (id : Id) (h : Messages.History) :
    Leaves (Messages.routeToEnabledChannels id) (fun h' r => ∀ a, r = .ok a → Routed id h') h := by
  simp only [Messages.routeToEnabledChannels, Program.bind_def, Program.await, Program.obeys_bind,
    Program.conforms_call, Program.ofExcept_error, Program.ofExcept_ok, Program.obeys_ret,
    Program.obeys_raise, Program.Andthen]
  refine ⟨trivial, fun error _ => by simp, fun channels _ => ?_⟩
  split_ifs with hnone
  · exact fun _ _ => ⟨channels, List.mem_cons_self, Or.inl hnone⟩
  simp only [Program.obeys_bind, Program.conforms_call, Program.ofExcept_error,
    Program.ofExcept_ok, Program.obeys_ret, Program.obeys_raise, Program.Andthen]
  refine ⟨trivial, fun error _ => by simp, fun created _ => ?_⟩
  have hrouted : Routed id (⟨.createNotificationTasks id (channels.map NotificationChannel.id),
      .ok created⟩ :: ⟨.findEnabledNotificationChannels, .ok channels⟩ :: h) :=
    ⟨channels, by simp, Or.inr ⟨created, List.mem_cons_self⟩⟩
  refine (Program.obeys_of_stable _ ?_ hrouted).mono (fun _ _ h => h) fun h' _ hr _ _ => hr
  rintro op h r h' ⟨-, rfl⟩ hr
  exact hr.subset (List.subset_cons_self _ _)

theorem create_routes (input : Messages.NormalizedMessage) (h : Messages.History) :
    Leaves (Messages.create input) (fun h' r => ∀ dto, r = .ok dto → Routed dto.id h') h := by
  have hfinish : ∀ (m : Messages.MessageWithTarget) (h : Messages.History),
      Leaves ((Messages.routeToEnabledChannels m.message.id).bind fun _ => .ret (Messages.toDto m))
        (fun h' r => ∀ dto, r = .ok dto → Routed dto.id h') h := by
    intro m h
    refine Program.Obeys.bind (fun h' _ => Routed m.message.id h') ?_ ?_
    · refine (routeToEnabledChannels_routes m.message.id h).mono (fun _ _ h => h) ?_
      rintro h' (e | a) hr
      · exact fun dto hdto => by cases hdto
      · exact hr a rfl
    · rintro h' - hr dto hdto
      obtain rfl := Except.ok.inj hdto
      exact hr
  refine Program.Obeys.bind (fun _ _ => True) ?_ fun h target _ => ?_
  · refine (leaves_any _ h).mono (fun _ _ h => h) ?_
    rintro h' (e | target) -
    · exact fun dto hdto => by cases hdto
    · exact trivial
  refine Program.Obeys.bind (fun _ _ => True) ?_ ?_
  · refine (leaves_any _ h).mono (fun _ _ h => h) ?_
    rintro h' (e | found) -
    · exact fun dto hdto => by cases hdto
    · exact trivial
  rintro h ⟨m, isNew⟩ -
  cases isNew with
  | false => exact hfinish m h
  | true =>
      refine ⟨trivial, ?_⟩
      rintro (e | _) h -
      · exact fun dto hdto => by cases hdto
      · refine ⟨trivial, ?_⟩
        rintro (e | _) h -
        · exact fun dto hdto => by cases hdto
        · exact hfinish m h

variable {expected : String} {secret : Option String} {payload : Telegram.IngestTelegramMessageDto}

theorem ingest_leads : Leaves (Telegram.ingest expected secret payload)
    (fun h r => ∀ answer id, r = .ok answer → answer.messageId = some id → Routed id h) [] := by
  have hnone : ∀ (h : Messages.History) reason answer id,
      (Except.ok ⟨false, none, some reason⟩ : Except ApiError Telegram.IngestAnswer) = .ok answer →
        answer.messageId = some id → Routed id h := by
    rintro h reason answer id hanswer hid
    obtain rfl := Except.ok.inj hanswer
    cases hid
  unfold Telegram.ingest
  split_ifs
  · exact fun answer id hanswer => by cases hanswer
  simp only [Program.bind_def, Program.await, Program.obeys_bind, Program.conforms_call,
    Program.ofExcept_error, Program.ofExcept_ok, Program.obeys_ret, Program.obeys_raise,
    Program.Andthen]
  refine ⟨trivial, by simp, ?_⟩
  rintro (_ | target) -
  · exact hnone _ _
  · simp only [Program.tryCatch_def, Program.obeys_handle, Program.obeys_bind]
    refine (create_routes _ _).mono (fun _ _ h => h) ?_
    rintro h (error | saved) hrouted
    · exact hnone _ _
    · rintro answer id hanswer hid
      obtain rfl := Except.ok.inj hanswer
      obtain rfl := Option.some.inj hid
      exact hrouted saved rfl

theorem ingest_settles : (Telegram.ingest expected secret payload).Conforms Messages.Possible
    Messages.Protocol (fun h _ => Messages.Settled h) [] := by
  have hunrouted : Messages.Unrouted [] := by simp [Messages.Unrouted]
  unfold Telegram.ingest
  split_ifs
  · exact hunrouted.settled
  simp only [Program.bind_def, Program.await, Program.obeys_bind, Program.conforms_call,
    Program.ofExcept_error, Program.ofExcept_ok, Program.obeys_ret, Program.obeys_raise,
    Program.Andthen]
  refine ⟨trivial, fun error _ => (hunrouted.cons rfl).settled, ?_⟩
  rintro (_ | target) -
  · exact (hunrouted.cons rfl).settled
  · simp only [Program.tryCatch_def, Program.obeys_handle, Program.obeys_bind]
    refine (Messages.create_conforms_from (hunrouted.cons rfl) rfl _).mono (fun _ _ h => h) ?_
    rintro h (error | saved) hdone
    · exact hdone.settled
    · exact hdone.settled

end Ingest

/-! ## Every call -/

/-- An operation that is not one of the message service. -/
def Op.Apart : Op → Prop
  | .message _ => False
  | _ => True

theorem awaits_any {Op : Type} {Ans : Op → Type} {α : Type} (p : Program Op Ans ApiError α) :
    p.Awaits fun _ => True := by
  induction p with
  | ret a => exact trivial
  | raise e => exact trivial
  | call op next ih => exact ⟨trivial, ih⟩

/-- An operation of the requests that neither ingest nor manage channels.  A channel
is looked up before it is removed. -/
def Op.Manages : Op → Prop
  | .message _ => False
  | .channel (.findChannelById _) => True
  | .channel .now => True
  | .channel _ => False
  | _ => True

theorem program_manages (config : Config) {request : Request}
    (hingest : ∀ secret payload, request ≠ .ingest secret payload)
    (hchannel : ∀ request', request ≠ .channel request') :
    (program config request).Awaits Op.Manages := by
  have hwithin : ∀ {Op' : Type} {Ans' : Op' → Type} {α : Type} {inj : Op' → Op}
      {out : (op : Op') → Answer (inj op) → Ans' op} (p : Program Op' Ans' ApiError α),
      (∀ op, (inj op).Manages) → (p.within inj out).Awaits Op.Manages :=
    fun p hinj => (awaits_any p).within fun op _ => hinj op
  cases request with
  | ingest secret payload => exact absurd rfl (hingest secret payload)
  | channel request => exact absurd rfl (hchannel request)
  | listMessages query => exact .bind (hwithin _ fun _ => trivial) fun _ => trivial
  | findMessage id =>
      refine .bind (.bind (Program.awaits_await trivial) fun message? => ?_) fun _ => trivial
      cases message? <;> exact trivial
  | monitor request => exact .bind (hwithin _ fun _ => trivial) fun _ => trivial
  | listMonitors query => exact .bind (hwithin _ fun _ => trivial) fun _ => trivial
  | findMonitor id =>
      refine .bind (.bind (Program.awaits_await trivial) fun monitor? => ?_) fun _ => trivial
      cases monitor? <;> exact trivial
  | checkMonitor id => exact .bind (hwithin _ fun _ => trivial) fun _ => trivial
  | removeChannel id =>
      have hlookup : (Channels.ensureChannelExists id).Awaits
          fun op => (Op.channel op).Manages := by
        refine Program.Awaits.bind (Program.awaits_await trivial) fun channel? => ?_
        cases channel? <;> exact trivial
      refine .bind (.bind (hlookup.within fun op hop => hop) fun _ => ?_) fun _ => trivial
      exact .bind (Program.awaits_await trivial) fun _ => trivial
  | overview =>
      refine Program.Awaits.bind ?_ fun _ => trivial
      refine Program.Awaits.bind (Program.awaits_await trivial) fun now => ?_
      refine Program.Awaits.bind (Program.awaits_await trivial) fun todayMessages => ?_
      refine Program.Awaits.bind (Program.awaits_await trivial) fun xMessages => ?_
      refine Program.Awaits.bind (Program.awaits_await trivial) fun telegramMessages => ?_
      refine Program.Awaits.bind (Program.awaits_await trivial) fun monitors => ?_
      refine Program.Awaits.bind (Program.awaits_await trivial) fun notificationSent => ?_
      exact Program.Awaits.bind (Program.awaits_await trivial) fun _ => trivial

/-- Only ingestion calls the message service. -/
theorem program_apart (config : Config) {request : Request}
    (h : ∀ secret payload, request ≠ .ingest secret payload) :
    (program config request).Awaits Op.Apart := by
  by_cases hchannel : ∃ request', request = .channel request'
  · obtain ⟨request', rfl⟩ := hchannel
    exact .bind ((awaits_any _).within fun _ _ => trivial) fun _ => trivial
  · refine (program_manages config h (not_exists.mp hchannel)).mono fun op hop => ?_
    cases op with
    | message op => exact hop
    | _ => exact trivial

/-- How a call ends: its tasks have jobs, unless the queue has refused one, and a
post that it has accepted is routed. -/
structure Handed (request : Request) (h : History) (r : Except ApiError Reply) : Prop where
  settled : Messages.Settled (h.filterMap ownEntry)
  routed : ∀ secret payload answer id, request = .ingest secret payload →
    r = .ok (.ingested answer) → answer.messageId = some id → Routed id (h.filterMap ownEntry)

theorem program_hands (config : Config) (request : Request) :
    (program config request).Conforms PossibleAnswer (fun _ _ => True) (Handed request) [] := by
  by_cases hingest : ∃ secret payload, request = .ingest secret payload
  · obtain ⟨secret, payload, rfl⟩ := hingest
    have hends : (Telegram.ingest config.secret secret payload).Conforms Messages.Possible
        Messages.Protocol (fun h r => Messages.Settled h ∧ ∀ answer id, r = .ok answer →
          answer.messageId = some id → Routed id h) [] :=
      ingest_settles.and ingest_leads fun op h r h' hstep => ⟨trivial, hstep.2⟩
    have hwithin : (ofMessages (Telegram.ingest config.secret secret payload)).Conforms
        PossibleAnswer (fun _ _ => True) (fun h r => Messages.Settled (h.filterMap ownEntry) ∧
          ∀ answer id, r = .ok answer → answer.messageId = some id →
            Routed id (h.filterMap ownEntry)) [] := by
      refine Program.Conforms.within ownEntry (fun op r => ?_) hends ?_ (fun _ _ _ => trivial)
        fun _ _ h => h
      · rw [Program.map_answer]
        rfl
      · intro op r hpossible
        rw [Program.map_answer]
        exact hpossible
    refine (Program.obeys_bind _ _ _ _ _ _).mpr (hwithin.mono (fun _ _ h => h) ?_)
    rintro h (e | answer) ⟨hsettled, hrouted⟩
    · exact ⟨hsettled, fun _ _ answer id _ hanswer => by cases hanswer⟩
    · refine ⟨hsettled, fun _ _ answer' id _ hanswer hid => ?_⟩
      obtain rfl := Reply.ingested.inj (Except.ok.inj hanswer)
      exact hrouted answer id rfl hid
  · have hapart := program_apart config fun secret payload heq => hingest ⟨secret, payload, heq⟩
    have hsilent : (program config request).Conforms PossibleAnswer (fun _ _ => True)
        (fun h _ => h.filterMap ownEntry = []) [] := by
      refine hapart.stable ?_ rfl
      rintro op h r h' hop ⟨-, rfl⟩ hnil
      cases op with
      | message op => exact hop.elim
      | _ => exact hnil
    refine hsilent.mono (fun _ _ h => h) fun h r hnil => ⟨?_, fun secret payload _ _ heq => ?_⟩
    · rw [hnil]
      exact Messages.Unrouted.settled fun e he => absurd he List.not_mem_nil
    · exact absurd ⟨secret, payload, heq⟩ hingest

/-! ## The pairs of a message and a channel -/

/-- The pairs for which a call has written the tasks. -/
def routedKeys : Entry Op Answer ApiError → List (Id × Id)
  | ⟨.message (.createNotificationTasks messageId channelIds), .ok _⟩ =>
      channelIds.map fun channelId => (messageId, channelId)
  | _ => []

section Rows

variable {contains : String → String → Bool} {s : Store}

theorem insertTasks_tasks (messageId : Id) (createdAt : Time) (channelIds : List Id) (s : Store) :
    s.tasks ⊆ (Messages.insertTasks messageId createdAt channelIds s).2.tasks := by
  obtain ⟨rows, heq, -⟩ := Messages.insertTasks_spec messageId createdAt channelIds s
  rw [heq]
  exact List.subset_append_left _ _

theorem insertTasks_covers (messageId : Id) (createdAt : Time) (channelIds : List Id) (s : Store) :
    ∀ channelId ∈ channelIds,
      ∃ t ∈ (Messages.insertTasks messageId createdAt channelIds s).2.tasks,
        taskKey t = (messageId, channelId) := by
  induction channelIds generalizing s with
  | nil => exact fun channelId h => absurd h List.not_mem_nil
  | cons first rest ih =>
      rintro channelId (_ | ⟨_, hmem⟩)
      · cases hhas : Messages.hasTask s messageId first with
        | true =>
            have hrow : ∃ t ∈ s.tasks, taskKey t = (messageId, first) := by
              by_contra hnone
              have hfree := hasTask_eq_false.mpr fun t ht hkey => hnone ⟨t, ht, hkey⟩
              rw [hhas] at hfree
              cases hfree
            obtain ⟨t, ht, hkey⟩ := hrow
            exact ⟨t, insertTasks_tasks _ _ _ _ ht, hkey⟩
        | false =>
            simp only [Messages.insertTasks, hhas, Bool.false_eq_true, if_false]
            exact ⟨_, insertTasks_tasks _ _ _ _ (List.mem_append_right _ List.mem_cons_self), rfl⟩
      · unfold Messages.insertTasks
        split_ifs
        · exact ih s channelId hmem
        · exact ih _ channelId hmem

theorem routedKeys_new (c : Channels.Choice) (op : Op) (w : Channels.World) :
    ∀ key ∈ routedKeys ⟨op, (exec contains c op w).1⟩,
      ∃ t ∈ (exec contains c op w).2.store.tasks, taskKey t = key := by
  cases op with
  | message op =>
      cases op with
      | createNotificationTasks messageId channelIds =>
          simp only [exec, Messages.exec, Channels.World.on]
          rcases c.query_cases w.store (Messages.createNotificationTasks messageId channelIds c.now
            w.store) with ⟨error, -, heq⟩ | ⟨-, heq⟩ <;> rw [heq]
          · exact fun key hkey => absurd hkey List.not_mem_nil
          · unfold Messages.createNotificationTasks
            dsimp only
            split_ifs
            · intro key hkey
              obtain ⟨channelId, hmem, rfl⟩ := List.mem_map.mp hkey
              exact insertTasks_covers messageId c.now channelIds w.store channelId hmem
            · exact fun key hkey => absurd hkey List.not_mem_nil
      | _ => exact fun key hkey => absurd hkey List.not_mem_nil
  | _ => exact fun key hkey => absurd hkey List.not_mem_nil

/-- A task that an entry has opened was inserted by it. -/
theorem opened_inserted {e : Entry Op Answer ApiError} {p : Id × Id × Id} (hp : p ∈ opened e) :
    ∃ q ∈ ofOwn Messages.insertedTasks e, q.1 = p.2.1 ∧ q.2.id = p.1 := by
  obtain ⟨op, r⟩ := e
  cases op with
  | message op =>
      cases op with
      | createNotificationTasks messageId channelIds =>
          cases r with
          | error e => cases hp
          | ok created =>
              obtain ⟨t, ht, rfl⟩ := List.mem_map.mp hp
              refine ⟨(messageId, t), ?_, rfl, rfl⟩
              have hmem : (messageId, t) ∈ created.map fun t => (messageId, t) :=
                List.mem_map_of_mem ht
              simpa [ofOwn, ownEntry, Messages.insertedTasks] using hmem
      | enqueueTask taskId type => cases r <;> cases hp
      | _ => cases hp
  | channel op =>
      cases op with
      | task op => cases op <;> cases r <;> cases hp
      | _ => cases hp
  | monitor op => cases op <;> cases hp
  | _ => cases hp

theorem accepted_enqueued {e : Entry Op Answer ApiError} {id : Id}
    (hid : id ∈ ofOwn Messages.acceptedIds e) : ∃ job ∈ enqueued e, job.taskId = id := by
  obtain ⟨op, r⟩ := e
  cases op with
  | message op =>
      cases op with
      | enqueueTask taskId type =>
          cases r with
          | error e => cases hid
          | ok _ =>
              obtain rfl : id = taskId := by simpa [ofOwn, ownEntry, Messages.acceptedIds] using hid
              exact ⟨_, List.mem_singleton_self _, rfl⟩
      | _ => cases hid
  | _ => cases hid

end Rows

/-- The queue has refused the job of a task that a call has created for the message. -/
def Refused (P : ApiPool) (messageId : Id) : Prop :=
  ∃ c ∈ P.calls, ∃ q ∈ c.history.flatMap (ofOwn Messages.insertedTasks), q.1 = messageId ∧
    q.2.id ∈ c.history.flatMap (ofOwn Messages.rejectedIds)

section Runs

variable {config : Config} {allowed : ApiPool → ApiEvent → Prop} {P Q : ApiPool}

theorem handed_of_run (hrun : (system config).Run allowed initial P) {c : RunningCall}
    (hc : c ∈ P.calls) {r : Except ApiError Reply} (hr : c.outcome? = some r) :
    Handed c.label c.history r := by
  have hconforms := (hrun.conforms rfl (fun _ _ _ => True) (program_hands config)
    (fun P _ choice _ op _ _ _ _ => exec_possible choice op P.store) c hc).2
  rw [Call.outcome?_eq_some.mp hr] at hconforms
  exact hconforms.ended

/-- The tasks for which the rows were there when the call had written them. -/
theorem opened_of_routed (hrun : (system config).Run allowed initial P) :
    ∀ key ∈ P.collect routedKeys, key ∈ (P.collect opened).map Prod.snd := by
  refine hrun.invariant (fun P => ∀ key ∈ P.collect routedKeys,
    key ∈ (P.collect opened).map Prod.snd) ?_ ?_ ?_ fun P change => change.elim
  · exact fun key hkey => absurd hkey List.not_mem_nil
  · intro P request _ ih _
    rw [System.collect_spawn, System.collect_spawn]
    exact ih
  · intro P index choice call op next hrun ih hallowed hget hrest key hkey
    have hnext : (system config).Run allowed initial
        ((system config).resumed P index choice call op next) := by
      have hstep := hrun.step hallowed
      simpa only [System.step, hget, hrest] using hstep
    rcases List.mem_append.mp (((system config).collect_resumed routedKeys hget).mem_iff.mp hkey)
      with hnew | hold
    · obtain ⟨t, ht, rfl⟩ := routedKeys_new choice op P.store key hnew
      exact List.mem_map_of_mem (f := Prod.snd) ((books_of_run hnext).1.rows t ht)
    · obtain ⟨p, hp, rfl⟩ := List.mem_map.mp (ih key hold)
      refine List.mem_map_of_mem (f := Prod.snd) ?_
      exact ((system config).collect_resumed opened hget).mem_iff.mpr (List.mem_append_right _ hp)

/-- When no call is running, every task has a job, unless the queue has refused
one of its message. -/
theorem job_or_refused (hrun : (system config).Run allowed initial P) (hquiet : P.Quiescent)
    {t : NotificationTask} (ht : t ∈ P.store.store.tasks) :
    (∃ job ∈ P.store.store.jobs, job.taskId = t.id) ∨ Refused P t.messageId := by
  obtain ⟨c, hc, e, he, hopened⟩ := Pool.mem_collect.mp ((books_of_run hrun).1.rows t ht)
  obtain ⟨q, hq, hmessage, hid⟩ := opened_inserted hopened
  have hmem : q ∈ c.history.flatMap (ofOwn Messages.insertedTasks) :=
    List.mem_flatMap.mpr ⟨e, he, hq⟩
  obtain ⟨r, hr⟩ := Option.ne_none_iff_exists'.mp (hquiet c hc)
  have hsettled := (handed_of_run hrun hc hr).settled
  rw [flatMap_ofOwn] at hmem
  rcases hsettled q hmem with haccepted | ⟨q', hq', hsame, hrejected⟩
  · rw [← flatMap_ofOwn] at haccepted
    obtain ⟨e', he', haccepted⟩ := List.mem_flatMap.mp haccepted
    obtain ⟨job, hjob, hjobId⟩ := accepted_enqueued haccepted
    refine Or.inl ⟨job, (jobs_of_run hrun).mem_iff.mpr ?_, hjobId.trans hid⟩
    exact Pool.mem_collect.mpr ⟨c, hc, e', he', hjob⟩
  · rw [← flatMap_ofOwn] at hq' hrejected
    exact Or.inr ⟨c, hc, q', hq', hsame.trans hmessage, hrejected⟩

theorem mem_of_own {h : History} {op : Messages.Op} {r : Except ApiError (Messages.Answer op)}
    (hmem : ⟨op, r⟩ ∈ h.filterMap ownEntry) : ⟨.message op, r⟩ ∈ h := by
  obtain ⟨⟨op', r'⟩, he, hown⟩ := List.mem_filterMap.mp hmem
  cases op' with
  | message op' =>
      cases hown
      exact he
  | _ => cases hown

/-- What an accepted post has asked for is there, unless it has been removed. -/
theorem post_provided (hrun : (system config).Run allowed initial P) {c : RunningCall}
    (hc : c ∈ P.calls) {secret : Option String} {payload : Telegram.IngestTelegramMessageDto}
    (hlabel : c.label = .ingest secret payload) {answer : Telegram.IngestAnswer}
    (hanswer : c.Returned (.ingested answer)) {id : Id} (hid : answer.messageId = some id) :
    ∃ channels, ⟨.message .findEnabledNotificationChannels, .ok channels⟩ ∈ c.history ∧
      ∀ channel ∈ channels, (∃ t ∈ P.store.store.tasks, taskKey t = (id, channel.id)) ∨
        id ∉ P.store.store.messages.map Message.id ∨
          channel.id ∉ P.store.store.channels.map NotificationChannel.id := by
  obtain ⟨channels, hfound, hrouted⟩ :=
    (handed_of_run hrun hc hanswer).routed secret payload answer id hlabel rfl hid
  refine ⟨channels, mem_of_own hfound, fun channel hchannel => ?_⟩
  rcases hrouted with rfl | ⟨created, hcreated⟩
  · cases hchannel
  have hkey : (id, channel.id) ∈ P.collect routedKeys := by
    refine Pool.mem_collect.mpr ⟨c, hc, _, mem_of_own hcreated, ?_⟩
    exact List.mem_map.mpr ⟨channel.id, List.mem_map_of_mem hchannel, rfl⟩
  obtain ⟨p, hp, hpkey⟩ := List.mem_map.mp (opened_of_routed hrun _ hkey)
  have hremoved := (books_of_run hrun).1.removed p hp
  rwa [hpkey] at hremoved

/-- What the workers leave of a task. -/
theorem row_after_work (hrun : (system config).Run allowed initial P)
    (hwork : (system config).Run (Working P.store.store.jobs) ⟨P.store, []⟩ Q)
    (hdone : ∀ job ∈ P.store.store.jobs, Completed Q job) {t : NotificationTask}
    (ht : t ∈ P.store.store.tasks) : ∃ t', Q.store.store.task? t.id = some t' ∧
      ((∃ k, Settles Queue.jobAttempts k t t') ∨
        t' = t ∧ ∀ job ∈ P.store.store.jobs, job.taskId ≠ t.id) := by
  have hs := integrity_of_run hrun
  have hfound : P.store.store.task? t.id = some t := Table.find?_of_nodup hs.tasks.nodup ht
  by_cases hjob : ∃ job ∈ P.store.store.jobs, job.taskId = t.id
  · obtain ⟨job, hjob, hid⟩ := hjob
    have hattempts : ∀ job ∈ P.store.store.jobs, job.attempts = Queue.jobAttempts := by
      intro job hjob
      obtain ⟨-, type, hjobOf, -⟩ := job_vouched hrun hjob
      rw [hjobOf]
      rfl
    obtain ⟨t', ht', hsettles⟩ := settled_of_work hs hattempts hwork hjob (hdone job hjob)
      (hid ▸ hfound)
    exact ⟨t', hid ▸ ht', Or.inl ⟨_, hsettles⟩⟩
  · have hnone : ∀ job ∈ P.store.store.jobs, job.taskId ≠ t.id :=
      fun job hjob' hid => hjob ⟨job, hjob', hid⟩
    exact ⟨t, (others_of_work hs hwork hnone).trans hfound, Or.inr ⟨rfl, hnone⟩⟩

end Runs

/-! ## The theorem -/

/-- What the requests in `P` have led to once the workers are done in `Q`. -/
structure Notified (P Q : ApiPool) : Prop where
  tasks : ∀ t' ∈ Q.store.store.tasks, ∃ t ∈ P.store.store.tasks,
    (∃ k, Settles Queue.jobAttempts k t t') ∨ t' = t ∧ Refused P t.messageId
  posts : ∀ c ∈ P.calls, ∀ secret payload answer id, c.label = .ingest secret payload →
    c.Returned (.ingested answer) → answer.messageId = some id →
    ∃ channels, ⟨.message .findEnabledNotificationChannels, .ok channels⟩ ∈ c.history ∧
      ∀ channel ∈ channels, (∃! t', t' ∈ Q.store.store.tasks ∧ taskKey t' = (id, channel.id)) ∨
        id ∉ Q.store.store.messages.map Message.id ∨
          channel.id ∉ Q.store.store.channels.map NotificationChannel.id

/-- Let any requests run to their ends, and then the workers until all jobs are
completed.  For every channel that was enabled when a post was routed there is one
task, and every task has been sent or has failed in all its runs, unless the queue
refused a job for its message. -/
theorem posts_notified {config : Config} {allowed : ApiPool → ApiEvent → Prop} {P Q : ApiPool}
    (hrun : (system config).Run allowed initial P) (hquiet : P.Quiescent)
    (hwork : (system config).Run (Working P.store.store.jobs) ⟨P.store, []⟩ Q)
    (hdone : ∀ job ∈ P.store.store.jobs, Completed Q job) : Notified P Q := by
  have hsteady := steady_of_work hwork
  have hreached := integrity_of_run hrun
  have hs : Integrity Q.store.store :=
    store_invariant hwork Integrity hreached fun _ _ _ h => h.integrity
  constructor
  · intro t' ht'
    have hid : t'.id ∈ P.store.store.tasks.map NotificationTask.id :=
      hsteady.taskIds ▸ List.mem_map_of_mem ht'
    obtain ⟨t, ht, hid⟩ := List.mem_map.mp hid
    obtain ⟨t'', ht'', hrow⟩ := row_after_work hrun hwork hdone ht
    obtain rfl : t'' = t' := by
      have hfound : Q.store.store.task? t'.id = some t' := Table.find?_of_nodup hs.tasks.nodup ht'
      exact Option.some.inj ((hid ▸ ht'').symm.trans hfound)
    refine ⟨t, ht, hrow.imp_right fun ⟨hsame, hnone⟩ => ⟨hsame, ?_⟩⟩
    refine (job_or_refused hrun hquiet ht).resolve_left ?_
    rintro ⟨job, hjob, hjobId⟩
    exact hnone job hjob hjobId
  · intro c hc secret payload answer id hlabel hanswer hid
    obtain ⟨channels, hfound, hprovided⟩ := post_provided hrun hc hlabel hanswer hid
    refine ⟨channels, hfound, fun channel hchannel => ?_⟩
    rw [hsteady.messages, hsteady.channels]
    refine (hprovided channel hchannel).imp_left ?_
    rintro ⟨t, ht, hkey⟩
    obtain ⟨t', ht', hrow⟩ := row_after_work hrun hwork hdone ht
    have hkey' : taskKey t' = taskKey t := by
      rcases hrow with ⟨k, hsettles⟩ | ⟨rfl, -⟩
      · rw [hsettles.same]
        rfl
      · rfl
    have hmem : t' ∈ Q.store.store.tasks := List.mem_of_find?_eq_some ht'
    refine ⟨t', ⟨hmem, hkey'.trans hkey⟩, ?_⟩
    rintro t'' ⟨ht'', hkey''⟩
    exact hs.taskKeys t'' ht'' t' hmem (hkey''.trans (hkey'.trans hkey).symm)

def tokenResponse : Channels.HttpResponse :=
  ⟨200, .ok "", .ok (.obj [(Channels.units "access_token", .str (Channels.units "token"))])⟩

/-- The platform takes the message in the first run. -/
def deliveryEvents : List ApiEvent :=
  .spawn (.channel (.processTask 3)) ::
    List.replicate 10 (.perform 0 { calm with response := some tokenResponse })

theorem posts_notified_sample :
    let P := (system sampleConfig).runList samplePool ingestEvents
    let Q := (system sampleConfig).runList ⟨P.store, []⟩ deliveryEvents
    Q.store.store.tasks.map NotificationTask.status = [.sent] ∧ Notified P Q := by
  intro P Q
  have hrun : (system sampleConfig).Run (fun _ _ => True) initial P :=
    samplePool_run.list (by simp [Machine.AllowedList, ingestEvents])
  have hjob : Queue.jobOf 3 .qq ∈ P.store.store.jobs := by decide +kernel
  have hspawn : Working P.store.store.jobs ⟨P.store, []⟩ (.spawn (.channel (.processTask 3))) :=
    ⟨_, hjob, rfl, ⟨fun c hc => absurd hc List.not_mem_nil, by decide⟩, by decide⟩
  have hwork : (system sampleConfig).Run (Working P.store.store.jobs) ⟨P.store, []⟩ Q :=
    Machine.Run.refl.list ⟨hspawn, by simp [Machine.AllowedList, Working, calm]⟩
  have hquiet : P.Quiescent := by decide +kernel
  have hdone : ∀ job ∈ P.store.store.jobs, Completed Q job := by
    unfold Completed
    decide +kernel
  exact ⟨by decide +kernel, posts_notified hrun hquiet hwork hdone⟩

end SocialMonitor.Backend

import SocialMonitor.Backend.Attempts
import SocialMonitor.Telegram.IngestRun

/-!
# Announcements and jobs

What the routing of a message puts into the event stream and into the queues,
while every other request, removals included, runs beside it.
-/

namespace SocialMonitor.Backend

open Async

/-! ## What a call may route -/

/-- The entries of the message service. -/
def ownEntry : Entry Op Answer ApiError →
    Option (Entry Messages.Op Messages.Answer ApiError)
  | ⟨.message op, r⟩ => some ⟨op, r⟩
  | _ => none

/-- Only the message service announces and enqueues, in its order. -/
def Routing (h : History) : Op → Prop
  | .message op => Messages.Protocol (h.filterMap ownEntry) op
  | .monitor (.emit event) => announcementOf event = none
  | .channel (.task (.emit event)) => announcementOf event = none
  | _ => True

section Calls

variable {config : Config} {request : Request} {h : History}

theorem announcementOf_report {event : SseEvent} {report : Report}
    (h : reportOf event = some report) : announcementOf event = none := by
  cases event <;> first | rfl | cases h

theorem routing_of_attempting {id : Id} (hrequest : request.task? = some id) {op : Op}
    (hbefore : Attempting request h op) : Routing h op := by
  simp only [Attempting, hrequest] at hbefore
  cases op with
  | channel op =>
      cases op with
      | task op =>
          cases op with
          | emit event =>
              obtain ⟨-, -, task, attempts, -, hreport, -⟩ := hbefore
              exact announcementOf_report hreport
          | _ => exact trivial
      | _ => exact trivial
  | _ => exact hbefore.elim

theorem routing_of_emits {op : Op}
    (hop : op.Emits (fun event => announcementOf event = none) True False) : Routing h op := by
  cases op with
  | message op =>
      cases op with
      | emit event => exact hop.1.elim
      | enqueueTask taskId type => exact hop.elim
      | _ => exact trivial
  | monitor op =>
      cases op with
      | emit event => exact hop
      | _ => exact trivial
  | channel op =>
      cases op with
      | task op =>
          cases op with
          | emit event => exact hop
          | _ => exact trivial
      | _ => exact trivial
  | _ => exact trivial

theorem ingest_routes (secret : Option String) (payload : Telegram.IngestTelegramMessageDto) :
    (program config (.ingest secret payload)).Conforms PossibleAnswer Routing (fun _ _ => True)
      [] := by
  have hwithin : (ofMessages (Telegram.ingest config.secret secret payload)).Conforms
      PossibleAnswer Routing (fun _ _ => True) [] := by
    refine Program.Conforms.within ownEntry (fun op r => ?_)
      (Telegram.ingest_conforms config.secret secret payload) ?_ (fun h op hbefore => hbefore)
      fun _ _ _ => trivial
    · rw [Program.map_answer]
      rfl
    · intro op r hpossible
      rw [Program.map_answer]
      exact hpossible
  refine Program.Obeys.bind (fun _ _ => True) ?_ fun _ _ _ => trivial
  exact hwithin.mono (fun _ _ h => h) fun _ r _ => by cases r <;> exact trivial

theorem program_routes (request : Request) : (program config request).Conforms PossibleAnswer
    Routing (fun _ _ => True) [] := by
  cases hrequest : request.task? with
  | some id =>
      exact (program_conforms request).mono (fun h op hop => routing_of_attempting hrequest hop)
        fun _ _ h => h
  | none =>
      by_cases hingest : ∃ secret payload, request = .ingest secret payload
      · obtain ⟨secret, payload, rfl⟩ := hingest
        exact ingest_routes secret payload
      · have hawaits : (program config request).Awaits
            (Op.Emits (fun event => announcementOf event = none) True False) :=
          program_emits (fun secret payload heq => absurd ⟨secret, payload, heq⟩ hingest)
            (fun _ _ _ => rfl) hrequest
        exact hawaits.obeys (fun h op hop => routing_of_emits hop) []

end Calls

/-! ## One call -/

def ofOwn {β : Type} (f : Entry Messages.Op Messages.Answer ApiError → List β)
    (e : Entry Op Answer ApiError) : List β := (ownEntry e).toList.flatMap f

theorem flatMap_ofOwn {β : Type} (f : Entry Messages.Op Messages.Answer ApiError → List β)
    (h : History) : h.flatMap (ofOwn f) = (h.filterMap ownEntry).flatMap f := by
  induction h with
  | nil => rfl
  | cons e h ih =>
      rw [List.flatMap_cons, ih]
      cases hown : ownEntry e with
      | none => simp [ofOwn, hown]
      | some own => simp [ofOwn, hown]

section Histories

variable {h : History}

theorem own_lawful (hh : Lawful PossibleAnswer Routing h) :
    Lawful Messages.Possible Messages.Protocol (h.filterMap ownEntry) := by
  induction hh with
  | nil => exact .nil
  | @cons h op r _ hbefore hpossible ih =>
      cases op with
      | message op => exact ih.cons hbefore hpossible
      | _ => exact ih

theorem announced_eq {op : Op} (hbefore : Routing h op) {r : Except ApiError (Answer op)} :
    announced ⟨op, r⟩ = ofOwn Messages.emittedIds ⟨op, r⟩ := by
  have hnone : ∀ event, announcementOf event = none → [event].filterMap announcementOf = [] := by
    intro event hevent
    simp [hevent]
  cases op with
  | message op =>
      cases op with
      | emit event => cases event <;> rfl
      | enqueueTask taskId type => cases r <;> rfl
      | createNotificationTasks messageId channelIds => cases r <;> rfl
      | _ => rfl
  | monitor op =>
      cases op with
      | emit event => exact hnone event hbefore
      | _ => rfl
  | channel op =>
      cases op with
      | task op =>
          cases op with
          | emit event => exact hnone event hbefore
          | updateTask id data => cases r <;> rfl
          | _ => rfl
      | _ => rfl
  | _ => rfl

theorem flatMap_announced (hh : Lawful PossibleAnswer Routing h) :
    h.flatMap announced = (h.filterMap ownEntry).flatMap Messages.emittedIds := by
  rw [← flatMap_ofOwn]
  induction hh with
  | nil => rfl
  | cons _ hbefore _ ih => rw [List.flatMap_cons, List.flatMap_cons, ih, announced_eq hbefore]

theorem enqueued_sublist (e : Entry Op Answer ApiError) :
    ((enqueued e).map Job.taskId).Sublist (ofOwn Messages.enqueuedIds e) := by
  obtain ⟨op, r⟩ := e
  cases op with
  | message op =>
      cases op with
      | enqueueTask taskId type =>
          cases r with
          | error e => exact List.nil_sublist _
          | ok _ => exact List.Sublist.refl _
      | createNotificationTasks messageId channelIds => cases r <;> exact List.nil_sublist _
      | _ => exact List.nil_sublist _
  | channel op =>
      cases op with
      | task op => cases op <;> cases r <;> exact List.nil_sublist _
      | _ => exact List.nil_sublist _
  | monitor op => cases op <;> exact List.nil_sublist _
  | _ => exact List.nil_sublist _

end Histories

/-! ## All calls -/

/-- What a call of the message service has drawn or read still holds. -/
structure Vouched (e : Entry Op Answer ApiError) (w : Channels.World) : Prop where
  inserted : ∀ p ∈ ofOwn Messages.insertedTasks e, p.2.id < w.store.nextId ∧
    ∀ t ∈ w.store.tasks, t.id = p.2.id → t.channelId = p.2.channelId
  channels : ∀ c ∈ ofOwn Messages.foundChannels e, c.id < w.store.nextId ∧
    ∀ c' ∈ w.store.channels, c'.id = c.id → c'.type = c.type

section Vouched

variable {contains : String → String → Bool} {w : Channels.World}

theorem Vouched.exec {e : Entry Op Answer ApiError} (h : Vouched e w) (choice : Channels.Choice)
    (op : Op) : Vouched e (exec contains choice op w).2 := by
  have hw := exec_write contains choice op w
  refine ⟨fun p hp => ?_, fun c hc => ?_⟩
  · obtain ⟨hdrawn, hrows⟩ := h.inserted p hp
    refine ⟨hdrawn.trans_le hw.nextId, fun t' ht' hid => ?_⟩
    rcases hw.task_from t' ht' with ⟨t, ht, htid, hchannel, -⟩ | ⟨hnew, -⟩
    · rw [← hchannel]
      exact hrows t ht (htid.trans hid)
    · exact absurd hdrawn (not_lt.mpr (hid ▸ hnew))
  · obtain ⟨hdrawn, htypes⟩ := h.channels c hc
    refine ⟨hdrawn.trans_le hw.nextId, fun c' hc' hid => ?_⟩
    rcases hw.channel_from c' hc' with ⟨c'', hc'', hcid, htype⟩ | hnew
    · rw [← htype]
      exact htypes c'' hc'' (hcid.trans hid)
    · exact absurd hdrawn (not_lt.mpr (hid ▸ hnew.ge))

theorem vouched_new (choice : Channels.Choice) (op : Op)
    (hs : Integrity (exec contains choice op w).2.store) :
    Vouched ⟨op, (exec contains choice op w).1⟩ (exec contains choice op w).2 := by
  cases op with
  | message op =>
      have hrecorded := (Messages.exec_effect choice.toChoice op w.store).recorded
      have hown : ∀ {β : Type} (f : Entry Messages.Op Messages.Answer ApiError → List β),
          ofOwn f ⟨.message op, (exec contains choice (.message op) w).1⟩ =
            f ⟨op, (Messages.exec choice.toChoice op w.store).1⟩ := fun f => List.append_nil _
      refine ⟨fun p hp => ?_, fun c hc => ?_⟩
      · rw [hown] at hp
        obtain ⟨row, hrow, hid, -, hchannel⟩ := hrecorded.inserted p hp
        refine ⟨hid ▸ hs.tasks.below _ (List.mem_map_of_mem hrow), fun t ht htid => ?_⟩
        rw [List.inj_on_of_nodup_map hs.tasks.nodup ht hrow (htid.trans hid.symm), hchannel]
      · rw [hown] at hc
        obtain ⟨row, hrow, hid, htype⟩ := hrecorded.channels c hc
        refine ⟨hid ▸ hs.channels.below _ (List.mem_map_of_mem hrow), fun c' hc' hcid => ?_⟩
        rw [List.inj_on_of_nodup_map hs.channels.nodup hc' hrow (hcid.trans hid.symm), htype]
  | _ => exact ⟨(fun p hp => nomatch hp), fun c hc => nomatch hc⟩

end Vouched

section Runs

variable {config : Config} {allowed : ApiPool → ApiEvent → Prop} {P : ApiPool}

theorem routed_of_run (hrun : (system config).Run allowed initial P) :
    ∀ c ∈ P.calls, Lawful PossibleAnswer Routing c.history := fun c hc =>
  (hrun.conforms rfl (fun _ => Routing) program_routes
    (fun P _ choice _ op _ _ _ _ => exec_possible choice op P.store) c hc).1

theorem vouched_of_run (hrun : (system config).Run allowed initial P) :
    ∀ c ∈ P.calls, ∀ e ∈ c.history, Vouched e P.store := by
  refine hrun.facts rfl ?_ (fun e choice op w h => h.exec choice op) fun e change => change.elim
  intro P choice op hrun
  have hw := exec_write config.contains choice op P.store
  exact vouched_new choice op (hw.integrity (integrity_of_run hrun))

/-- Identifiers that the message service draws are drawn once. -/
theorem drawn_once (hrun : (system config).Run allowed initial P)
    (f : Entry Messages.Op Messages.Answer ApiError → List Id)
    (hf : ∀ (s : Store) op r s', Messages.Effect s op r s' → (f ⟨op, r⟩).Nodup ∧
      ∀ n ∈ f ⟨op, r⟩, s.nextId ≤ n ∧ n < s'.nextId) :
    (P.collect (ofOwn f)).Nodup ∧ ∀ n ∈ P.collect (ofOwn f), n < P.store.store.nextId := by
  have hnew : ∀ choice op w, (ofOwn f ⟨op, ((system config).exec choice op w).1⟩).Nodup ∧
      ∀ n ∈ ofOwn f ⟨op, ((system config).exec choice op w).1⟩, w.store.nextId ≤ n ∧
        n < ((system config).exec choice op w).2.store.nextId := by
    intro choice op w
    cases op with
    | message op =>
        have hown : ofOwn f ⟨.message op, (exec config.contains choice (.message op) w).1⟩ =
            f ⟨op, (Messages.exec choice.toChoice op w.store).1⟩ := List.append_nil _
        rw [show (system config).exec = exec config.contains from rfl, hown]
        exact hf _ op _ _ (Messages.exec_effect choice.toChoice op w.store)
    | _ => exact ⟨List.nodup_nil, fun n hn => nomatch hn⟩
  obtain ⟨hnodup, hbounds⟩ := hrun.collect_fresh (fun w => w.store.nextId) rfl hnew
    (fun choice op w => (exec_write config.contains choice op w).nextId) fun change => change.elim
  exact ⟨hnodup, fun n hn => (hbounds n hn).2⟩

theorem announced_of_run (hrun : (system config).Run allowed initial P) :
    (P.collect announced).Nodup ∧ ∀ id ∈ P.collect announced, id < P.store.store.nextId := by
  obtain ⟨hnodup, hdrawn⟩ := drawn_once hrun Messages.createdIds
    fun s op r s' h => h.created_fresh
  have hcalls : ∀ c ∈ P.calls, (c.history.flatMap announced).Nodup ∧
      c.history.flatMap announced ⊆ c.history.flatMap (ofOwn Messages.createdIds) := by
    intro c hc
    have hlawful := routed_of_run hrun c hc
    rw [flatMap_announced hlawful, flatMap_ofOwn]
    exact Messages.emitted_once (own_lawful hlawful)
  refine ⟨Pool.collect_nodup_of_subset hnodup hcalls, fun id hid => hdrawn id ?_⟩
  obtain ⟨c, hc, hid⟩ := List.mem_flatMap.mp hid
  exact List.mem_flatMap.mpr ⟨c, hc, (hcalls c hc).2 hid⟩

/-- The tasks of the jobs that an entry has added. -/
def enqueuedTasks (e : Entry Op Answer ApiError) : List Id := (enqueued e).map Job.taskId

theorem enqueued_of_run (hrun : (system config).Run allowed initial P) :
    (P.collect enqueuedTasks).Nodup := by
  obtain ⟨hnodup, -⟩ := drawn_once hrun Messages.insertedIds fun s op r s' h => h.inserted_fresh
  refine Pool.collect_nodup_of_subset hnodup fun c hc => ?_
  obtain ⟨honce, hsubset⟩ := Messages.enqueued_once (own_lawful (routed_of_run hrun c hc))
  have hsublist : (c.history.flatMap enqueuedTasks).Sublist
      (c.history.flatMap (ofOwn Messages.enqueuedIds)) := by
    induction c.history with
    | nil => exact List.Sublist.refl _
    | cons e h ih =>
        rw [List.flatMap_cons, List.flatMap_cons]
        exact (enqueued_sublist e).append ih
  rw [flatMap_ofOwn] at hsublist
  rw [flatMap_ofOwn]
  exact ⟨honce.sublist hsublist, fun n hn => hsubset (hsublist.subset hn)⟩

/-- A job was enqueued with the type of the channel of its task. -/
theorem job_vouched (hrun : (system config).Run allowed initial P) {job : Job}
    (hjob : job ∈ P.store.store.jobs) : job.taskId < P.store.store.nextId ∧
      ∃ type, job = Queue.jobOf job.taskId type ∧ ∀ t ∈ P.store.store.tasks, t.id = job.taskId →
        ∀ c ∈ P.store.store.channels, c.id = t.channelId → c.type = type := by
  obtain ⟨c, hc, hmem⟩ := List.mem_flatMap.mp ((jobs_of_run hrun).mem_iff.mp hjob)
  obtain ⟨⟨op, r⟩, he, hadded⟩ := List.mem_flatMap.mp hmem
  have hlawful := routed_of_run hrun c hc
  have henqueue : ∃ taskId type, op = .message (.enqueueTask taskId type) ∧
      job = Queue.jobOf taskId type := by
    cases op with
    | message op =>
        cases op with
        | enqueueTask taskId type =>
            cases r with
            | error e => cases hadded
            | ok _ => exact ⟨taskId, type, rfl, List.mem_singleton.mp hadded⟩
        | createNotificationTasks messageId channelIds => cases r <;> cases hadded
        | _ => cases hadded
    | channel op =>
        cases op with
        | task op => cases op <;> cases r <;> cases hadded
        | _ => cases hadded
    | monitor op => cases op <;> cases hadded
    | _ => cases hadded
  obtain ⟨taskId, type, rfl, rfl⟩ := henqueue
  obtain ⟨h', hsuffix, hbefore⟩ := hlawful.admitted he
  obtain ⟨-, -, p, hinserted, rfl, channel, hchannel, hid, rfl⟩ := hbefore
  rw [← flatMap_ofOwn] at hinserted hchannel
  obtain ⟨e, he, hinserted⟩ := List.mem_flatMap.mp hinserted
  obtain ⟨e', he', hchannel⟩ := List.mem_flatMap.mp hchannel
  obtain ⟨hdrawn, hrows⟩ := (vouched_of_run hrun c hc e (hsuffix.subset he)).inserted p hinserted
  obtain ⟨-, htypes⟩ := (vouched_of_run hrun c hc e' (hsuffix.subset he')).channels channel hchannel
  refine ⟨hdrawn, channel.type, rfl, fun t ht htid c' hc' hcid => ?_⟩
  exact htypes c' hc' (hcid.trans ((hrows t ht htid).trans hid.symm))

end Runs

/-! ## The theorem -/

structure Delivered (P : ApiPool) : Prop where
  announcedOnce : (P.store.store.events.filterMap announcementOf).Nodup
  announcedDrawn :
    ∀ id ∈ P.store.store.events.filterMap announcementOf, id < P.store.store.nextId
  enqueuedOnce : (P.store.store.jobs.map Job.taskId).Nodup
  enqueued : ∀ job ∈ P.store.store.jobs, job.attempts = Queue.jobAttempts ∧
    job.taskId < P.store.store.nextId ∧ ∀ t ∈ P.store.store.tasks, t.id = job.taskId →
      ∃ c ∈ P.store.store.channels, c.id = t.channelId ∧ job.queue = Queue.queueName c.type

/-- In every run of the API a message is announced at most once, and a task has
at most one job.  A job stands in the queue of the channel of its task, which
exists as long as the task does. -/
theorem outbox_delivers {config : Config} {allowed : ApiPool → ApiEvent → Prop} {P : ApiPool}
    (hrun : (system config).Run allowed initial P) : Delivered P := by
  have hannouncements : (P.store.store.events.filterMap announcementOf).Perm
      (P.collect announced) := by
    have hperm := (events_of_run hrun).filterMap announcementOf
    rw [Pool.filterMap_collect] at hperm
    exact hperm
  have hjobs : (P.store.store.jobs.map Job.taskId).Perm (P.collect enqueuedTasks) := by
    have hperm := (jobs_of_run hrun).map Job.taskId
    rw [Pool.map_collect] at hperm
    exact hperm
  obtain ⟨hnodup, hdrawn⟩ := announced_of_run hrun
  refine ⟨hannouncements.nodup_iff.mpr hnodup, fun id hid => ?_,
    hjobs.nodup_iff.mpr (enqueued_of_run hrun), fun job hjob => ?_⟩
  · exact hdrawn id (hannouncements.mem_iff.mp hid)
  · obtain ⟨hlt, type, hjobOf, htypes⟩ := job_vouched hrun hjob
    refine ⟨by rw [hjobOf]; rfl, hlt, fun t ht hid => ?_⟩
    obtain ⟨c, hc, hcid⟩ := List.mem_map.mp ((integrity_of_run hrun).taskChannel t ht)
    exact ⟨c, hc, hcid, by rw [hjobOf, htypes t ht hid c hc hcid]; rfl⟩

theorem outbox_delivers_sample :
    let P := (system sampleConfig).runList samplePool ingestEvents
    P.store.store.jobs.length = 1 ∧ Delivered P := by
  intro P
  have hrun : (system sampleConfig).Run (fun _ _ => True) initial P :=
    samplePool_run.list (by simp [Machine.AllowedList, ingestEvents])
  exact ⟨by decide +kernel, outbox_delivers hrun⟩

end SocialMonitor.Backend

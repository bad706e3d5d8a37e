import SocialMonitor.Messages.Effect

/-!
# Concurrent creations

Calls of `create` interleave over the tables and the queues.  This module
follows one call: what it has done before each operation it awaits, and what it
has done when it ends.
-/

namespace SocialMonitor.Messages

open Async

abbrev History := List (Entry Op Answer ApiError)

abbrev RunningCall := Call NormalizedMessage Op Answer ApiError MessageDto

abbrev MessagePool := Pool NormalizedMessage Store Op Answer ApiError MessageDto

abbrev MessageEvent := Event NormalizedMessage Choice Change

def system : System NormalizedMessage Store Choice Change Op Answer ApiError MessageDto where
  start := create
  exec := exec
  env := Change.apply

/-! ## What an entry tells -/

def createdIds : Entry Op Answer ApiError → List Id
  | ⟨.createMessage _, .ok m⟩ => [m.message.id]
  | _ => []

/-- The message of a `message.created` event. -/
def emittedIds : Entry Op Answer ApiError → List Id
  | ⟨.emit (.messageCreated id _ _), _⟩ => [id]
  | _ => []

def insertedTasks : Entry Op Answer ApiError → List (Id × CreatedTask)
  | ⟨.createNotificationTasks messageId _, .ok created⟩ => created.map fun t => (messageId, t)
  | _ => []

def insertedIds (e : Entry Op Answer ApiError) : List Id := (insertedTasks e).map fun p => p.2.id

def foundChannels : Entry Op Answer ApiError → List NotificationChannel
  | ⟨.findEnabledNotificationChannels, .ok channels⟩ => channels
  | _ => []

/-- A call of `enqueueTask`, accepted or not. -/
def enqueueCalls : Entry Op Answer ApiError → List (Id × NotificationChannelType)
  | ⟨.enqueueTask taskId type, _⟩ => [(taskId, type)]
  | _ => []

def enqueuedIds (e : Entry Op Answer ApiError) : List Id := (enqueueCalls e).map Prod.fst

def acceptedIds : Entry Op Answer ApiError → List Id
  | ⟨.enqueueTask taskId _, .ok _⟩ => [taskId]
  | _ => []

def rejectedIds : Entry Op Answer ApiError → List Id
  | ⟨.enqueueTask taskId _, .error _⟩ => [taskId]
  | _ => []

/-- The message found or stored under a key. -/
def messageOf? (source : MessageSource) (externalId : String) :
    Entry Op Answer ApiError → Option MessageWithTarget
  | ⟨.findUniqueBySourceExternalId source' externalId', .ok found⟩ =>
      if source' = source ∧ externalId' = externalId then found else none
  | ⟨.createMessage data, .ok m⟩ =>
      if data.source = source ∧ data.externalId = externalId then some m else none
  | _ => none

/-- The entry belongs to the routing of a message. -/
def routes : Entry Op Answer ApiError → Bool
  | ⟨.createNotificationTasks _ _, _⟩ => true
  | ⟨.enqueueTask _ _, _⟩ => true
  | _ => false

def enqueues : Entry Op Answer ApiError → Bool
  | ⟨.enqueueTask _ _, _⟩ => true
  | _ => false

/-! ## The order of the operations of one call -/

def Possible : (op : Op) → Except ApiError (Answer op) → Prop
  | .emit _, r => r = .ok ()
  | .createNotificationTasks _ channelIds, .ok created =>
      (created.map CreatedTask.id).Nodup ∧ ∀ t ∈ created, t.channelId ∈ channelIds
  | _, _ => True

theorem Effect.possible {s s' : Store} {op : Op} {r : Except ApiError (Answer op)}
    (h : Effect s op r s') : Possible op r := by
  cases h with
  | @inserted messageId channelIds rows hids hrows =>
      refine ⟨?_, fun t ht => ?_⟩
      · rw [List.map_map]
        exact (congrArg List.Nodup hids).mpr List.nodup_range'
      · obtain ⟨row, hrow, rfl⟩ := List.mem_map.mp ht
        exact (hrows row hrow).2
  | failed hop =>
      cases op with
      | emit event => exact absurd rfl (hop event)
      | _ => trivial
  | emitted => rfl
  | _ => trivial

/-- The task was inserted for a channel of that type. -/
def OwnType (h : History) (taskId : Id) (type : NotificationChannelType) : Prop :=
  ∃ p ∈ h.flatMap insertedTasks, p.2.id = taskId ∧
    ∃ c ∈ h.flatMap foundChannels, c.id = p.2.channelId ∧ c.type = type

/-- What has happened in a call before it awaits an operation. -/
def Protocol (h : History) : Op → Prop
  | .emit event => ∃ id source targetName, event = .messageCreated id source targetName ∧
      id ∈ h.flatMap createdIds ∧ id ∉ h.flatMap emittedIds
  | .enqueueTask taskId type => taskId ∈ h.flatMap insertedIds ∧
      taskId ∉ h.flatMap enqueuedIds ∧ OwnType h taskId type
  | _ => True

/-- Every task the call has inserted is enqueued, or the queue has refused a
task of the same message. -/
def Settled (h : History) : Prop :=
  ∀ p ∈ h.flatMap insertedTasks, p.2.id ∈ h.flatMap acceptedIds ∨
    ∃ q ∈ h.flatMap insertedTasks, q.1 = p.1 ∧ q.2.id ∈ h.flatMap rejectedIds

/-- A call that returns has the message of its key. -/
structure Done (input : NormalizedMessage) (h : History) (r : Except ApiError MessageDto) :
    Prop where
  returned : ∀ dto, r = .ok dto → ∃ m, m.message.id = dto.id ∧
    ∃ e ∈ h, messageOf? input.source input.externalId e = some m
  settled : Settled h

def Unrouted (h : History) : Prop := ∀ e ∈ h, routes e = false

theorem Unrouted.cons {h : History} (hh : Unrouted h) {e : Entry Op Answer ApiError}
    (he : routes e = false) : Unrouted (e :: h) := by
  simpa [Unrouted, he] using hh

theorem Unrouted.enqueued {h : History} (hh : Unrouted h) : h.flatMap enqueuedIds = [] := by
  refine List.flatMap_eq_nil_iff.mpr fun e he => ?_
  obtain ⟨op, answer⟩ := e
  cases op with
  | enqueueTask taskId type => exact absurd (hh _ he) (by simp [routes])
  | _ => rfl

theorem Unrouted.inserted {h : History} (hh : Unrouted h) : h.flatMap insertedTasks = [] := by
  refine List.flatMap_eq_nil_iff.mpr fun e he => ?_
  obtain ⟨op, answer⟩ := e
  cases op with
  | createNotificationTasks messageId channelIds => exact absurd (hh _ he) (by simp [routes])
  | _ => rfl

theorem Unrouted.settled {h : History} (hh : Unrouted h) : Settled h := by
  simp [Settled, hh.inserted]

theorem Unrouted.done {input : NormalizedMessage} {h : History} (hh : Unrouted h)
    (error : ApiError) : Done input h (.error error) := ⟨by simp, hh.settled⟩

theorem typeByChannelId_of_mem {channels : List NotificationChannel} {id : Id}
    (h : id ∈ channels.map NotificationChannel.id) :
    ∃ c ∈ channels, c.id = id ∧ typeByChannelId channels id = some c.type := by
  unfold typeByChannelId
  cases hfind : channels.reverse.find? fun c => c.id = id with
  | none =>
      obtain ⟨c, hc, heq⟩ := List.mem_map.mp h
      exact absurd heq (by simpa using List.find?_eq_none.mp hfind c (List.mem_reverse.mpr hc))
  | some c =>
      have hid : c.id = id := by simpa using List.find?_some hfind
      exact ⟨c, List.mem_reverse.mp (List.mem_of_find?_eq_some hfind), hid, rfl⟩

/-! ## Routing -/

structure Inserted (h : History) (messageId : Id) (channels : List NotificationChannel)
    (created : List CreatedTask) : Prop where
  inserted : h.flatMap insertedTasks = created.map fun t => (messageId, t)
  found : channels ⊆ h.flatMap foundChannels
  nodup : (created.map CreatedTask.id).Nodup
  channelIds : ∀ t ∈ created, t.channelId ∈ channels.map NotificationChannel.id
  unused : h.flatMap enqueuedIds = []

theorem Inserted.protocol {h : History} {messageId : Id} {channels : List NotificationChannel}
    {created : List CreatedTask} (hi : Inserted h messageId channels created) (loop : History)
    {t : CreatedTask} (ht : t ∈ created) (hnew : t.id ∉ loop.flatMap enqueuedIds)
    {c : NotificationChannel} (hc : c ∈ channels) (hid : c.id = t.channelId) :
    Protocol (loop ++ h) (.enqueueTask t.id c.type) := by
  have hmem : (messageId, t) ∈ (loop ++ h).flatMap insertedTasks := by
    rw [List.flatMap_append, hi.inserted]
    exact List.mem_append_right _ (List.mem_map_of_mem ht)
  refine ⟨?_, ?_, (messageId, t), hmem, rfl, c, ?_, hid, rfl⟩
  · obtain ⟨e, he, hmem⟩ := List.mem_flatMap.mp hmem
    exact List.mem_flatMap.mpr ⟨e, he, List.mem_map_of_mem (f := fun p => p.2.id) hmem⟩
  · rw [List.flatMap_append, hi.unused, List.append_nil]
    exact hnew
  · rw [List.flatMap_append]
    exact List.mem_append_right _ (hi.found hc)

def Enqueued (h : History) (created : List CreatedTask) (h' : History) :
    Except ApiError Unit → Prop
  | .ok _ => (∃ loop, h' = loop ++ h ∧ ∀ e ∈ loop, enqueues e) ∧
      ∀ t ∈ created, t.id ∈ h'.flatMap acceptedIds
  | .error _ => (∃ loop, h' = loop ++ h ∧ ∀ e ∈ loop, enqueues e) ∧
      ∃ t ∈ created, t.id ∈ h'.flatMap rejectedIds

/-- The induction is on the tasks that are left; those before them have been
accepted, newest first. -/
theorem enqueueAll_conforms {h : History} {messageId : Id} {channels : List NotificationChannel}
    {created : List CreatedTask} (hi : Inserted h messageId channels created)
    (rest sent : List CreatedTask) (hsplit : created = sent ++ rest) (loop : History)
    (hloop : ∀ e ∈ loop, enqueues e)
    (haccepted : loop.flatMap acceptedIds = (sent.map CreatedTask.id).reverse)
    (henqueued : loop.flatMap enqueuedIds = (sent.map CreatedTask.id).reverse) :
    (rest.forM (enqueueCreated channels)).Conforms Possible Protocol (Enqueued h created)
      (loop ++ h) := by
  induction rest generalizing sent loop with
  | nil =>
      refine ⟨⟨loop, rfl, hloop⟩, fun t ht => ?_⟩
      rw [List.flatMap_append, haccepted, ← List.append_nil sent, ← hsplit]
      exact List.mem_append_left _ (List.mem_reverse.mpr (List.mem_map_of_mem ht))
  | cons t rest ih =>
      have ht : t ∈ created := hsplit ▸ List.mem_append_right _ List.mem_cons_self
      have hnew : t.id ∉ loop.flatMap enqueuedIds := by
        have hnodup := hi.nodup
        rw [hsplit, List.map_append, List.map_cons, List.nodup_middle] at hnodup
        rw [henqueued, List.mem_reverse]
        exact fun hmem => (List.nodup_cons.mp hnodup).1 (List.mem_append_left _ hmem)
      obtain ⟨c, hc, hid, htype⟩ := typeByChannelId_of_mem (hi.channelIds t ht)
      change ((enqueueCreated channels t).bind fun _ =>
        rest.forM (enqueueCreated channels)).Conforms _ _ _ _
      simp only [enqueueCreated, htype, Program.await, Program.obeys_bind,
        Program.conforms_call, Program.ofExcept_error, Program.ofExcept_ok, Program.obeys_ret,
        Program.obeys_raise, Program.Andthen]
      refine ⟨hi.protocol loop ht hnew hc hid, fun error _ => ?_, fun answer _ => ?_⟩
      · refine ⟨⟨⟨.enqueueTask t.id c.type, .error error⟩ :: loop, rfl, ?_⟩, t, ht, ?_⟩
        · simpa [enqueues] using hloop
        · simp [rejectedIds]
      · refine ih (sent ++ [t]) (by simp [hsplit])
          (⟨.enqueueTask t.id c.type, .ok answer⟩ :: loop) ?_ ?_ ?_
        · simpa [enqueues] using hloop
        · simp [acceptedIds, haccepted]
        · simp [enqueuedIds, enqueueCalls, henqueued]

theorem flatMap_insertedTasks_of_enqueues {loop : History} (hloop : ∀ e ∈ loop, enqueues e) :
    loop.flatMap insertedTasks = [] := by
  refine List.flatMap_eq_nil_iff.mpr fun e he => ?_
  obtain ⟨op, answer⟩ := e
  cases op with
  | createNotificationTasks messageId channelIds =>
      exact absurd (hloop _ he) (by simp [enqueues])
  | _ => rfl

theorem Inserted.settled {h : History} {messageId : Id} {channels : List NotificationChannel}
    {created : List CreatedTask} (hi : Inserted h messageId channels created) {h' : History}
    {r : Except ApiError Unit} (hend : Enqueued h created h' r) : h <:+ h' ∧ Settled h' := by
  have hinserted : ∀ loop : History, (∀ e ∈ loop, enqueues e) →
      (loop ++ h).flatMap insertedTasks = created.map fun t => (messageId, t) := by
    intro loop hloop
    rw [List.flatMap_append, flatMap_insertedTasks_of_enqueues hloop, hi.inserted]
    rfl
  cases r with
  | ok a =>
      obtain ⟨⟨loop, rfl, hloop⟩, haccepted⟩ := hend
      refine ⟨List.suffix_append _ _, fun p hp => ?_⟩
      rw [hinserted loop hloop] at hp
      obtain ⟨t, ht, rfl⟩ := List.mem_map.mp hp
      exact Or.inl (haccepted t ht)
  | error error =>
      obtain ⟨⟨loop, rfl, hloop⟩, t, ht, hrejected⟩ := hend
      refine ⟨List.suffix_append _ _, fun p hp => ?_⟩
      rw [hinserted loop hloop] at hp ⊢
      obtain ⟨t', -, rfl⟩ := List.mem_map.mp hp
      exact Or.inr ⟨(messageId, t), List.mem_map_of_mem ht, rfl, hrejected⟩

theorem routeToEnabledChannels_conforms {h : History} (hh : Unrouted h) (messageId : Id) :
    (routeToEnabledChannels messageId).Conforms Possible Protocol
      (fun h' _ => h <:+ h' ∧ Settled h') h := by
  simp only [routeToEnabledChannels, Program.bind_def, Program.await, Program.obeys_bind,
    Program.conforms_call, Program.ofExcept_error, Program.ofExcept_ok, Program.obeys_ret,
    Program.obeys_raise, Program.Andthen]
  refine ⟨trivial, fun error _ => ?_, fun channels _ => ?_⟩
  · exact ⟨List.suffix_cons _ _, (hh.cons rfl).settled⟩
  have hfound : Unrouted (⟨.findEnabledNotificationChannels, .ok channels⟩ :: h) := hh.cons rfl
  split_ifs with hnone
  · exact ⟨List.suffix_cons _ _, hfound.settled⟩
  simp only [Program.obeys_bind, Program.conforms_call, Program.ofExcept_error,
    Program.ofExcept_ok, Program.obeys_ret, Program.obeys_raise, Program.Andthen]
  refine ⟨trivial, fun error _ => ?_, fun created hcreated => ?_⟩
  · refine ⟨(List.suffix_cons _ _).trans (List.suffix_cons _ _), ?_⟩
    simp [Settled, insertedTasks, hh.inserted]
  · have hi : Inserted (⟨.createNotificationTasks messageId
        (channels.map NotificationChannel.id), .ok created⟩ ::
          ⟨.findEnabledNotificationChannels, .ok channels⟩ :: h) messageId channels created :=
      ⟨by simp [insertedTasks, hh.inserted], by simp [foundChannels], hcreated.1, hcreated.2,
        by simpa [enqueuedIds, enqueueCalls] using hh.enqueued⟩
    refine (enqueueAll_conforms hi created [] rfl [] (by simp) rfl rfl).mono
      (fun _ _ h => h) fun h' r hend => ?_
    obtain ⟨hsuffix, hsettled⟩ := hi.settled hend
    exact ⟨((List.suffix_cons _ _).trans (List.suffix_cons _ _)).trans hsuffix, hsettled⟩

/-! ## The whole call -/

/-- The message of the key is at hand; a new one has not been announced. -/
structure Located (input : NormalizedMessage) (h : History) (found : MessageWithTarget × Bool) :
    Prop where
  unrouted : Unrouted h
  unannounced : h.flatMap emittedIds = []
  message : ∃ e ∈ h, messageOf? input.source input.externalId e = some found.1
  isNew : found.2 → found.1.message.id ∈ h.flatMap createdIds

theorem findOrCreate_conforms {h : History} (hh : Unrouted h)
    (hemitted : h.flatMap emittedIds = []) (input : NormalizedMessage) (target : MonitorTarget) :
    (findOrCreate input target).Conforms Possible Protocol
      (Program.Handson (Located input) (Done input)) h := by
  simp only [findOrCreate, findUniqueBySourceExternalId, Program.bind_def, Program.tryCatch_def,
    Program.await, Program.obeys_bind, Program.conforms_call, Program.ofExcept_error,
    Program.ofExcept_ok, Program.obeys_ret, Program.obeys_raise, Program.Andthen]
  refine ⟨trivial, fun error _ => (hh.cons rfl).done error, ?_⟩
  rintro (_ | existing) -
  · simp only [Program.obeys_bind, Program.obeys_handle, Program.conforms_call,
      Program.ofExcept_error, Program.ofExcept_ok, Program.obeys_ret, Program.obeys_raise,
      Program.Andthen, Program.Orelse, Program.pure_def, Program.throw_def]
    refine ⟨trivial, fun error _ => ?_, fun message _ => ?_⟩
    · have hcreate : Unrouted (⟨.createMessage (messageData input target), .error error⟩ ::
          ⟨.findUniqueBySourceExternalId input.source input.externalId, .ok none⟩ :: h) :=
        (hh.cons rfl).cons rfl
      split_ifs
      · exact hcreate.done error
      simp only [Program.obeys_bind, Program.conforms_call, Program.ofExcept_error,
        Program.ofExcept_ok, Program.obeys_ret, Program.obeys_raise, Program.Andthen]
      refine ⟨trivial, fun error' _ => (hcreate.cons rfl).done error', ?_⟩
      rintro (_ | deduped) -
      · exact (hcreate.cons rfl).done error
      · refine ⟨hcreate.cons rfl, by simpa [emittedIds] using hemitted, ?_, by simp⟩
        exact ⟨_, List.mem_cons_self, by simp [messageOf?]⟩
    · refine ⟨(hh.cons rfl).cons rfl, by simpa [emittedIds] using hemitted, ?_, ?_⟩
      · exact ⟨_, List.mem_cons_self, by simp [messageOf?, messageData]⟩
      · simp [createdIds]
  · refine ⟨hh.cons rfl, by simpa [emittedIds] using hemitted, ?_, by simp⟩
    exact ⟨_, List.mem_cons_self, by simp [messageOf?]⟩

theorem finish_conforms {h : History} (hh : Unrouted h) {input : NormalizedMessage}
    {m : MessageWithTarget}
    (hm : ∃ e ∈ h, messageOf? input.source input.externalId e = some m) :
    ((routeToEnabledChannels m.message.id).bind fun _ => .ret (toDto m)).Conforms Possible
      Protocol (Done input) h := by
  obtain ⟨e, he, hmessage⟩ := hm
  rw [Program.Conforms, Program.obeys_bind]
  refine (routeToEnabledChannels_conforms hh m.message.id).mono (fun _ _ h => h) ?_
  rintro h' (error | _) ⟨hsuffix, hsettled⟩
  · exact ⟨by simp, hsettled⟩
  · refine ⟨fun dto hdto => ?_, hsettled⟩
    obtain rfl : toDto m = dto := by simpa using hdto
    exact ⟨m, rfl, e, hsuffix.subset he, hmessage⟩

theorem create_conforms_from {h : History} (hh : Unrouted h) (hemitted : h.flatMap emittedIds = [])
    (input : NormalizedMessage) : (create input).Conforms Possible Protocol (Done input) h := by
  refine Program.Obeys.bind (fun h _ => Unrouted h ∧ h.flatMap emittedIds = []) ?_ ?_
  · simp only [resolveTarget, Program.bind_def, Program.await, Program.obeys_bind,
      Program.conforms_call, Program.ofExcept_error, Program.ofExcept_ok, Program.obeys_ret,
      Program.obeys_raise, Program.Andthen, Program.Handson]
    refine ⟨trivial, fun error _ => (hh.cons rfl).done error, ?_⟩
    rintro (_ | target) -
    · exact (hh.cons rfl).done _
    · exact ⟨hh.cons rfl, by simpa [emittedIds] using hemitted⟩
  rintro h target ⟨hh, hemitted⟩
  refine Program.Obeys.bind (Located input) (findOrCreate_conforms hh hemitted input target) ?_
  rintro h ⟨m, isNew⟩ hlocated
  obtain ⟨e, he, hmessage⟩ := hlocated.message
  cases isNew with
  | false => exact finish_conforms hlocated.unrouted hlocated.message
  | true =>
      have hcreated := hlocated.isNew rfl
      simp only [Program.bind_def, Program.await, Program.obeys_bind,
        Program.conforms_call, Program.ofExcept_error, Program.ofExcept_ok, Program.obeys_ret,
        Program.obeys_raise, Program.Andthen, if_true]
      have htouched : ∀ r, Unrouted (⟨.updateTargetLastMessageAt target.id input.publishedAt,
          r⟩ :: h) := fun r => hlocated.unrouted.cons rfl
      refine ⟨trivial, fun error _ => (htouched _).done error, fun _ _ => ?_⟩
      refine ⟨⟨_, _, _, rfl, ?_, ?_⟩, fun error _ => ?_, fun _ _ => ?_⟩
      · simpa [createdIds] using hcreated
      · simp [emittedIds, hlocated.unannounced]
      · exact ((htouched _).cons rfl).done error
      · have hfinish := finish_conforms (h := ⟨.emit (.messageCreated m.message.id
            m.message.source m.target.name), .ok ()⟩ ::
              ⟨.updateTargetLastMessageAt target.id input.publishedAt, .ok ()⟩ :: h)
          ((htouched _).cons rfl)
          ⟨e, List.mem_cons_of_mem _ (List.mem_cons_of_mem _ he), hmessage⟩
        exact (Program.obeys_bind _ _ _ _ _ _).mp hfinish

theorem create_conforms (input : NormalizedMessage) :
    (create input).Conforms Possible Protocol (Done input) [] :=
  create_conforms_from (by simp [Unrouted]) rfl input

end SocialMonitor.Messages

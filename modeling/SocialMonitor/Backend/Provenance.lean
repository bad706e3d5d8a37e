import SocialMonitor.Backend.Pipeline
import SocialMonitor.Backend.Removal
import SocialMonitor.Channels.Requests
import SocialMonitor.Credentials

/-!
# Where messages and notifications come from

Every row of the messages was written by an ingest call that knew the secret,
from its payload.  Every request to a platform asks for a token, or brings a text
that is made of such a row, or of a test, to the chat that a request of the
administrator has configured.
-/

namespace SocialMonitor.Backend

open Async

/-! ## The ingest call -/

/-- The row of a payload. -/
structure Holds (payload : Telegram.IngestTelegramMessageDto) (m : Message) : Prop where
  source : m.source = .telegram
  externalId : m.externalId = Telegram.buildExternalId payload.chatId payload.messageId
  content : m.content = payload.content.getD ""
  authorExternalId : m.authorExternalId =
    payload.sender.bind Telegram.RawTelegramSender.id
  authorUsername : m.authorUsername = payload.sender.bind Telegram.RawTelegramSender.username
  authorName : m.authorName = payload.sender.bind Telegram.displayName
  url : m.url = none
  date : Telegram.publishedAt payload.date = some m.publishedAt

def normalized (target : MonitorTarget) (payload : Telegram.IngestTelegramMessageDto) :
    Messages.NormalizedMessage :=
  Telegram.toNormalizedMessage target
    ⟨payload.chatId, payload.messageId, payload.content, payload.date, payload.sender⟩
    (Telegram.buildExternalId payload.chatId payload.messageId)

section Ingest

variable {h h' : Messages.History} {input : Messages.NormalizedMessage}

def CreatesNone : Messages.Op → Prop
  | .createMessage _ => False
  | _ => True

/-- What a message is created from, once the target of the input was found. -/
def Resolved (input : Messages.NormalizedMessage) (h h' : Messages.History) :
    Messages.Op → Prop
  | .createMessage data => h ⊆ h' ∧ ∃ row, ⟨.findTargetByTypeExternalId input.targetType
      input.targetExternalId, .ok (some row)⟩ ∈ h' ∧ data = Messages.messageData input row
  | _ => True

theorem resolved_of_none {op : Messages.Op} (hop : CreatesNone op) : Resolved input h h' op := by
  cases op with
  | createMessage data => exact hop.elim
  | _ => exact trivial

theorem routing_createsNone (id : Id) :
    (Messages.routeToEnabledChannels id).Awaits CreatesNone := by
  refine Program.Awaits.bind (Program.awaits_await trivial) fun channels => ?_
  split_ifs
  · exact trivial
  refine Program.Awaits.bind (Program.awaits_await trivial) fun created => ?_
  refine Program.Awaits.forM (fun task => ?_) created
  unfold Messages.enqueueCreated
  split
  · exact Program.awaits_await trivial
  · exact trivial

theorem create_resolves (input : Messages.NormalizedMessage) (h : Messages.History) :
    (Messages.create input).Conforms (fun _ _ => True) (Resolved input h) (fun _ _ => True) h := by
  have hquiet : ∀ {α : Type} {p : Messages.Api α} {h' : Messages.History},
      p.Awaits CreatesNone →
        p.Conforms (fun _ _ => True) (Resolved input h) (fun _ _ => True) h' :=
    fun hp => hp.obeys (fun _ _ hop => resolved_of_none hop) _
  refine Program.Obeys.bind (fun h' row => h ⊆ h' ∧ ⟨.findTargetByTypeExternalId
    input.targetType input.targetExternalId, .ok (some row)⟩ ∈ h') ?_ ?_
  · refine ⟨trivial, ?_⟩
    rintro (e | _ | row) h' ⟨-, rfl⟩
    · exact trivial
    · exact trivial
    · exact ⟨List.subset_cons_self _ _, List.mem_cons_self⟩
  rintro h' row ⟨hsub, hrow⟩
  refine Program.Obeys.bind (fun _ _ => True) ?_ ?_
  · refine ⟨trivial, ?_⟩
    rintro (e | _ | existing) h'' ⟨-, rfl⟩
    · exact trivial
    · refine Program.Obeys.handle (fun _ _ => True) ?_ fun h' error _ => ?_
      · refine ⟨⟨List.subset_cons_of_subset _ hsub, row, List.mem_cons_of_mem _ hrow, rfl⟩, ?_⟩
        rintro (e | m) h'' - <;> exact trivial
      · refine (hquiet ?_).mono (fun _ _ h => h) fun h r _ => by cases r <;> exact trivial
        dsimp only
        split_ifs
        · exact trivial
        · refine Program.Awaits.bind (Program.awaits_await trivial) fun deduped => ?_
          cases deduped <;> exact trivial
    · exact trivial
  · rintro h'' ⟨m, isNew⟩ -
    refine hquiet ?_
    cases isNew with
    | false => exact (routing_createsNone _).bind fun _ => trivial
    | true =>
        refine Program.Awaits.bind (Program.awaits_await trivial) fun _ => ?_
        refine Program.Awaits.bind (Program.awaits_await trivial) fun _ => ?_
        exact (routing_createsNone _).bind fun _ => trivial

/-- Before a message is created, the secret was checked and an enabled target found. -/
def Authentic (expected : String) (secret : Option String)
    (payload : Telegram.IngestTelegramMessageDto) (h : Messages.History) :
    Messages.Op → Prop
  | .createMessage data => expected ≠ "" ∧ secret = some expected ∧ ∃ target row,
      ⟨.findTelegramTargetByExternalId payload.chatId, .ok (some target)⟩ ∈ h ∧
        ⟨.findTargetByTypeExternalId target.type target.externalId, .ok (some row)⟩ ∈ h ∧
          data = Messages.messageData (normalized target payload) row
  | _ => True

theorem ingest_authentic (expected : String) (secret : Option String)
    (payload : Telegram.IngestTelegramMessageDto) :
    (Telegram.ingest expected secret payload).Conforms (fun _ _ => True)
      (Authentic expected secret payload) (fun _ _ => True) [] := by
  unfold Telegram.ingest
  split_ifs with hsecret
  · exact trivial
  rw [not_or, not_not] at hsecret
  refine ⟨trivial, ?_⟩
  rintro (e | _ | target) h ⟨-, rfl⟩
  · exact trivial
  · exact trivial
  refine Program.Obeys.handle (fun _ _ => True) ?_ fun _ _ _ => trivial
  refine Program.Obeys.bind (fun _ _ => True) ?_ fun _ _ _ => trivial
  refine (create_resolves (normalized target payload)
    [⟨.findTelegramTargetByExternalId payload.chatId, .ok (some target)⟩]).mono ?_ ?_
  · intro h op hop
    cases op with
    | createMessage data =>
        obtain ⟨hsub, row, hrow, hdata⟩ := hop
        exact ⟨hsecret.1, hsecret.2, target, row, hsub List.mem_cons_self, hrow, hdata⟩
    | _ => exact trivial
  · rintro h (e | saved) - <;> exact trivial

end Ingest

/-! ## Every call -/

/-- The entries of the notification service. -/
def channelEntry : Entry Op Answer ApiError → Option (Entry Channels.Op Channels.Answer ApiError)
  | ⟨.channel op, r⟩ => some ⟨op, r⟩
  | _ => none

/-- The request hands the config of a channel over. -/
def Configures (request : Request) : Channels.Op → Prop
  | .createChannel data => ∃ dto, request = .channel (.createChannel dto) ∧
      data.type = dto.type ∧ data.config = dto.config
  | .updateChannel id data => ∃ dto, request = .channel (.updateChannel id dto) ∧
      data.config = dto.config
  | _ => True

/-- What a request may write and send. -/
def Admits (config : Config) (request : Request) (h : History) : Op → Prop
  | .message op => ∀ data, op = .createMessage data → ∃ secret payload,
      request = .ingest secret payload ∧
        Authentic config.secret secret payload (h.filterMap ownEntry) op
  | .channel op => Channels.Asks config.qq (h.filterMap channelEntry) op ∧ Configures request op
  | _ => True

theorem program_configures (setting : Channels.Setting) (request : Channels.Request) :
    (Channels.program setting request).Awaits (Configures (.channel request)) := by
  by_cases hcreate : ∃ dto, request = .createChannel dto
  · obtain ⟨dto, rfl⟩ := hcreate
    refine .bind (Program.Awaits.bind (Program.awaits_ofExcept _) fun _ => ?_) fun _ => trivial
    exact Program.Awaits.bind (Program.awaits_await ⟨dto, rfl, rfl, rfl⟩) fun _ => trivial
  by_cases hupdate : ∃ id dto, request = .updateChannel id dto
  · obtain ⟨id, dto, rfl⟩ := hupdate
    refine .bind (Program.Awaits.bind ?_ fun channel => ?_) fun _ => trivial
    · refine Program.Awaits.bind (Program.awaits_await trivial) fun channel? => ?_
      cases channel? <;> exact trivial
    refine Program.Awaits.bind (Program.awaits_ofExcept _) fun _ => ?_
    refine Program.Awaits.bind (Program.awaits_ofExcept _) fun name => ?_
    exact Program.Awaits.bind (Program.awaits_await ⟨dto, rfl, rfl⟩) fun _ => trivial
  · refine (Credentials.program_awaits (not_exists.mp hcreate) fun id dto h =>
      hupdate ⟨id, dto, h⟩).mono fun op hop => ?_
    cases op with
    | createChannel data => exact hop.elim
    | updateChannel id data => exact hop.elim
    | _ => exact trivial

theorem program_admits (config : Config) (request : Request) :
    (program config request).Conforms (fun _ _ => True) (Admits config request) (fun _ _ => True)
      [] := by
  have hbind : ∀ {α : Type} {p : Api α} {f : α → Reply},
      p.Conforms (fun _ _ => True) (Admits config request) (fun _ _ => True) [] →
        (p.bind fun a => .ret (f a)).Conforms (fun _ _ => True) (Admits config request)
          (fun _ _ => True) [] := by
    intro α p f hp
    refine Program.Obeys.bind (fun _ _ => True) (hp.mono (fun _ _ h => h) ?_) fun _ _ _ => trivial
    rintro h (e | _) - <;> exact trivial
  by_cases hingest : ∃ secret payload, request = .ingest secret payload
  · obtain ⟨secret, payload, rfl⟩ := hingest
    refine hbind (Program.Conforms.within ownEntry (fun op r => ?_)
      (ingest_authentic config.secret secret payload) (fun _ _ _ => trivial) ?_ fun _ _ h => h)
    · rw [Program.map_answer]
      rfl
    · exact fun h op hop data hdata => ⟨secret, payload, rfl, hop⟩
  by_cases hchannel : ∃ request', request = .channel request'
  · obtain ⟨request', rfl⟩ := hchannel
    refine hbind (Program.Conforms.within channelEntry (fun op r => ?_)
      ((Channels.program_sends request').awaits (program_configures config.qq request'))
      (fun _ _ _ => trivial) (fun h op hop => hop) fun _ _ h => h)
    rw [Program.map_answer]
    rfl
  · have hmanages := program_manages config
      (fun secret payload heq => hingest ⟨secret, payload, heq⟩) (not_exists.mp hchannel)
    refine hmanages.obeys (fun h op hop => ?_) []
    cases op with
    | message op => exact hop.elim
    | channel op =>
        cases op with
        | findChannelById id => exact ⟨trivial, trivial⟩
        | now => exact ⟨trivial, trivial⟩
        | _ => exact hop.elim
    | _ => exact trivial

/-! ## What the store holds -/

def messagesCreated : Entry Op Answer ApiError → List Message
  | ⟨.message (.createMessage _), .ok m⟩ => [m.message]
  | _ => []

def messagesShown : Entry Op Answer ApiError → List Message
  | ⟨.channel (.task (.findTaskWithRelations _)), .ok (some task)⟩ => [task.message]
  | _ => []

/-- What a provider is given of a channel, with the channel it belongs to. -/
abbrev Destination := Id × NotificationChannelType × Js.Json

def destination (c : NotificationChannel) : Destination := (c.id, c.type, c.config)

def destinationsSet : Entry Op Answer ApiError → List Destination
  | ⟨.channel (.createChannel _), .ok c⟩ => [destination c]
  | ⟨.channel (.updateChannel _ data), .ok c⟩ =>
      if (Channels.given data.config).isSome then [destination c] else []
  | _ => []

def destinationsShown : Entry Op Answer ApiError → List Destination
  | ⟨.channel (.task (.findTaskWithRelations _)), .ok (some task)⟩ => [destination task.channel]
  | ⟨.channel (.findChannelById _), .ok (some c)⟩ => [destination c]
  | _ => []

/-- The channel and its type. -/
def Destination.kind (d : Destination) : Id × NotificationChannelType := (d.1, d.2.1)

def kindsSet : Entry Op Answer ApiError → List (Id × NotificationChannelType)
  | ⟨.channel (.createChannel _), .ok c⟩ => [(destination c).kind]
  | _ => []

def tokensCached : Entry Op Answer ApiError → List Js.Json
  | ⟨.channel (.cacheToken cached), _⟩ => [cached.token]
  | _ => []

def tokensShown : Entry Op Answer ApiError → List Js.Json
  | ⟨.channel .cachedToken, .ok (some cached)⟩ => [cached.token]
  | _ => []

/-- Neither a message nor the config of a channel is new. -/
structure Shrinks (s s' : Store) : Prop where
  messages : s'.messages ⊆ s.messages
  channels : s'.channels ⊆ s.channels

/-- The operations after which there may be new ones. -/
def Op.Stores : Op → Prop
  | .message (.createMessage _) => True
  | .channel (.createChannel _) => True
  | .channel (.updateChannel _ _) => True
  | _ => False

section Sources

variable {contains : String → String → Bool} {c : Channels.Choice} {w : Channels.World}

theorem Shrinks.same {s s' : Store} (hmessages : s'.messages = s.messages)
    (hchannels : s'.channels = s.channels) : Shrinks s s' :=
  ⟨hmessages ▸ List.Subset.refl _, hchannels ▸ List.Subset.refl _⟩

theorem query_shrinks {α : Type} {c : Choice} {s : Store} {applied : Except ApiError α × Store}
    (h : Shrinks s applied.2) : Shrinks s (c.query s applied).2 := by
  rcases c.query_cases s applied with ⟨error, -, heq⟩ | ⟨-, heq⟩ <;> rw [heq]
  · exact .same rfl rfl
  · exact h

theorem message_shrinks {op : Messages.Op} (hop : CreatesNone op) :
    Shrinks w.store (Messages.exec c.toChoice op w.store).2 := by
  have heffect := Messages.exec_effect c.toChoice op w.store
  generalize Messages.exec c.toChoice op w.store = applied at heffect ⊢
  obtain ⟨r, s⟩ := applied
  cases heffect with
  | created => exact hop.elim
  | _ => exact .same rfl rfl

theorem monitor_shrinks (op : Monitors.Op) :
    Shrinks w.store (Monitors.exec c.toChoice op w.store).2 := by
  cases op with
  | create data =>
      refine query_shrinks ?_
      unfold Monitors.createTarget
      split_ifs <;> exact .same rfl rfl
  | update id data =>
      refine query_shrinks ?_
      unfold Monitors.updateTarget
      split
      · exact .same rfl rfl
      · split
        · exact .same rfl rfl
        · split_ifs <;> exact .same rfl rfl
  | delete id =>
      refine query_shrinks ?_
      unfold Monitors.deleteTarget
      split
      · exact .same rfl rfl
      · exact ⟨List.filter_sublist.subset, List.Subset.refl _⟩
  | emit event => exact .same rfl rfl
  | _ => exact query_shrinks (.same rfl rfl)

theorem listing_shrinks {Filter Row Record : Type} (source : Listing.Source Filter Row Record)
    (op : Listing.Op Filter) (s : Store) : Shrinks s (Listing.exec source c.toChoice op s).2 := by
  cases op <;> exact query_shrinks (.same rfl rfl)

theorem channel_shrinks {op : Channels.Op} (hop : Credentials.KeepsChannels op) :
    Shrinks w.store (Channels.exec c op w).2.store := by
  cases op with
  | createChannel data => exact hop.elim
  | updateChannel id data => exact hop.elim
  | findTasks op => exact listing_shrinks _ op w.store
  | task op =>
      cases op with
      | findTaskWithRelations id => exact query_shrinks (.same rfl rfl)
      | updateTask id data =>
          refine query_shrinks ?_
          split_ifs <;> exact .same rfl rfl
      | _ => exact .same rfl rfl
  | now => exact .same rfl rfl
  | cachedToken => exact .same rfl rfl
  | cacheToken token => exact .same rfl rfl
  | fetch request => exact .same rfl rfl
  | _ => exact query_shrinks (.same rfl rfl)

theorem exec_shrinks {op : Op} (hop : ¬ op.Stores) :
    Shrinks w.store (exec contains c op w).2.store := by
  cases op with
  | message op =>
      refine message_shrinks ?_
      cases op with
      | createMessage data => exact hop trivial
      | _ => exact trivial
  | monitor op => exact monitor_shrinks op
  | channel op =>
      refine channel_shrinks ?_
      cases op with
      | createChannel data => exact hop trivial
      | updateChannel id data => exact hop trivial
      | _ => exact trivial
  | messages op => exact listing_shrinks _ op w.store
  | monitors op => exact listing_shrinks _ op w.store
  | deleteChannel id =>
      refine query_shrinks ?_
      unfold deleteChannelRow
      split
      · exact .same rfl rfl
      · exact ⟨List.Subset.refl _, List.filter_sublist.subset⟩
  | _ => exact query_shrinks (.same rfl rfl)

theorem query_kept {α β : Type} (view : Store → List β) (put : Except ApiError α → List β)
    {c : Choice} {s : Store} {applied : Except ApiError α × Store}
    (h : view applied.2 ⊆ put applied.1 ++ view s) :
    view (c.query s applied).2 ⊆ put (c.query s applied).1 ++ view s := by
  rcases c.query_cases s applied with ⟨error, -, heq⟩ | ⟨-, heq⟩ <;> rw [heq]
  · exact List.subset_append_right _ _
  · exact h

theorem messages_kept (op : Op) : (exec contains c op w).2.store.messages ⊆
    messagesCreated ⟨op, (exec contains c op w).1⟩ ++ w.store.messages := by
  by_cases hop : op.Stores
  · cases op with
    | message op =>
        cases op with
        | createMessage data =>
            have heffect := Messages.exec_effect c.toChoice (.createMessage data) w.store
            simp only [exec, Channels.World.on]
            generalize Messages.exec c.toChoice (.createMessage data) w.store = applied
              at heffect ⊢
            obtain ⟨r, s⟩ := applied
            cases heffect with
            | failed => exact List.subset_append_right _ _
            | created => exact List.perm_append_comm.subset
        | _ => exact hop.elim
    | channel op =>
        cases op with
        | createChannel data =>
            refine query_kept Store.messages (fun _ => []) ?_
            rcases Channels.createChannelRow_cases data c.now w.store with
              ⟨error, heq⟩ | ⟨config, -, heq⟩ <;> rw [heq] <;> exact List.Subset.refl _
        | updateChannel id data =>
            refine query_kept Store.messages (fun _ => []) ?_
            rcases Channels.updateChannelRow_cases id data w.store with
              ⟨error, heq⟩ | ⟨channel, row, -, -, heq⟩ <;> rw [heq] <;> exact List.Subset.refl _
        | _ => exact hop.elim
    | _ => exact hop.elim
  · exact List.subset_append_of_subset_right _ (exec_shrinks hop).messages

theorem found_rows {id : Id} {task : Notifications.TaskWithRelations}
    (h : (exec contains c (.channel (.task (.findTaskWithRelations id))) w).1 =
      .ok (some task)) :
    task.message ∈ w.store.messages ∧ task.channel ∈ w.store.channels := by
  have hfound := (exec_find contains h).1.symm
  simp only [Notifications.taskWithRelations?, Option.bind_eq_bind, Option.bind_eq_some_iff]
    at hfound
  obtain ⟨row, -, message, hmessage, target, -, channel, hchannel, heq⟩ := hfound
  obtain rfl := Option.some_inj.mp heq
  exact ⟨List.mem_of_find?_eq_some hmessage, List.mem_of_find?_eq_some hchannel⟩

theorem messages_source (config : Config) : Sourcing (system config)
    (fun w => w.store.messages) messagesCreated messagesShown where
  kept _ op _ := messages_kept op
  shown c op w m hm := by
    change m ∈ messagesShown ⟨op, (exec config.contains c op w).1⟩ at hm
    cases op with
    | channel op =>
        cases op with
        | task op =>
            cases op with
            | findTaskWithRelations id =>
                rcases hanswer : (exec config.contains c
                  (.channel (.task (.findTaskWithRelations id))) w).1 with e | _ | task <;>
                  rw [hanswer] at hm
                · cases hm
                · cases hm
                · obtain rfl := List.mem_singleton.mp hm
                  exact (found_rows hanswer).1
            | _ => cases hm
        | _ => cases hm
    | _ => cases hm
  env change := change.elim

theorem createChannelRow_destinations (data : Channels.ChannelData) (now : Time) (s : Store) :
    (Channels.createChannelRow data now s).2.channels.map destination ⊆
      destinationsSet ⟨.channel (.createChannel data), (Channels.createChannelRow data now s).1⟩ ++
        s.channels.map destination := by
  rcases Channels.createChannelRow_cases data now s with
    ⟨error, heq⟩ | ⟨config, -, heq⟩ <;> rw [heq]
  · exact List.subset_append_right _ _
  · rw [List.map_append]
    exact List.perm_append_comm.subset

/-- An update sets the config that it is given, and keeps the type. -/
theorem updatedChannel_destination {data : Channels.ChannelUpdate} {c row : NotificationChannel}
    (h : Channels.updatedChannel data c = .ok row) :
    (destination row).kind = (destination c).kind ∧
      ∀ config, Channels.given data.config = some config → config.column? = some row.config := by
  obtain ⟨-, hconfig, hfields⟩ := Channels.updatedChannel_ok h
  refine ⟨by rw [hfields]; rfl, fun config hgiven => ?_⟩
  rw [Channels.setConfig, hgiven] at hconfig
  exact Channels.storedConfig_ok.mp hconfig

theorem updateChannelRow_destinations (id : Id) (data : Channels.ChannelUpdate) (s : Store) :
    (Channels.updateChannelRow id data s).2.channels.map destination ⊆
      destinationsSet
          ⟨.channel (.updateChannel id data), (Channels.updateChannelRow id data s).1⟩ ++
        s.channels.map destination := by
  rcases Channels.updateChannelRow_cases id data s with
    ⟨error, heq⟩ | ⟨channel, row, hchannel, hrow, heq⟩ <;> rw [heq]
  · exact List.subset_append_right _ _
  obtain ⟨-, hconfig, hfields⟩ := Channels.updatedChannel_ok hrow
  have hset : destination row ∈ destinationsSet ⟨.channel (.updateChannel id data), .ok row⟩ ++
      s.channels.map destination := by
    rcases Channels.setConfig_ok hconfig with ⟨-, hold⟩ | ⟨config, hgiven, -⟩
    · refine List.mem_append_right _ (List.mem_map.mpr ⟨channel, ?_, ?_⟩)
      · exact List.mem_of_find?_eq_some hchannel
      · rw [hfields, hold]
        rfl
    · refine List.mem_append_left _ ?_
      simp [destinationsSet, hgiven]
  intro d hd
  obtain ⟨c', hc', rfl⟩ := List.mem_map.mp hd
  obtain ⟨c, hc, rfl⟩ := List.mem_map.mp hc'
  split_ifs
  · exact hset
  · exact List.mem_append_right _ (List.mem_map_of_mem hc)

theorem destinations_kept (op : Op) : (exec contains c op w).2.store.channels.map destination ⊆
    destinationsSet ⟨op, (exec contains c op w).1⟩ ++ w.store.channels.map destination := by
  by_cases hop : op.Stores
  · cases op with
    | message op =>
        cases op with
        | createMessage data =>
            have heffect := Messages.exec_effect c.toChoice (.createMessage data) w.store
            simp only [exec, Channels.World.on]
            generalize Messages.exec c.toChoice (.createMessage data) w.store = applied
              at heffect ⊢
            obtain ⟨r, s⟩ := applied
            cases heffect <;> exact List.subset_append_right _ _
        | _ => exact hop.elim
    | channel op =>
        cases op with
        | createChannel data =>
            exact query_kept (fun s : Store => s.channels.map destination)
              (fun r => destinationsSet ⟨.channel (.createChannel data), r⟩)
              (createChannelRow_destinations data c.now w.store)
        | updateChannel id data =>
            exact query_kept (fun s : Store => s.channels.map destination)
              (fun r => destinationsSet ⟨.channel (.updateChannel id data), r⟩)
              (updateChannelRow_destinations id data w.store)
        | _ => exact hop.elim
    | _ => exact hop.elim
  · exact List.subset_append_of_subset_right _ (List.map_subset _ (exec_shrinks hop).channels)

theorem destinations_source (config : Config) : Sourcing (system config)
    (fun w => w.store.channels.map destination) destinationsSet destinationsShown where
  kept _ op _ := destinations_kept op
  shown c op w d hd := by
    change d ∈ destinationsShown ⟨op, (exec config.contains c op w).1⟩ at hd
    cases op with
    | channel op =>
        cases op with
        | task op =>
            cases op with
            | findTaskWithRelations id =>
                rcases hanswer : (exec config.contains c
                  (.channel (.task (.findTaskWithRelations id))) w).1 with e | _ | task <;>
                  rw [hanswer] at hd
                · cases hd
                · cases hd
                · obtain rfl := List.mem_singleton.mp hd
                  exact List.mem_map_of_mem (found_rows hanswer).2
            | _ => cases hd
        | findChannelById id =>
            rcases hanswer : (exec config.contains c (.channel (.findChannelById id)) w).1 with
              e | _ | channel <;> rw [hanswer] at hd
            · cases hd
            · cases hd
            · obtain rfl := List.mem_singleton.mp hd
              have hfound := Except.ok.inj (query_ok hanswer)
              exact List.mem_map_of_mem (List.mem_of_find?_eq_some hfound)
        | _ => cases hd
    | _ => cases hd
  env change := change.elim

theorem updateChannelRow_kinds (id : Id) (data : Channels.ChannelUpdate) (s : Store) :
    (Channels.updateChannelRow id data s).2.channels.map (fun c => (destination c).kind) ⊆
      s.channels.map fun c => (destination c).kind := by
  rcases Channels.updateChannelRow_cases id data s with
    ⟨error, heq⟩ | ⟨channel, row, hchannel, hrow, heq⟩ <;> rw [heq]
  · exact List.Subset.refl _
  intro kind hkind
  obtain ⟨c', hc', rfl⟩ := List.mem_map.mp hkind
  obtain ⟨c, hc, rfl⟩ := List.mem_map.mp hc'
  split_ifs
  · rw [(updatedChannel_destination hrow).1]
    exact List.mem_map_of_mem (List.mem_of_find?_eq_some hchannel)
  · exact List.mem_map_of_mem hc

theorem kindsSet_of_destinationsSet {op : Op}
    (hop : ∀ id data, op ≠ .channel (.updateChannel id data)) (r : Except ApiError (Answer op)) :
    (destinationsSet ⟨op, r⟩).map Destination.kind ⊆ kindsSet ⟨op, r⟩ := by
  cases op with
  | channel op =>
      cases op with
      | createChannel data => cases r <;> exact List.Subset.refl _
      | updateChannel id data => exact absurd rfl (hop id data)
      | _ => exact List.nil_subset _
  | _ => exact List.nil_subset _

/-- A row keeps the type that it was created with. -/
theorem kinds_kept (op : Op) :
    (exec contains c op w).2.store.channels.map (fun c => (destination c).kind) ⊆
      kindsSet ⟨op, (exec contains c op w).1⟩ ++
        w.store.channels.map fun c => (destination c).kind := by
  by_cases hop : ∃ id data, op = .channel (.updateChannel id data)
  · obtain ⟨id, data, rfl⟩ := hop
    exact query_kept (fun s : Store => s.channels.map fun c => (destination c).kind) (fun _ => [])
      (updateChannelRow_kinds id data w.store)
  · have hkept : ((exec contains c op w).2.store.channels.map destination).map Destination.kind ⊆
        _ := List.map_subset Destination.kind (destinations_kept op)
    rw [List.map_append, List.map_map, List.map_map] at hkept
    refine List.Subset.trans hkept (List.append_subset.mpr ⟨?_, List.subset_append_right _ _⟩)
    refine List.subset_append_of_subset_left _ (kindsSet_of_destinationsSet ?_ _)
    exact fun id data heq => hop ⟨id, data, heq⟩

theorem kinds_source (config : Config) : Sourcing (system config)
    (fun w => w.store.channels.map fun c => (destination c).kind) kindsSet
    (fun e => (destinationsShown e).map Destination.kind) where
  kept _ op _ := kinds_kept op
  shown c op w := by
    have hshown := List.map_subset Destination.kind ((destinations_source config).shown c op w)
    rwa [List.map_map] at hshown
  env change := change.elim

theorem exec_cachedToken {op : Op} (hop : ∀ cached, op ≠ .channel (.cacheToken cached)) :
    (exec contains c op w).2.cachedToken = w.cachedToken := by
  cases op with
  | channel op =>
      cases op with
      | cacheToken cached => exact absurd rfl (hop cached)
      | _ => rfl
  | _ => rfl

theorem tokens_source (config : Config) : Sourcing (system config)
    (fun w => (w.cachedToken.map Channels.CachedToken.token).toList) tokensCached tokensShown where
  kept c op w := by
    by_cases hop : ∃ cached, op = .channel (.cacheToken cached)
    · obtain ⟨cached, rfl⟩ := hop
      exact List.subset_append_left _ _
    · refine List.subset_append_of_subset_right _ ?_
      change (Option.map _ (exec config.contains c op w).2.cachedToken).toList ⊆ _
      rw [exec_cachedToken (not_exists.mp hop)]
      exact List.Subset.refl _
  shown c op w token htoken := by
    change token ∈ tokensShown ⟨op, (exec config.contains c op w).1⟩ at htoken
    cases op with
    | channel op =>
        cases op with
        | cachedToken =>
            cases hcached : w.cachedToken with
            | none =>
                simp only [exec, Channels.exec, hcached] at htoken
                cases htoken
            | some cached =>
                simp only [exec, Channels.exec, hcached] at htoken
                exact htoken
        | _ => cases htoken
    | _ => cases htoken
  env change := change.elim

end Sources

/-! ## What an answer tells -/

/-- Rows are found under their keys, and a row is created from its data. -/
def Genuine : Entry Op Answer ApiError → Prop
  | ⟨.message (.createMessage data), .ok m⟩ => ∃ time, data.publishedAt = some time ∧
      m.message = Messages.messageRow data m.message.id time
  | ⟨.message (.findTelegramTargetByExternalId externalId), .ok (some target)⟩ =>
      Messages.isTelegram target.type = true ∧ target.externalId = externalId ∧
        target.enabled = true
  | ⟨.message (.findTargetByTypeExternalId type externalId), .ok (some target)⟩ =>
      target.type = type ∧ target.externalId = externalId
  | ⟨.channel (.task (.findTaskWithRelations id)), .ok (some task)⟩ =>
      task.task.id = id ∧ task.task.messageId = task.message.id ∧
        task.message.targetId = task.target.id ∧ task.task.channelId = task.channel.id
  | ⟨.channel (.findChannelById id), .ok (some channel)⟩ => channel.id = id
  | ⟨.channel (.createChannel data), .ok row⟩ =>
      row.type = data.type ∧ data.config.column? = some row.config
  | ⟨.channel (.updateChannel id data), .ok row⟩ => row.id = id ∧
      ∀ config, Channels.given data.config = some config → config.column? = some row.config
  | _ => True

theorem message_genuine (c : Choice) (op : Messages.Op) (s : Store) :
    Genuine ⟨.message op, (Messages.exec c op s).1⟩ := by
  have heffect := Messages.exec_effect c op s
  generalize Messages.exec c op s = applied at heffect ⊢
  obtain ⟨r, s'⟩ := applied
  dsimp only at heffect ⊢
  cases heffect with
  | @telegramTarget externalId found hfound =>
      cases found with
      | none => exact trivial
      | some target => exact (Telegram.mem_telegramTargets.mp (hfound target rfl)).2
  | @target type externalId =>
      cases hfound : s.targets.find? fun t => t.type = type && t.externalId = externalId with
      | none => exact trivial
      | some target => simpa [Genuine] using List.find?_some hfound
  | @created data time target hdate => exact ⟨time, hdate, rfl⟩
  | @failed op => cases op <;> exact trivial
  | _ => exact trivial

theorem exec_genuine (contains : String → String → Bool) (c : Channels.Choice) (op : Op)
    (w : Channels.World) : Genuine ⟨op, (exec contains c op w).1⟩ := by
  cases op with
  | message op => exact message_genuine c.toChoice op w.store
  | channel op =>
      cases op with
      | task op =>
          cases op with
          | findTaskWithRelations id =>
              rcases hanswer : (exec contains c (.channel (.task (.findTaskWithRelations id))) w).1
                with e | _ | task
              · exact trivial
              · exact trivial
              have hfound := (exec_find contains hanswer).1.symm
              simp only [Notifications.taskWithRelations?, Option.bind_eq_bind,
                Option.bind_eq_some_iff] at hfound
              obtain ⟨row, hrow, message, hmessage, target, htarget, channel, hchannel, heq⟩ :=
                hfound
              obtain rfl := Option.some_inj.mp heq
              refine ⟨by simpa using List.find?_some hrow, ?_, ?_, ?_⟩ <;> symm
              · simpa using List.find?_some hmessage
              · simpa using List.find?_some htarget
              · simpa using List.find?_some hchannel
          | _ => exact trivial
      | findChannelById id =>
          rcases hanswer : (exec contains c (.channel (.findChannelById id)) w).1 with
            e | _ | channel
          · exact trivial
          · exact trivial
          · have hfound := Except.ok.inj (query_ok hanswer)
            simpa [Genuine] using List.find?_some hfound
      | createChannel data =>
          cases hanswer : (exec contains c (.channel (.createChannel data)) w).1 with
          | error e => exact trivial
          | ok row =>
              have hrow := query_ok hanswer
              rcases Channels.createChannelRow_cases data c.now w.store with
                ⟨error, heq⟩ | ⟨config, hheld, heq⟩ <;> rw [heq] at hrow
              · cases hrow
              · obtain rfl := Except.ok.inj hrow
                exact ⟨rfl, hheld⟩
      | updateChannel id data =>
          cases hanswer : (exec contains c (.channel (.updateChannel id data)) w).1 with
          | error e => exact trivial
          | ok row =>
              have hrow := query_ok hanswer
              rcases Channels.updateChannelRow_cases id data w.store with
                ⟨error, heq⟩ | ⟨channel, new, hchannel, hnew, heq⟩ <;> rw [heq] at hrow
              · cases hrow
              · obtain rfl := Except.ok.inj hrow
                obtain ⟨hkind, hconfig⟩ := updatedChannel_destination hnew
                have hid : channel.id = id := by simpa using List.find?_some hchannel
                exact ⟨(Prod.mk.inj hkind).1.trans hid, hconfig⟩
      | _ => exact trivial
  | _ => exact trivial

theorem genuine_of_run {config : Config} {allowed : ApiPool → ApiEvent → Prop} {P : ApiPool}
    (hrun : (system config).Run allowed initial P) :
    ∀ c ∈ P.calls, ∀ e ∈ c.history, Genuine e := by
  let fact (e : Entry Op Answer ApiError) (_ : Channels.World) : Prop := Genuine e
  have hfacts : ∀ c ∈ P.calls, ∀ e ∈ c.history, fact e P.store :=
    hrun.facts rfl (fun P choice op _ => exec_genuine config.contains choice op P.store)
      (fun _ _ _ _ h => h) fun _ change => change.elim
  exact hfacts

/-! ## The theorem -/

/-- The call has written the row from its payload, for a chat that it found monitored. -/
structure ReceivedBy (config : Config) (c : RunningCall)
    (payload : Telegram.IngestTelegramMessageDto) (m : Message) : Prop where
  label : c.label = .ingest (some config.secret) payload
  secret : config.secret ≠ ""
  monitored : ∃ target, ⟨.message (.findTelegramTargetByExternalId payload.chatId),
      .ok (some target)⟩ ∈ c.history ∧ Messages.isTelegram target.type = true ∧
    target.externalId = payload.chatId ∧ target.enabled = true ∧
    ∃ row, ⟨.message (.findTargetByTypeExternalId target.type payload.chatId),
      .ok (some row)⟩ ∈ c.history ∧ row.type = target.type ∧ row.externalId = payload.chatId ∧
      m.targetId = row.id
  holds : Holds payload m

def Received (config : Config) (P : ApiPool) (m : Message) : Prop :=
  ∃ c ∈ P.calls, ∃ payload, ReceivedBy config c payload m

/-- The call has created the row of the channel. -/
structure CreatedBy (c : RunningCall) (dto : Channels.CreateChannelDto)
    (channel row : NotificationChannel) : Prop where
  label : c.label = .channel (.createChannel dto)
  created : ∃ data, ⟨.channel (.createChannel data), .ok row⟩ ∈ c.history
  id : row.id = channel.id
  type : row.type = channel.type
  asked : dto.type = channel.type

/-- The call has set the config of the channel: the column holds it for the config that
the request carries. -/
inductive SetBy (c : RunningCall) (channel : NotificationChannel) : Prop
  | created {dto : Channels.CreateChannelDto} {row : NotificationChannel}
      (hcreated : CreatedBy c dto channel row) (hrow : row.config = channel.config)
      (hconfig : dto.config.column? = some channel.config) : SetBy c channel
  | updated {dto : Channels.UpdateChannelDto} {data : Channels.ChannelUpdate}
      {row : NotificationChannel} (hlabel : c.label = .channel (.updateChannel channel.id dto))
      (hupdated : ⟨.channel (.updateChannel channel.id data), .ok row⟩ ∈ c.history)
      (hrow : destination row = destination channel)
      (hconfig : (Channels.given dto.config).bind Js.Json.column? = some channel.config) :
      SetBy c channel

/-- Requests for the channel have set its type and its config. -/
structure Configured (P : ApiPool) (channel : NotificationChannel) : Prop where
  created : ∃ c ∈ P.calls, ∃ dto row, CreatedBy c dto channel row
  set : ∃ c ∈ P.calls, SetBy c channel

/-- The endpoint has granted the token to a call. -/
def Granted (config : Config) (P : ApiPool) (token : Js.Json) : Prop :=
  ∃ c ∈ P.calls, Channels.Issued config.qq (c.history.filterMap channelEntry) token

/-- Why a call has sent a request. -/
inductive Sourced (config : Config) (P : ApiPool) (c : RunningCall) : Channels.HttpRequest → Prop
  | token : Sourced config P c (Channels.QqClientService.tokenRequest config.qq)
  | notification {task : Notifications.TaskWithRelations} {request : Channels.HttpRequest}
      (hfound : ⟨.channel (.task (.findTaskWithRelations task.task.id)), .ok (some task)⟩ ∈
        c.history)
      (hmessage : task.task.messageId = task.message.id)
      (hchannel : task.task.channelId = task.channel.id)
      (hreceived : Received config P task.message) (hconfigured : Configured P task.channel)
      (hrequest : Channels.MessageRequest config.qq (Granted config P)
        (Notifications.buildPayload task) task.channel.type task.channel.config request) :
      Sourced config P c request
  | test {channel : NotificationChannel} {request : Channels.HttpRequest}
      (hfound : ⟨.channel (.findChannelById channel.id), .ok (some channel)⟩ ∈ c.history)
      (hconfigured : Configured P channel)
      (hrequest : Channels.MessageRequest config.qq (Granted config P) Channels.testPayload
        channel.type channel.config request) : Sourced config P c request

/-- Where the rows of the messages and the requests to the platforms come from. -/
structure Provenance (config : Config) (P : ApiPool) : Prop where
  messages : ∀ m ∈ P.store.store.messages, Received config P m
  requests : ∀ c ∈ P.calls, ∀ request r, ⟨.channel (.fetch request), r⟩ ∈ c.history →
    Sourced config P c request

section Runs

variable {config : Config} {allowed : ApiPool → ApiEvent → Prop} {P : ApiPool}

theorem admitted_of_run (hrun : (system config).Run allowed initial P) {c : RunningCall}
    (hc : c ∈ P.calls) {e : Entry Op Answer ApiError} (he : e ∈ c.history) :
    ∃ h, h <:+ c.history ∧ Admits config c.label h e.op :=
  (hrun.conforms rfl (Admits config) (program_admits config)
    (fun _ _ _ _ _ _ _ _ _ => trivial) c hc).1.admitted he

theorem mem_of_channelEntry {h : History} {op : Channels.Op}
    {r : Except ApiError (Channels.Answer op)} (hmem : ⟨op, r⟩ ∈ h.filterMap channelEntry) :
    ⟨.channel op, r⟩ ∈ h := by
  obtain ⟨⟨op', r'⟩, he, hown⟩ := List.mem_filterMap.mp hmem
  cases op' with
  | channel op' =>
      cases hown
      exact he
  | _ => cases hown

theorem mem_messagesCreated {e : Entry Op Answer ApiError} {m : Message}
    (hm : m ∈ messagesCreated e) : ∃ data record,
      e = ⟨.message (.createMessage data), .ok record⟩ ∧ m = record.message := by
  obtain ⟨op, r⟩ := e
  cases op with
  | message op =>
      cases op with
      | createMessage data =>
          cases r with
          | error e => cases hm
          | ok record => exact ⟨data, record, rfl, List.mem_singleton.mp hm⟩
      | _ => cases hm
  | _ => cases hm

theorem holds_row (target row : MonitorTarget) (payload : Telegram.IngestTelegramMessageDto)
    (id : Id) {time : Time} (htime : Telegram.publishedAt payload.date = some time) :
    Holds payload (Messages.messageRow (Messages.messageData (normalized target payload) row) id
      time) := by
  refine ⟨rfl, rfl, rfl, ?_, ?_, ?_, rfl, htime⟩ <;>
    simp [Messages.messageRow, Messages.messageData, normalized, Telegram.toNormalizedMessage,
      Option.bind_map]

theorem received_of_created (hrun : (system config).Run allowed initial P) {m : Message}
    (hm : m ∈ P.collect messagesCreated) : Received config P m := by
  obtain ⟨c, hc, e, he, hm⟩ := Pool.mem_collect.mp hm
  obtain ⟨data, record, rfl, rfl⟩ := mem_messagesCreated hm
  obtain ⟨h, hsuffix, hadmits⟩ := admitted_of_run hrun hc he
  obtain ⟨secret, payload, hlabel, hsecret, rfl, target, row, htarget, hrow, rfl⟩ :=
    hadmits data rfl
  obtain ⟨time, htime, hrecord⟩ := genuine_of_run hrun c hc _ he
  have htarget := hsuffix.subset (mem_of_own htarget)
  have hrow := hsuffix.subset (mem_of_own hrow)
  obtain ⟨htype, hchat, henabled⟩ := genuine_of_run hrun c hc _ htarget
  obtain ⟨hrowType, hrowChat⟩ := genuine_of_run hrun c hc _ hrow
  rw [hchat] at hrow hrowChat
  refine ⟨c, hc, payload, hlabel, hsecret, ⟨target, htarget, htype, hchat, henabled, row, hrow,
    hrowType, hrowChat, ?_⟩, ?_⟩
  · rw [hrecord]
    rfl
  · rw [hrecord]
    exact holds_row target row payload _ htime

theorem mem_kindsSet {e : Entry Op Answer ApiError} {kind : Id × NotificationChannelType}
    (hkind : kind ∈ kindsSet e) : ∃ data, ∃ row : NotificationChannel,
      e = ⟨.channel (.createChannel data), .ok row⟩ ∧ kind = (destination row).kind := by
  obtain ⟨op, r⟩ := e
  cases op with
  | channel op =>
      cases op with
      | createChannel data =>
          cases r with
          | error e => cases hkind
          | ok row => exact ⟨data, row, rfl, List.mem_singleton.mp hkind⟩
      | _ => cases hkind
  | _ => cases hkind

theorem mem_destinationsSet {e : Entry Op Answer ApiError} {d : Destination}
    (hd : d ∈ destinationsSet e) :
    (∃ data, ∃ row : NotificationChannel,
        e = ⟨.channel (.createChannel data), .ok row⟩ ∧ d = destination row) ∨
      ∃ id data config, ∃ row : NotificationChannel,
        e = ⟨.channel (.updateChannel id data), .ok row⟩ ∧
          Channels.given data.config = some config ∧ d = destination row := by
  obtain ⟨op, r⟩ := e
  cases op with
  | channel op =>
      cases op with
      | createChannel data =>
          cases r with
          | error e => cases hd
          | ok row => exact Or.inl ⟨data, row, rfl, List.mem_singleton.mp hd⟩
      | updateChannel id data =>
          cases r with
          | error e => cases hd
          | ok row =>
              simp only [destinationsSet] at hd
              split_ifs at hd with hgiven
              · obtain ⟨config, hgiven⟩ := Option.isSome_iff_exists.mp hgiven
                exact Or.inr ⟨id, data, config, row, rfl, hgiven, List.mem_singleton.mp hd⟩
              · cases hd
      | _ => cases hd
  | _ => cases hd

theorem createdBy_of_entry (hrun : (system config).Run allowed initial P) {c : RunningCall}
    (hc : c ∈ P.calls) {data : Channels.ChannelData} {row channel : NotificationChannel}
    (he : ⟨.channel (.createChannel data), .ok row⟩ ∈ c.history)
    (hkind : (destination channel).kind = (destination row).kind) :
    ∃ dto, CreatedBy c dto channel row ∧ dto.config.column? = some row.config := by
  obtain ⟨h, -, -, dto, hlabel, hdtoType, hdtoConfig⟩ := admitted_of_run hrun hc he
  obtain ⟨htype, hheld⟩ := genuine_of_run hrun c hc _ he
  obtain ⟨hid, hsame⟩ := Prod.mk.inj hkind
  have hsame : row.type = channel.type := hsame.symm
  refine ⟨dto, ⟨hlabel, ⟨data, he⟩, hid.symm, hsame, ?_⟩, hdtoConfig ▸ hheld⟩
  rw [← hdtoType, ← htype, hsame]

theorem setBy_of_set (hrun : (system config).Run allowed initial P) {c : RunningCall}
    (hc : c ∈ P.calls) {e : Entry Op Answer ApiError} (he : e ∈ c.history)
    {channel : NotificationChannel} (hset : destination channel ∈ destinationsSet e) :
    SetBy c channel := by
  rcases mem_destinationsSet hset with ⟨data, row, rfl, hrow⟩ | ⟨id, data, settings, row, rfl,
    hgiven, hrow⟩
  · obtain ⟨dto, hcreated, hheld⟩ := createdBy_of_entry hrun hc he (congrArg Destination.kind hrow)
    have hconfig : row.config = channel.config := (congrArg (fun d => d.2.2) hrow).symm
    exact .created hcreated hconfig (hconfig ▸ hheld)
  · obtain ⟨h, -, -, dto, hlabel, hdto⟩ := admitted_of_run hrun hc he
    obtain ⟨hid, hheld⟩ := genuine_of_run hrun c hc _ he
    have hchannel : id = channel.id := hid.symm.trans (congrArg Prod.fst hrow).symm
    subst hchannel
    have hconfig : row.config = channel.config := (congrArg (fun d => d.2.2) hrow).symm
    refine .updated hlabel he hrow.symm ?_
    rw [← hdto, hgiven, Option.bind_some, hheld settings hgiven, hconfig]

/-- What a call has been shown of a channel was set by requests for it. -/
theorem configured_of_shown (hrun : (system config).Run allowed initial P) {c : RunningCall}
    (hc : c ∈ P.calls) {e : Entry Op Answer ApiError} (he : e ∈ c.history)
    {channel : NotificationChannel} (hshown : destination channel ∈ destinationsShown e) :
    Configured P channel := by
  have hcollected : destination channel ∈ P.collect destinationsShown :=
    Pool.mem_collect.mpr ⟨c, hc, e, he, hshown⟩
  constructor
  · have hkind : (destination channel).kind ∈ P.collect kindsSet :=
      (kinds_source config).seen hrun rfl rfl
        (Pool.mem_collect.mpr ⟨c, hc, e, he, List.mem_map_of_mem hshown⟩)
    obtain ⟨c', hc', e', he', hkind⟩ := Pool.mem_collect.mp hkind
    obtain ⟨data, row, rfl, hsame⟩ := mem_kindsSet hkind
    obtain ⟨dto, hcreated, -⟩ := createdBy_of_entry hrun hc' he' hsame
    exact ⟨c', hc', dto, row, hcreated⟩
  · obtain ⟨c', hc', e', he', hset⟩ :=
      Pool.mem_collect.mp ((destinations_source config).seen hrun rfl rfl hcollected)
    exact ⟨c', hc', setBy_of_set hrun hc' he' hset⟩

theorem granted_of_cached (hrun : (system config).Run allowed initial P) {token : Js.Json}
    (hcached : token ∈ P.collect tokensCached) : Granted config P token := by
  obtain ⟨c, hc, ⟨op, r⟩, he, htoken⟩ := Pool.mem_collect.mp hcached
  obtain ⟨h, hsuffix, hadmits⟩ := admitted_of_run hrun hc he
  cases op with
  | channel op =>
      cases op with
      | cacheToken cached =>
          obtain rfl := List.mem_singleton.mp htoken
          exact ⟨c, hc, hadmits.1.subset (hsuffix.filterMap channelEntry).subset⟩
      | _ => cases htoken
  | _ => cases htoken

theorem granted_of_held (hrun : (system config).Run allowed initial P) {c : RunningCall}
    (hc : c ∈ P.calls) {h : History} (hsuffix : h <:+ c.history) {token : Js.Json}
    (hheld : Channels.Held config.qq (h.filterMap channelEntry) token) :
    Granted config P token := by
  rcases hheld with hissued | hshown
  · exact ⟨c, hc, hissued.subset (hsuffix.filterMap channelEntry).subset⟩
  · obtain ⟨cached, hcached, rfl⟩ := Channels.mem_tokensShown hshown
    have he := hsuffix.subset (mem_of_channelEntry hcached)
    refine granted_of_cached hrun ((tokens_source config).seen hrun rfl rfl ?_)
    exact Pool.mem_collect.mpr ⟨c, hc, _, he, List.mem_singleton_self _⟩

theorem sourced_of_fetch (hrun : (system config).Run allowed initial P) {c : RunningCall}
    (hc : c ∈ P.calls) {request : Channels.HttpRequest}
    {r : Except ApiError Channels.HttpResponse}
    (hfetch : ⟨.channel (.fetch request), r⟩ ∈ c.history) : Sourced config P c request := by
  obtain ⟨h, hsuffix, hasks, -⟩ := admitted_of_run hrun hc hfetch
  have hgranted : ∀ token, Channels.Held config.qq (h.filterMap channelEntry) token →
      Granted config P token := fun token => granted_of_held hrun hc hsuffix
  rcases hasks with rfl | ⟨task, htask, hrequest⟩ | ⟨channel, hchannel, hrequest⟩
  · exact .token
  · obtain ⟨id, hentry⟩ := Channels.mem_tasksFound htask
    have he := hsuffix.subset (mem_of_channelEntry hentry)
    obtain ⟨rfl, hmessage, -, hchannel⟩ := genuine_of_run hrun c hc _ he
    have hshown : task.message ∈ P.collect messagesShown :=
      Pool.mem_collect.mpr ⟨c, hc, _, he, List.mem_singleton_self _⟩
    refine .notification he hmessage hchannel ?_ ?_ (hrequest.mono hgranted)
    · exact received_of_created hrun ((messages_source config).seen hrun rfl rfl hshown)
    · exact configured_of_shown hrun hc he (List.mem_singleton_self _)
  · obtain ⟨id, hentry⟩ := Channels.mem_channelsFound hchannel
    have he := hsuffix.subset (mem_of_channelEntry hentry)
    obtain rfl := genuine_of_run hrun c hc _ he
    refine .test he (configured_of_shown hrun hc he ?_) (hrequest.mono hgranted)
    exact List.mem_singleton_self _

end Runs

/-- Every row of the messages and every request to a platform has a source, in every
state that calls of the API reach. -/
theorem notifications_sourced {config : Config} {allowed : ApiPool → ApiEvent → Prop} {P : ApiPool}
    (hrun : (system config).Run allowed initial P) : Provenance config P where
  messages _ hm := received_of_created hrun ((messages_source config).stored hrun rfl hm)
  requests _ hc _ _ hfetch := sourced_of_fetch hrun hc hfetch

/-- The task of the post is attempted: a token is asked for, then the text is sent. -/
def notifyEvents : List ApiEvent :=
  ingestEvents ++ .spawn (.channel (.processTask 3)) ::
    List.replicate 10 (.perform 3 { calm with response := some tokenResponse })

theorem notifications_sourced_sample :
    let P := (system sampleConfig).runList samplePool notifyEvents
    P.calls.map (fun c => c.history.countP fetches) = [0, 0, 0, 2] ∧
      Provenance sampleConfig P := by
  intro P
  have hrun : (system sampleConfig).Run (fun _ _ => True) initial P :=
    samplePool_run.list (by simp [Machine.AllowedList, notifyEvents, ingestEvents])
  exact ⟨by decide +kernel, notifications_sourced hrun⟩

end SocialMonitor.Backend

import SocialMonitor.Async.Coupled
import SocialMonitor.Channels.Service

/-!
# Channels without their secrets

A channel is masked by what its provider can make of its config.  Two worlds
agree if they are the same up to the configs and their channels have the same
masks; every operation keeps worlds in agreement and answers alike.
-/

namespace SocialMonitor.Channels

open Async Notifications

/-- What a provider makes of a config: it rejects it, has no address to send to,
cannot name the chat in its log, or none of these. -/
inductive Reading where
  | rejected
  | unaddressable
  | unnamed
  | usable
deriving DecidableEq

def hasText (v : Js.Json) : Bool := v.toText.isOk

def encodes (v : Js.Json) : Bool := (QqClientService.encodeURIComponent v).isOk

def Reading.ofTexts : Bool → Bool → Reading
  | false, _ => .unaddressable
  | true, false => .unnamed
  | true, true => .usable

theorem Reading.ofTexts_eq : ∀ {token chat token' chat' : Bool},
    ofTexts token chat = ofTexts token' chat' → token = token' ∧ (token = true → chat = chat') := by
  decide

theorem Reading.ofTexts_ne (token chat : Bool) : ofTexts token chat ≠ .rejected := by
  cases token <;> cases chat <;> decide

def reading (type : NotificationChannelType) (config : Js.Json) : Reading :=
  match type with
  | .telegram =>
      match Telegram.parseConfig config with
      | .error _ => .rejected
      | .ok (botToken, chatId) => .ofTexts (hasText botToken) (hasText chatId)
  | .wechat => .usable
  | .qq =>
      match Qq.parseConfig config with
      | .error _ => .rejected
      | .ok groupOpenid => if encodes groupOpenid then .usable else .unaddressable

/-- A token and a chat that are strings can be used. -/
theorem reading_of_texts {config : Js.Json} {botToken chatId : Js.CodeUnits}
    (htoken : truthy? config "botToken" = some (.str botToken))
    (hchat : truthy? config "chatId" = some (.str chatId)) :
    reading .telegram config = .usable := by
  simp only [reading, Telegram.parseConfig, htoken, hchat]
  rfl

structure MaskedChannel where
  id : Id
  name : String
  type : NotificationChannelType
  enabled : Bool
  reading : Reading
  createdAt : Time
deriving DecidableEq

def mask (c : NotificationChannel) : MaskedChannel where
  id := c.id
  name := c.name
  type := c.type
  enabled := c.enabled
  reading := reading c.type c.config
  createdAt := c.createdAt

/-- The same world up to configs, with the same masks. -/
def Agree (w w' : World) : Prop :=
  ∃ channels, w' = { w with store := { w.store with channels := channels } } ∧
    w.store.channels.map mask = channels.map mask

def Same {α β : Type} (view : α → β) (a b : α) : Prop := view a = view b

def maskRelations (t : TaskWithRelations) :
    NotificationTask × Message × MonitorTarget × MaskedChannel :=
  (t.task, t.message, t.target, mask t.channel)

def maskTask (t : TaskWithChannel) : NotificationTask × MaskedChannel := (t.task, mask t.channel)

/-- The answers show the same masks. -/
def Answers : (op : Op) → Answer op → Answer op → Prop
  | .findChannels _ => Same (List.map mask)
  | .findChannelById _ => Same (Option.map mask)
  | .createChannel _ => Same mask
  | .updateChannel _ _ => Same mask
  | .findTasks (.findMany _ _ _) => Same (List.map maskRelations)
  | .task (.findTaskWithRelations _) => Same (Option.map maskRelations)
  | .findNotifications _ => Same (List.map maskTask)
  | _ => Eq

theorem Same.option {α β : Type} {view : α → β} {a a' : Option α}
    (h : Same (Option.map view) a a') :
    a = none ∧ a' = none ∨ ∃ x x', a = some x ∧ a' = some x' ∧ Same view x x' := by
  cases a with
  | none => exact Or.inl ⟨rfl, Option.map_eq_none_iff.mp h.symm⟩
  | some x =>
      obtain ⟨x', hx', hview⟩ := Option.map_eq_some_iff.mp h.symm
      exact Or.inr ⟨x, x', rfl, hx', hview.symm⟩

variable {w w' : World} {s : Store} {channels : List NotificationChannel}

theorem Agree.refl (w : World) : Agree w w := ⟨w.store.channels, rfl, rfl⟩

theorem Agree.store (h : Agree w w') :
    w'.store.tasks = w.store.tasks ∧ w'.store.events = w.store.events := by
  obtain ⟨channels, rfl, -⟩ := h
  exact ⟨rfl, rfl⟩

/-! ## Lookups -/

theorem channel?_mask (h : s.channels.map mask = channels.map mask) (id : Id) :
    Same (Option.map mask) (s.channel? id) ({ s with channels := channels }.channel? id) := by
  have hfind : ∀ rows : List NotificationChannel, ((rows.find? fun c => c.id = id).map mask) =
      (rows.map mask).find? fun c => c.id = id := by
    intro rows
    rw [List.find?_map]
    rfl
  unfold Same Store.channel?
  rw [hfind, hfind, h]

theorem mapM_mask {α β γ : Type} {view : β → γ} {f f' : α → Except ApiError β}
    (h : ∀ a, Program.Alike (Same view) (f a) (f' a)) (rows : List α) :
    Program.Alike (Same (List.map view)) (rows.mapM f) (rows.mapM f') := by
  induction rows with
  | nil => exact rfl
  | cons a rows ih =>
      rw [List.mapM_cons, List.mapM_cons]
      exact (h a).bind fun b b' hb => ih.bind fun bs bs' hbs => congrArg₂ List.cons hb hbs

theorem map_relations (s : Store) (task : NotificationTask) :
    (relations? s task).map maskRelations =
    (s.message? task.messageId).bind fun message => (s.target? message.targetId).bind fun target =>
      ((s.channel? task.channelId).map mask).map fun channel =>
        (task, message, target, channel) := by
  unfold relations?
  cases s.message? task.messageId with
  | none => rfl
  | some message =>
      cases htarget : s.target? message.targetId with
      | none => simp [htarget]
      | some target => cases s.channel? task.channelId <;> simp [htarget, maskRelations]

theorem relations_mask (h : s.channels.map mask = channels.map mask) (task : NotificationTask) :
    Same (Option.map maskRelations) (relations? s task)
      (relations? { s with channels := channels } task) := by
  unfold Same
  rw [map_relations, map_relations, channel?_mask h]
  rfl

theorem taskWithRelations_mask (h : s.channels.map mask = channels.map mask) (id : Id) :
    Same (Option.map maskRelations) (taskWithRelations? s id)
      (taskWithRelations? { s with channels := channels } id) := by
  have heq : ∀ s : Store, taskWithRelations? s id = (s.task? id).bind (relations? s) := fun _ => rfl
  unfold Same
  rw [heq, heq]
  cases htask : s.task? id with
  | none =>
      have htask' : { s with channels := channels }.task? id = none := htask
      rw [htask']
      rfl
  | some task =>
      have htask' : { s with channels := channels }.task? id = some task := htask
      rw [htask']
      exact relations_mask h task

theorem record_mask (h : s.channels.map mask = channels.map mask) (task : NotificationTask) :
    Program.Alike (Same maskRelations) (taskSource.record s task)
      (taskSource.record { s with channels := channels } task) := by
  unfold Listing.Source.record
  rcases (relations_mask h task).option with ⟨hleft, hright⟩ | ⟨t, t', hleft, hright, hmask⟩
  · simp only [taskSource, hleft, hright]
    exact rfl
  · simp only [taskSource, hleft, hright]
    exact hmask

theorem taskWithChannel_mask (h : s.channels.map mask = channels.map mask)
    (task : NotificationTask) :
    Program.Alike (Same maskTask) (taskWithChannel s task)
      (taskWithChannel { s with channels := channels } task) := by
  unfold taskWithChannel
  rcases (channel?_mask h task.channelId).option with ⟨hleft, hright⟩ |
    ⟨c, c', hleft, hright, hmask⟩
  · rw [hleft, hright]
    exact rfl
  · rw [hleft, hright]
    exact congrArg (Prod.mk task) hmask

theorem ordering_mask {rows rows' : List NotificationChannel} (h : rows.map mask = rows'.map mask)
    (filter : ChannelWhere) (pick : ℕ) : Same (List.map mask)
      (Paging.ordering NotificationChannel.createdAt pick (rows.filter filter.selects))
      (Paging.ordering NotificationChannel.createdAt pick (rows'.filter filter.selects)) := by
  have hselected : ∀ rows : List NotificationChannel, (rows.filter filter.selects).map mask =
      (rows.map mask).filter fun c =>
        filter.type.all (fun type => c.type = type) && filter.enabled.all fun enabled =>
          c.enabled = enabled := by
    intro rows
    rw [List.filter_map]
    rfl
  have hordering : ∀ rows : List NotificationChannel,
      (Paging.ordering NotificationChannel.createdAt pick rows).map mask =
        Paging.ordering MaskedChannel.createdAt pick (rows.map mask) := by
    have hkey : ∀ c, MaskedChannel.createdAt (mask c) = c.createdAt := fun _ => rfl
    exact fun rows => Paging.map_ordering mask hkey pick rows
  unfold Same
  rw [hordering, hordering, hselected, hselected, h]

/-! ## Every operation -/

/-- Both worlds are changed alike, and the answers show the same masks. -/
def Kept {α : Type} (values : α → α → Prop) (r r' : Except ApiError α × World) : Prop :=
  Agree r.2 r'.2 ∧ Program.Alike values r.1 r'.1

theorem query_agree {α : Type} {values : α → α → Prop} (c : Choice) (hw : Agree w w')
    {applied applied' : Except ApiError α × Store}
    (h : Kept values (w.on applied) (w'.on applied')) :
    Kept values (w.on (c.query w.store applied)) (w'.on (c.query w'.store applied')) := by
  cases hfault : c.fault with
  | some error =>
      simp only [SocialMonitor.Choice.query, hfault]
      exact ⟨hw, rfl⟩
  | none => simpa only [SocialMonitor.Choice.query, hfault] using h

/-- The two configs are one, or the column holds values of one reading for them. -/
def HeldAlike (type : NotificationChannelType) (config config' : Js.Json) : Prop :=
  config = config' ∨ ∃ held held', config.column? = some held ∧ config'.column? = some held' ∧
    reading type held = reading type held'

theorem HeldAlike.refl (type : NotificationChannelType) (config : Js.Json) :
    HeldAlike type config config := Or.inl rfl

theorem storedConfig_alike {type : NotificationChannelType} {config config' : Js.Json}
    (h : HeldAlike type config config') :
    Program.Alike (Same (reading type)) (storedConfig config) (storedConfig config') := by
  rcases h with rfl | ⟨held, held', hheld, hheld', hreading⟩
  · cases storedConfig config <;> exact rfl
  · rw [storedConfig_ok.mpr hheld, storedConfig_ok.mpr hheld']
    exact hreading

theorem createChannel_agree (c : Choice) {data data' : ChannelData} (hname : data.name = data'.name)
    (htype : data.type = data'.type) (hheld : HeldAlike data.type data.config data'.config)
    (hw : Agree w w') :
    Kept (Same mask) (exec c (.createChannel data) w) (exec c (.createChannel data') w') := by
  refine query_agree c hw ?_
  obtain ⟨channels, rfl, hmask⟩ := hw
  have halike := storedConfig_alike hheld
  unfold createChannelRow
  cases hleft : storedConfig data.config with
  | error e =>
      cases hright : storedConfig data'.config with
      | error e' =>
          rw [hleft, hright] at halike
          exact ⟨⟨channels, rfl, hmask⟩, halike⟩
      | ok config' => rw [hleft, hright] at halike; exact halike.elim
  | ok config =>
      cases hright : storedConfig data'.config with
      | error e' => rw [hleft, hright] at halike; exact halike.elim
      | ok config' =>
          rw [hleft, hright] at halike
          have hreading : reading data'.type config = reading data'.type config' := htype ▸ halike
          have hrow : mask (channelRow { data with config := config } w.store.nextId c.now) =
              mask (channelRow { data' with config := config' } w.store.nextId c.now) := by
            simp [mask, channelRow, hname, htype, hreading]
          refine ⟨⟨channels ++ [channelRow { data' with config := config' } w.store.nextId c.now],
            rfl, ?_⟩, hrow⟩
          simp [World.on, hmask, hrow]

/-- The config is left or replaced in both, by configs that are held alike. -/
def SameReading (type : NotificationChannelType) :
    Monitors.Field Js.Json → Monitors.Field Js.Json → Prop
  | .undefined, .undefined => True
  | .null, .null => True
  | .value config, .value config' => HeldAlike type config config'
  | _, _ => False

theorem SameReading.refl (type : NotificationChannelType) (f : Monitors.Field Js.Json) :
    SameReading type f f := by
  cases f with
  | undefined => trivial
  | null => trivial
  | value config => exact HeldAlike.refl type config

theorem setConfig_alike {type : NotificationChannelType} {old old' : Js.Json}
    {f f' : Monitors.Field Js.Json} (hold : reading type old = reading type old')
    (hf : SameReading type f f') :
    Program.Alike (Same (reading type)) (setConfig old f) (setConfig old' f') := by
  cases f with
  | undefined =>
      cases f' with
      | undefined => exact hold
      | _ => exact hf.elim
  | null =>
      cases f' with
      | null => exact storedConfig_alike (.refl type .null)
      | _ => exact hf.elim
  | value config =>
      cases f' with
      | value config' => exact storedConfig_alike hf
      | _ => exact hf.elim

theorem updatedChannel_alike {data data' : ChannelUpdate} {row row' : NotificationChannel}
    (hrow : mask row = mask row') (hname : data.name = data'.name)
    (henabled : data.enabled = data'.enabled)
    (hconfig : SameReading row.type data.config data'.config) :
    Program.Alike (Same mask) (updatedChannel data row) (updatedChannel data' row') := by
  simp only [mask, MaskedChannel.mk.injEq] at hrow
  obtain ⟨hid, hrowName, htype, hrowEnabled, hreading, hcreatedAt⟩ := hrow
  unfold updatedChannel
  rw [← henabled, ← hrowEnabled]
  have hflag : Program.Alike Eq (Monitors.setColumn row.enabled data.enabled)
      (Monitors.setColumn row.enabled data.enabled) := by
    cases Monitors.setColumn row.enabled data.enabled <;> exact rfl
  refine hflag.bind fun enabled _ henabled => ?_
  obtain rfl := henabled
  rw [← htype] at hreading
  refine (setConfig_alike hreading hconfig).bind fun config config' hconfig => ?_
  change mask _ = mask _
  simp only [mask, MaskedChannel.mk.injEq]
  exact ⟨hid, by rw [hname, hrowName], htype, trivial, htype ▸ hconfig, hcreatedAt⟩

theorem updateChannel_agree (c : Choice) (id : Id) {data data' : ChannelUpdate}
    (hname : data.name = data'.name) (henabled : data.enabled = data'.enabled)
    (hconfig : ∀ row, w.store.channel? id = some row →
      SameReading row.type data.config data'.config)
    (hw : Agree w w') :
    Kept (Same mask) (exec c (.updateChannel id data) w) (exec c (.updateChannel id data') w') := by
  refine query_agree c hw ?_
  obtain ⟨channels, rfl, hmask⟩ := hw
  unfold updateChannelRow
  rcases (channel?_mask hmask id).option with ⟨hleft, hright⟩ | ⟨row, row', hleft, hright, hrow⟩
  · simp only [hleft, hright]
    exact ⟨⟨channels, rfl, hmask⟩, rfl⟩
  · simp only [hleft, hright]
    have halike := updatedChannel_alike hrow hname henabled (hconfig row hleft)
    cases hnew : updatedChannel data row with
    | error e =>
        cases hnew' : updatedChannel data' row' with
        | error e' =>
            rw [hnew, hnew'] at halike
            exact ⟨⟨channels, rfl, hmask⟩, halike⟩
        | ok new' => rw [hnew, hnew'] at halike; exact halike.elim
    | ok new =>
        cases hnew' : updatedChannel data' row' with
        | error e' => rw [hnew, hnew'] at halike; exact halike.elim
        | ok new' =>
            rw [hnew, hnew'] at halike
            refine ⟨⟨channels.map fun c' => if c'.id = id then new' else c', rfl, ?_⟩, halike⟩
            have hreplaced : ∀ (new : NotificationChannel) (rows : List NotificationChannel),
                (rows.map fun c' => if c'.id = id then new else c').map mask =
                  (rows.map mask).map fun m => if m.id = id then mask new else m := by
              intro new rows
              rw [List.map_map, List.map_map]
              refine List.map_congr_left fun c' _ => ?_
              simp only [Function.comp_apply]
              split_ifs with hid hid' hid'
              · rfl
              · exact absurd hid hid'
              · exact absurd hid' hid
              · rfl
            change List.map mask (List.map _ w.store.channels) = _
            rw [hreplaced, hreplaced, hmask, halike]

theorem read_agree {α : Type} {values : α → α → Prop} (c : Choice)
    (read : Store → Except ApiError α)
    (hw : Agree w w')
    (hread : ∀ (s : Store) (channels : List NotificationChannel),
      s.channels.map mask = channels.map mask →
      Program.Alike values (read s) (read { s with channels := channels })) :
    Kept values (w.on (c.query w.store (read w.store, w.store)))
      (w'.on (c.query w'.store (read w'.store, w'.store))) := by
  refine query_agree c hw ?_
  obtain ⟨channels, rfl, hmask⟩ := hw
  exact ⟨⟨channels, rfl, hmask⟩, hread w.store channels hmask⟩

theorem task_agree (c : Choice) (op : Notifications.Op) (hw : Agree w w') :
    Kept (Answers (.task op)) (exec c (.task op) w) (exec c (.task op) w') := by
  cases op with
  | findTaskWithRelations id =>
      exact read_agree c (fun s => .ok (taskWithRelations? s id)) hw fun s channels h =>
        taskWithRelations_mask h id
  | updateTask id data =>
      refine query_agree c hw ?_
      obtain ⟨channels, rfl, hmask⟩ := hw
      have htask : { w.store with channels := channels }.task? id = w.store.task? id := rfl
      rw [htask]
      split_ifs
      · exact ⟨⟨channels, rfl, hmask⟩, rfl⟩
      · exact ⟨⟨channels, rfl, hmask⟩, rfl⟩
  | startSend provider config payload =>
      obtain ⟨channels, rfl, hmask⟩ := hw
      exact ⟨⟨channels, rfl, hmask⟩, rfl⟩
  | finishSend =>
      obtain ⟨channels, rfl, hmask⟩ := hw
      refine ⟨⟨channels, rfl, hmask⟩, ?_⟩
      change Program.Alike Eq c.outcome c.outcome
      cases c.outcome <;> exact rfl
  | now =>
      obtain ⟨channels, rfl, hmask⟩ := hw
      exact ⟨⟨channels, rfl, hmask⟩, rfl⟩
  | emit event =>
      obtain ⟨channels, rfl, hmask⟩ := hw
      exact ⟨⟨channels, rfl, hmask⟩, rfl⟩

/-- An operation is answered alike in worlds that agree, and keeps them in agreement. -/
theorem exec_agree (c : Choice) (op : Op) (hw : Agree w w') :
    Kept (Answers op) (exec c op w) (exec c op w') := by
  cases op with
  | findChannels filter =>
      exact read_agree c (fun s => .ok (Paging.ordering NotificationChannel.createdAt c.pick
        (s.channels.filter filter.selects))) hw fun s channels h => ordering_mask h filter c.pick
  | findChannelById id =>
      exact read_agree c (fun s => .ok (s.channel? id)) hw fun s channels h => channel?_mask h id
  | createChannel data => exact createChannel_agree c rfl rfl (.refl _ _) hw
  | updateChannel id data =>
      exact updateChannel_agree c id rfl rfl (fun row _ => .refl row.type _) hw
  | findTasks op =>
      cases op with
      | findMany filter skip take =>
          exact read_agree c (fun s =>
            (Paging.slice skip take (Paging.ordering taskSource.orderBy c.pick
            (taskSource.matching s filter))).mapM (taskSource.record s)) hw fun s channels h =>
              mapM_mask (record_mask h) _
      | count filter =>
          exact read_agree c (fun s => .ok (taskSource.matching s filter).length) hw
            fun s channels h => rfl
  | task op => exact task_agree c op hw
  | findMessage id =>
      exact read_agree c (fun s => .ok ((s.message? id).bind (Messages.withTarget? s))) hw
        fun s channels h => rfl
  | findNotifications messageId =>
      exact read_agree c (fun s => notificationsOf s messageId c.pick) hw fun s channels h =>
        mapM_mask (taskWithChannel_mask h) _
  | now => exact ⟨hw, rfl⟩
  | cachedToken =>
      obtain ⟨channels, rfl, hmask⟩ := hw
      exact ⟨⟨channels, rfl, hmask⟩, rfl⟩
  | cacheToken token =>
      obtain ⟨channels, rfl, hmask⟩ := hw
      exact ⟨⟨channels, rfl, hmask⟩, rfl⟩
  | fetch request =>
      refine ⟨hw, ?_⟩
      simp only [exec]
      cases c.response <;> exact rfl

end SocialMonitor.Channels

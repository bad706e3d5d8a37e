import SocialMonitor.Channels.Secrecy

/-!
# Two runs with different secrets

A sequence of requests is served twice, from worlds and with configs that
differ in the values of their secrets, and with the same answers of the
outside.
-/

namespace SocialMonitor.Channels

open Async Notifications

/-- Two worlds and the replies so far, newest first. -/
structure Twins where
  left : World
  right : World
  replies : List (Except ApiError Reply)
  replies' : List (Except ApiError Reply)

/-- A request to each of the two, answered by the same outside. -/
structure Event where
  left : Request
  right : Request
  choices : ℕ → Choice

def step (setting : Setting) (t : Twins) (e : Event) : Twins :=
  let served := serve setting e.left e.choices t.left
  let served' := serve setting e.right e.choices t.right
  ⟨served.2, served'.2, served.1 :: t.replies, served'.1 :: t.replies'⟩

/-! ## Which requests correspond -/

def secretNames : List String := ["botToken", "chatId", "webhookUrl", "groupOpenid"]

def withoutSecrets : Js.Json → Js.Json
  | .obj members => .obj (members.filter fun m => !(secretNames.map units).contains m.1)
  | v => v

/-- The configs differ only in the values of the secrets, not in their truthiness. -/
structure SecretsDiffer (config config' : Js.Json) : Prop where
  others : withoutSecrets config = withoutSecrets config'
  truthy : ∀ name ∈ secretNames, (truthy? config name).isSome = (truthy? config' name).isSome

inductive Corresponds : Request → Request → Prop where
  | same (request : Request) : Corresponds request request
  | createChannel (name : String) (type : NotificationChannelType) {config config' : Js.Json}
      (h : SecretsDiffer config config') :
      Corresponds (.createChannel ⟨name, type, config⟩) (.createChannel ⟨name, type, config'⟩)
  | updateChannel (id : Id) (name : Monitors.Field String) (enabled : Monitors.Field Bool)
      {config config' : Js.Json} (h : SecretsDiffer config config') :
      Corresponds (.updateChannel id ⟨name, enabled, .value config⟩)
        (.updateChannel id ⟨name, enabled, .value config'⟩)

/-- The same world up to the values of secrets. -/
def WorldsDiffer (w w' : World) : Prop :=
  ∃ channels, w' = { w with store := { w.store with channels := channels } } ∧
    List.Forall₂ (fun c c' => c' = { c with config := c'.config } ∧
      SecretsDiffer c.config c'.config)
      w.store.channels channels

/-- The provider of each channel can do the same with both configs. -/
def ReadAlike (w w' : World) : Prop :=
  List.Forall₂ (fun c c' => reading c.type c.config = reading c.type c'.config) w.store.channels
    w'.store.channels

/-- Where both configs of a request pass the checks, the column holds what the provider
of the channel can use alike. -/
def HandledAlike (w : World) : Request → Request → Prop
  | .createChannel dto, .createChannel dto' =>
      validateConfig dto.type dto.config = .ok () → HeldAlike dto.type dto.config dto'.config
  | .updateChannel id dto, .updateChannel _ dto' => ∀ row, w.store.channel? id = some row →
      validateUpdate row.type dto.config = .ok () → SameReading row.type dto.config dto'.config
  | _, _ => True

theorem WorldsDiffer.agree {w w' : World} (h : WorldsDiffer w w') (hread : ReadAlike w w') :
    Agree w w' := by
  obtain ⟨channels, rfl, hdiffer⟩ := h
  refine ⟨channels, rfl, ?_⟩
  change List.Forall₂ _ w.store.channels channels at hread
  generalize w.store.channels = rows at hdiffer hread
  induction hdiffer with
  | nil => rfl
  | @cons c c' _ _ hchannel _ ih =>
      cases hread with
      | cons hreading hrest =>
          have hmask : mask c = mask c' := by
            rw [hchannel.1]
            simp only [mask, hreading]
          rw [List.map_cons, List.map_cons, ih hrest, hmask]

/-! ## Creating and updating -/

section Requests

variable {config config' : Js.Json}

theorem SecretsDiffer.refl (config : Js.Json) : SecretsDiffer config config := ⟨rfl, fun _ _ => rfl⟩

theorem SecretsDiffer.truthy_eq (h : SecretsDiffer config config') :
    config.truthy = config'.truthy := by
  have hothers := h.others
  cases config <;> cases config' <;> simp_all [withoutSecrets, Js.Json.truthy]

theorem SecretsDiffer.validateConfig (h : SecretsDiffer config config')
    (type : NotificationChannelType) :
    validateConfig type config = validateConfig type config' := by
  have hname : ∀ name ∈ secretNames, (truthy? config name).isSome = (truthy? config' name).isSome :=
    h.truthy
  unfold Channels.validateConfig
  cases type with
  | telegram => simp only [hname "botToken" (by decide), hname "chatId" (by decide)]
  | wechat => simp only [hname "webhookUrl" (by decide)]
  | qq => simp only [hname "groupOpenid" (by decide)]

theorem createChannel_inStep (name : String) {type : NotificationChannelType}
    (h : SecretsDiffer config config')
    (hheld : Channels.validateConfig type config = .ok () → HeldAlike type config config') :
    InStep Eq (createChannel ⟨name, type, config⟩) (createChannel ⟨name, type, config'⟩) := by
  have hvalid' := h.validateConfig type
  unfold createChannel
  cases hvalid : Channels.validateConfig type config with
  | error e =>
      rw [← hvalid', hvalid]
      exact Program.coupled_raise _
  | ok _ =>
      rw [← hvalid', hvalid]
      have hcreate : InStep (Same mask)
          (Program.await (Op.createChannel ⟨Js.trim name, type, config⟩))
          (Program.await (Op.createChannel ⟨Js.trim name, type, config'⟩)) :=
        Program.coupled_await fun c _ _ hw => createChannel_agree c rfl rfl (hheld hvalid) hw
      exact hcreate.bind fun _ _ hmask => toChannelDto_mask hmask

/-- Worlds that agree, where the channel has a given type. -/
def AgreeAt (id : Id) (type? : Option NotificationChannelType) (w w' : World) : Prop :=
  Agree w w' ∧ (w.store.channel? id).map NotificationChannel.type = type?

theorem find?_replaced {id : Id} {row : NotificationChannel} (hid : row.id = id)
    (rows : List NotificationChannel) :
    (rows.map fun c => if c.id = id then row else c).find? (fun c => c.id = id) =
      (rows.find? fun c => c.id = id).map fun _ => row := by
  induction rows with
  | nil => rfl
  | cons c rows ih =>
      by_cases hc : c.id = id
      · simp [hc, hid]
      · simpa [hc] using ih

/-- An update leaves the type of the channel as it is. -/
theorem type_updateChannel (c : Choice) (id : Id) (data : ChannelUpdate) (w : World) :
    ((exec c (.updateChannel id data) w).2.store.channel? id).map NotificationChannel.type =
      (w.store.channel? id).map NotificationChannel.type := by
  change (((c.query w.store (updateChannelRow id data w.store)).2).channel? id).map _ = _
  rcases c.query_cases w.store (updateChannelRow id data w.store) with ⟨e, -, heq⟩ | ⟨-, heq⟩ <;>
    rw [heq]
  unfold updateChannelRow
  cases hbefore : w.store.channel? id with
  | none => simp only [hbefore]
  | some before =>
      cases hnew : updatedChannel data before with
      | error e => simp only [hnew, hbefore]
      | ok new =>
          obtain ⟨-, -, hrow⟩ := updatedChannel_ok hnew
          have hid : new.id = before.id := by rw [hrow]
          have htype : new.type = before.type := by rw [hrow]
          have hfound : before.id = id := by simpa using List.find?_some hbefore
          simp only [hnew]
          unfold Store.channel? at hbefore ⊢
          rw [find?_replaced (hid.trans hfound), hbefore]
          exact congrArg some htype

theorem findChannelById_coupled (id : Id) (type? : Option NotificationChannelType) :
    (Program.await (Op.findChannelById id)).Coupled exec (AgreeAt id type?)
      (Program.Alike fun channel channel' => Same (Option.map mask) channel channel' ∧
        channel.map NotificationChannel.type = type?) (Program.await (Op.findChannelById id)) := by
  refine Program.coupled_await fun c w w' hw => ?_
  cases hfault : c.fault with
  | some error =>
      simp only [exec, World.on, SocialMonitor.Choice.query, hfault]
      exact ⟨hw, rfl⟩
  | none =>
      simp only [exec, World.on, SocialMonitor.Choice.query, hfault]
      obtain ⟨⟨channels, rfl, hmask⟩, htype⟩ := hw
      exact ⟨⟨⟨channels, rfl, hmask⟩, htype⟩, channel?_mask hmask id, htype⟩

theorem updateChannel_coupled (id : Id) (name : Monitors.Field String)
    (enabled : Monitors.Field Bool) {f f' : Monitors.Field Js.Json}
    {type? : Option NotificationChannelType}
    (hvalid : ∀ type, validateUpdate type f = validateUpdate type f')
    (hf : ∀ type, type? = some type → validateUpdate type f = .ok () → SameReading type f f') :
    (updateChannel id ⟨name, enabled, f⟩).Coupled exec (AgreeAt id type?) (Program.Alike Eq)
      (updateChannel id ⟨name, enabled, f'⟩) := by
  have hfind : (ensureChannelExists id).Coupled exec (AgreeAt id type?)
      (Program.Alike fun channel channel' => Same mask channel channel' ∧
        type? = some channel.type) (ensureChannelExists id) := by
    refine (findChannelById_coupled id type?).bind fun channel? channel?' h => ?_
    rcases h.1.option with ⟨rfl, rfl⟩ | ⟨channel, channel', rfl, rfl, hmask⟩
    · exact Program.coupled_raise _
    · exact ⟨hmask, h.2.symm⟩
  have hsame : ∀ {α : Type} (r : Except ApiError α),
      (Program.ofExcept r : Api α).Coupled exec (AgreeAt id type?)
      (Program.Alike Eq) (Program.ofExcept r) := by
    intro α r
    cases r <;> exact rfl
  unfold updateChannel
  refine hfind.bind fun current current' hcurrent => ?_
  obtain ⟨hmask, htype⟩ := hcurrent
  have htypes : current.type = current'.type := congrArg MaskedChannel.type hmask
  dsimp only
  rw [← htypes, ← hvalid]
  cases hupdate : validateUpdate current.type f with
  | error e => exact Program.coupled_raise _
  | ok _ =>
      refine (hsame (trimmedName name)).bind fun trimmed _ htrimmed => ?_
      obtain rfl := htrimmed
      have hwrite : (Program.await (Op.updateChannel id ⟨trimmed, enabled, f⟩)).Coupled exec
          (AgreeAt id type?) (Program.Alike (Same mask))
          (Program.await (Op.updateChannel id ⟨trimmed, enabled, f'⟩)) := by
        refine Program.coupled_await fun c w w' hw => ?_
        have hkept : Kept (Same mask) (exec c (.updateChannel id ⟨trimmed, enabled, f⟩) w)
            (exec c (.updateChannel id ⟨trimmed, enabled, f'⟩) w') := by
          refine updateChannel_agree c id rfl rfl (fun row hrow => ?_) hw.1
          have hrowType : some row.type = type? := by rw [← hw.2, hrow, Option.map_some]
          have hcurrentType : current.type = row.type :=
            Option.some_inj.mp (htype.symm.trans hrowType.symm)
          exact hf row.type hrowType.symm (hcurrentType ▸ hupdate)
        exact ⟨⟨hkept.1, (type_updateChannel c id _ w).trans hw.2⟩, hkept.2⟩
      exact hwrite.bind fun _ _ hmask => toChannelDto_mask hmask

end Requests

/-! ## Every request -/

section Serve

variable {setting : Setting} {w w' : World}

theorem InStep.reply {α : Type} {p p' : Api α} (h : InStep Eq p p') (reply : α → Reply) :
    InStep Eq (p.bind fun a => .ret (reply a)) (p'.bind fun a => .ret (reply a)) := by
  refine h.bind fun a _ ha => ?_
  obtain rfl := ha
  exact rfl

theorem program_inStep (request : Request) (hupdate : ∀ id dto, request ≠ .updateChannel id dto) :
    InStep Eq (program setting request) (program setting request) := by
  cases request with
  | createChannel dto =>
      exact (createChannel_inStep dto.name (.refl dto.config) fun _ => .refl _ _).reply .channel
  | updateChannel id dto => exact absurd rfl (hupdate id dto)
  | listChannels query => exact (listChannels_inStep query).reply .channels
  | getChannel id => exact (getChannel_inStep id).reply .channel
  | testChannel id => exact (testChannel_inStep setting id).reply .tested
  | processTask taskId => exact (processTask_performed taskId).reply fun _ => .processed
  | dispatch taskId => exact (dispatch_performed taskId).reply fun _ => .processed
  | listTasks query => exact (listTasks_inStep query).reply .tasks
  | getTask id => exact (getTask_inStep id).reply .task
  | findNotifications messageId => exact (findNotifications_inStep messageId).reply .notifications

theorem serve_updateChannel (id : Id) (name : Monitors.Field String) (enabled : Monitors.Field Bool)
    {f f' : Monitors.Field Js.Json}
    (hvalid : ∀ type, validateUpdate type f = validateUpdate type f')
    (hf : ∀ row, w.store.channel? id = some row → validateUpdate row.type f = .ok () →
      SameReading row.type f f') (hw : Agree w w') (choices : ℕ → Choice) :
    (serve setting (.updateChannel id ⟨name, enabled, f⟩) choices w).1 =
        (serve setting (.updateChannel id ⟨name, enabled, f'⟩) choices w').1 ∧
      Agree (serve setting (.updateChannel id ⟨name, enabled, f⟩) choices w).2
        (serve setting (.updateChannel id ⟨name, enabled, f'⟩) choices w').2 := by
  have hcoupled : (program setting (.updateChannel id ⟨name, enabled, f⟩)).Coupled exec
      (AgreeAt id ((w.store.channel? id).map NotificationChannel.type)) (Program.Alike Eq)
      (program setting (.updateChannel id ⟨name, enabled, f'⟩)) := by
    refine (updateChannel_coupled id name enabled hvalid fun type htype => ?_).bind
      fun dto _ hdto => ?_
    · obtain ⟨row, hrow, rfl⟩ := Option.map_eq_some_iff.mp htype
      exact hf row hrow
    · obtain rfl := hdto
      exact rfl
  obtain ⟨hreply, hagree⟩ := hcoupled.run choices ⟨hw, rfl⟩
  exact ⟨Program.alike_eq.mp hreply, hagree.1⟩

theorem serve_agree {request request' : Request} (h : Corresponds request request')
    (hhandled : HandledAlike w request request') (hw : Agree w w') (choices : ℕ → Choice) :
    (serve setting request choices w).1 = (serve setting request' choices w').1 ∧
      Agree (serve setting request choices w).2 (serve setting request' choices w').2 := by
  have hrun : ∀ {request request' : Request},
      InStep Eq (program setting request) (program setting request') →
        (serve setting request choices w).1 = (serve setting request' choices w').1 ∧
          Agree (serve setting request choices w).2 (serve setting request' choices w').2 := by
    intro request request' hstep
    obtain ⟨hreply, hagree⟩ := hstep.run choices hw
    exact ⟨Program.alike_eq.mp hreply, hagree⟩
  cases h with
  | same =>
      by_cases hupdate : ∃ id dto, request = .updateChannel id dto
      · obtain ⟨id, dto, rfl⟩ := hupdate
        exact serve_updateChannel id dto.name dto.enabled (fun _ => rfl)
          (fun row _ _ => .refl row.type _) hw choices
      · exact hrun (program_inStep request fun id dto heq => hupdate ⟨id, dto, heq⟩)
  | createChannel name type h => exact hrun ((createChannel_inStep name h hhandled).reply .channel)
  | updateChannel id name enabled h =>
      refine serve_updateChannel id name enabled (fun type => ?_) hhandled hw choices
      simp only [validateUpdate, h.truthy_eq, h.validateConfig type]

end Serve

/-! ## Runs -/

def Allowed (t : Twins) (e : Event) : Prop :=
  Corresponds e.left e.right ∧ HandledAlike t.left e.left e.right

variable {setting : Setting} {w w' : World} {t : Twins}

theorem agree_of_run (hw : Agree w w')
    (hrun : Machine.Run (step setting) Allowed ⟨w, w', [], []⟩ t) :
    Agree t.left t.right ∧ t.replies = t.replies' := by
  refine hrun.invariant (fun t => Agree t.left t.right ∧ t.replies = t.replies') ⟨hw, rfl⟩ ?_
  intro t e _ hinv hallowed
  obtain ⟨hreply, hagree⟩ := serve_agree hallowed.1 hallowed.2 hinv.1 e.choices
  exact ⟨hagree, congrArg₂ List.cons hreply hinv.2⟩

/-- Secrets that the providers can use alike do not show: the replies, the
events and the tasks are the same in both runs. -/
theorem secrets_hidden (hdiffer : WorldsDiffer w w') (hread : ReadAlike w w')
    (hrun : Machine.Run (step setting) Allowed ⟨w, w', [], []⟩ t) :
    t.replies = t.replies' ∧ t.left.store.events = t.right.store.events ∧
      t.left.store.tasks = t.right.store.tasks := by
  obtain ⟨hagree, hreplies⟩ := agree_of_run (hdiffer.agree hread) hrun
  exact ⟨hreplies, hagree.store.2.symm, hagree.store.1.symm⟩

/-! ## A chat without a text -/

def bot (chatId : Js.Json) : Js.Json :=
  .obj [(units "botToken", .str (units "token")), (units "chatId", chatId)]

theorem column?_bot {chatId : Js.CodeUnits} (h : Js.Json.storableText chatId = true) :
    (bot (.str chatId)).column? = some (bot (.str chatId)) := by
  have hbot : bot (.str chatId) = .ofTexts [(units "botToken", units "token"),
    (units "chatId", chatId)] := rfl
  rw [hbot]
  refine Js.Json.column?_ofTexts ?_
  have htexts : ∀ s ∈ ["botToken", "chatId", "token"], Js.Json.storableText (units s) = true := by
    decide +kernel
  simp [htexts, h]

/-- An object whose `toString` is not a function. -/
def objectChat : Js.Json := .obj [(units "toString", .null)]

def quiet : Setting := ⟨"", "", "", ""⟩

def delivered : Choice := ⟨calm, some ⟨200, .ok "", .ok .null⟩⟩

def nothing : World := ⟨Store.empty, none⟩

def created (chatId chatId' : Js.Json) : Event :=
  ⟨.createChannel ⟨"bot", .telegram, bot chatId⟩, .createChannel ⟨"bot", .telegram, bot chatId'⟩,
    fun _ => delivered⟩

def tested : Event := ⟨.testChannel 0, .testChannel 0, fun _ => delivered⟩

def createdAndTested (chatId chatId' : Js.Json) : Twins :=
  step quiet (step quiet ⟨nothing, nothing, [], []⟩ (created chatId chatId')) tested

theorem bots_differ {chatId chatId' : Js.Json} (h : chatId.truthy = true)
    (h' : chatId'.truthy = true) :
    SecretsDiffer (bot chatId) (bot chatId') where
  others := rfl
  truthy := by
    have hchat : ∀ v : Js.Json, truthy? (bot v) "chatId" = if v.truthy then some v else none := by
      intro v
      rw [truthy?, show (bot v).get? "chatId" = some v from rfl]
      cases hv : v.truthy <;> simp [Option.filter, hv]
    intro name hname
    simp only [secretNames, List.mem_cons, List.not_mem_nil, or_false] at hname
    rcases hname with rfl | rfl | rfl | rfl
    · rfl
    · rw [hchat, hchat, h, h']
      rfl
    · rfl
    · rfl

theorem created_corresponds {chatId chatId' : Js.Json} (h : chatId.truthy = true)
    (h' : chatId'.truthy = true) :
    Corresponds (created chatId chatId').left (created chatId chatId').right :=
  .createChannel "bot" .telegram (bots_differ h h')

theorem secrets_hidden_texts :
    (createdAndTested (.str (units "1")) (.str (units "2"))).replies =
        (createdAndTested (.str (units "1")) (.str (units "2"))).replies' ∧
      (createdAndTested (.str (units "1")) (.str (units "2"))).left.store.events =
        (createdAndTested (.str (units "1")) (.str (units "2"))).right.store.events ∧
      (createdAndTested (.str (units "1")) (.str (units "2"))).left.store.tasks =
        (createdAndTested (.str (units "1")) (.str (units "2"))).right.store.tasks := by
  have hheld : HeldAlike .telegram (bot (.str (units "1"))) (bot (.str (units "2"))) :=
    Or.inr ⟨_, _, column?_bot (by decide +kernel), column?_bot (by decide +kernel),
      (reading_of_texts rfl rfl).trans (reading_of_texts rfl rfl).symm⟩
  have hcreated : Allowed ⟨nothing, nothing, [], []⟩
      (created (.str (units "1")) (.str (units "2"))) :=
    ⟨created_corresponds (by decide) (by decide), fun _ => hheld⟩
  have hdiffer : WorldsDiffer nothing nothing := ⟨[], rfl, .nil⟩
  exact secrets_hidden hdiffer .nil ((Machine.Run.refl.step hcreated).step ⟨.same _, trivial⟩)

/-- The message is sent, and then the test of the second channel fails. -/
theorem secret_shows : ∃ t, Machine.Run (step quiet) (fun _ e => Corresponds e.left e.right)
    ⟨nothing, nothing, [], []⟩ t ∧ t.replies ≠ t.replies' := by
  refine ⟨createdAndTested (.str (units "1")) objectChat, ?_, fun heq => ?_⟩
  · have hcreated : Corresponds (created (.str (units "1")) objectChat).left
        (created (.str (units "1")) objectChat).right := created_corresponds (by decide) rfl
    have hfirst : Machine.Run (step quiet) (fun _ e => Corresponds e.left e.right)
        ⟨nothing, nothing, [], []⟩
          (step quiet ⟨nothing, nothing, [], []⟩ (created (.str (units "1")) objectChat)) :=
      .step .refl hcreated
    exact .step (e := tested) hfirst (.same _)
  · have hfirst := congrArg (fun replies => replies.map Except.isOk) heq
    revert hfirst
    decide +kernel

end SocialMonitor.Channels

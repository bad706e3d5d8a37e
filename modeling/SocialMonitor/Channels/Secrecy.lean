import SocialMonitor.Channels.Masked
import SocialMonitor.Runs

/-!
# Secrets and what clients see

Every method of the service runs alike in worlds that agree, for what a
provider shows of a config is its reading.
-/

namespace SocialMonitor.Channels

open Async Notifications

/-- Two programs in lock step in worlds that agree. -/
abbrev InStep {α β : Type} (values : α → β → Prop) (p : Api α) (p' : Api β) : Prop :=
  p.Coupled exec Agree (Program.Alike values) p'

theorem inStep_await (op : Op) : InStep (Answers op) (Program.await op) (Program.await op) :=
  Program.coupled_await fun c _ _ hw => exec_agree c op hw

/-- The platform answers whatever the request says. -/
theorem inStep_fetch (request request' : HttpRequest) :
    InStep Eq (Program.await (Op.fetch request)) (Program.await (Op.fetch request')) :=
  Program.coupled_await fun c _ _ hw => exec_agree c (.fetch request) hw

theorem inStep_ofExcept {α : Type} (r : Except ApiError α) :
    InStep Eq (Program.ofExcept r : Api α) (Program.ofExcept r) := by
  cases r <;> exact rfl

/-- The operations that show nothing of a channel. -/
def Plain : Op → Prop
  | .now => True
  | .cachedToken => True
  | .cacheToken _ => True
  | .fetch _ => True
  | _ => False

theorem inStep_plain {α : Type} {p : Api α} (hp : p.Awaits Plain) : InStep Eq p p := by
  refine hp.coupled fun c op w w' hplain hw => ?_
  obtain ⟨hagree, hanswer⟩ := exec_agree c op hw
  refine ⟨hagree, Program.alike_eq.mp ?_⟩
  cases op with
  | now => exact hanswer
  | cachedToken => exact hanswer
  | cacheToken token => exact hanswer
  | fetch request => exact hanswer
  | _ => exact hplain.elim

/-! ## The providers -/

section Providers

variable {setting : Setting} {config config' : Js.Json}

theorem toText_inStep {v v' : Js.Json} (h : hasText v = hasText v') :
    InStep (fun _ _ => hasText v = true) (toText v) (toText v') := by
  unfold hasText at h ⊢
  unfold toText
  cases hv : v.toText with
  | error e =>
      cases hv' : v'.toText with
      | error e' =>
          rw [Js.Json.toText_error hv, Js.Json.toText_error hv']
          exact Program.coupled_raise _
      | ok text' => simp [hv, hv', Except.isOk, Except.toBool] at h
  | ok text =>
      cases hv' : v'.toText with
      | error e' => simp [hv, hv', Except.isOk, Except.toBool] at h
      | ok text' => exact rfl

/-- What the provider does after the platform has answered. -/
theorem answered_inStep {sendFailed : ℕ → String → ApiError} {v v' : Js.Json}
    (h : hasText v = hasText v')
    (response : HttpResponse) :
    InStep Eq
      (do
        if !response.ok then
          let body ← Program.ofExcept response.text
          throw (sendFailed response.status body)
        let _ ← toText v : Api Unit)
      (do
        if !response.ok then
          let body ← Program.ofExcept response.text
          throw (sendFailed response.status body)
        let _ ← toText v') := by
  split_ifs
  · refine (inStep_ofExcept response.text).bind fun body _ hbody => ?_
    obtain rfl := hbody
    exact rfl
  · exact (toText_inStep h).bind fun _ _ _ => rfl

theorem telegram_parseConfig_error {e : ApiError} (h : Telegram.parseConfig config = .error e) :
    e = telegramRequires := by
  unfold Telegram.parseConfig at h
  split at h
  · exact absurd h (by simp)
  · exact (Except.error.inj h).symm

theorem telegram_request_inStep {botToken botToken' : Js.Json}
    (htoken : hasText botToken = hasText botToken')
    (chatId chatId' : Js.Json) (text : Js.CodeUnits) :
    InStep (fun response response' => response = response' ∧ hasText botToken = true)
      (Telegram.request botToken chatId text) (Telegram.request botToken' chatId' text) := by
  refine (toText_inStep htoken).bind fun _ _ hb => ?_
  exact (inStep_fetch _ _).weaken fun _ _ hresponse => ⟨hresponse, hb⟩

/-- Either the token has a text in both or no request is made, and then so with the chat. -/
theorem telegram_inStep (h : reading .telegram config = reading .telegram config')
    (payload : NotificationPayload) :
    InStep Eq (Telegram.send config payload) (Telegram.send config' payload) := by
  unfold Telegram.send
  unfold reading at h
  cases hleft : Telegram.parseConfig config with
  | error e =>
      cases hright : Telegram.parseConfig config' with
      | error e' =>
          rw [telegram_parseConfig_error hleft, telegram_parseConfig_error hright]
          exact Program.coupled_raise _
      | ok secrets =>
          simp only [hleft, hright] at h
          exact absurd h.symm (Reading.ofTexts_ne _ _)
  | ok secrets =>
      cases hright : Telegram.parseConfig config' with
      | error e' =>
          simp only [hleft, hright] at h
          exact absurd h (Reading.ofTexts_ne _ _)
      | ok secrets' =>
          simp only [hleft, hright] at h
          obtain ⟨htoken, hchat⟩ := Reading.ofTexts_eq h
          have hguarded := (telegram_request_inStep htoken secrets.2 secrets'.2
            (buildForwardText payload Telegram.maxMessageLength)).handle fun _ =>
              Program.coupled_raise Telegram.networkUnreachable
          refine hguarded.bind fun response _ hresponse => ?_
          obtain ⟨rfl, hb⟩ := hresponse
          exact answered_inStep (hchat hb) response

/-! ### QQ -/

theorem qq_parseConfig_error {e : ApiError} (h : Qq.parseConfig config = .error e) :
    e = qqRequires := by
  unfold Qq.parseConfig at h
  split at h
  · exact absurd h (by simp)
  · exact (Except.error.inj h).symm

theorem fetchAccessToken_awaits : (QqClientService.fetchAccessToken setting).Awaits Plain := by
  unfold QqClientService.fetchAccessToken
  refine Program.Awaits.bind (.handle (Program.awaits_await trivial) fun _ => trivial)
    fun response => ?_
  refine Program.Awaits.bind (Program.awaits_ofExcept _) fun body => ?_
  refine Program.Awaits.bind (Program.awaits_ofExcept _) fun token => ?_
  refine Program.Awaits.bind (Program.awaits_ofExcept _) fun expiresIn => ?_
  refine Program.Awaits.bind (Program.awaits_await trivial) fun now => ?_
  exact Program.Awaits.bind (Program.awaits_await trivial) fun _ => trivial

theorem ensureConfigured_awaits : (QqClientService.ensureConfigured setting).Awaits Plain := by
  unfold QqClientService.ensureConfigured
  split_ifs <;> exact trivial

theorem getAccessToken_awaits : (QqClientService.getAccessToken setting).Awaits Plain := by
  unfold QqClientService.getAccessToken
  refine Program.Awaits.bind ensureConfigured_awaits fun _ => ?_
  refine Program.Awaits.bind (Program.awaits_await trivial) fun cached => ?_
  cases cached with
  | none => exact fetchAccessToken_awaits
  | some cached =>
      refine Program.Awaits.bind (Program.awaits_await trivial) fun now => ?_
      split_ifs
      · exact trivial
      · exact fetchAccessToken_awaits

theorem hasText_of_encodes {v : Js.Json} (h : encodes v = true) : hasText v = true := by
  unfold encodes QqClientService.encodeURIComponent at h
  unfold hasText
  cases hv : v.toText with
  | error e => simp [hv, Except.isOk, Except.toBool] at h
  | ok text => rfl

/-- A group without a percent encoding ends in the error of the network. -/
theorem qq_request_inStep {groupOpenid groupOpenid' : Js.Json}
    (h : encodes groupOpenid = encodes groupOpenid') (token : Js.Json) (text : Js.CodeUnits) :
    InStep (fun response response' => response = response' ∧
      hasText groupOpenid = hasText groupOpenid')
      ((QqClientService.request setting groupOpenid token text).handle fun _ =>
        .raise QqClientService.sendNetworkError)
      ((QqClientService.request setting groupOpenid' token text).handle fun _ =>
        .raise QqClientService.sendNetworkError) := by
  cases hleft : QqClientService.encodeURIComponent groupOpenid with
  | error e =>
      cases hright : QqClientService.encodeURIComponent groupOpenid' with
      | error e' =>
          unfold QqClientService.request
          rw [hleft, hright]
          exact Program.coupled_raise _
      | ok encoded' => simp [encodes, hleft, hright, Except.isOk, Except.toBool] at h
  | ok encoded =>
      cases hright : QqClientService.encodeURIComponent groupOpenid' with
      | error e' => simp [encodes, hleft, hright, Except.isOk, Except.toBool] at h
      | ok encoded' =>
          have hrequest : InStep Eq (QqClientService.request setting groupOpenid token text)
              (QqClientService.request setting groupOpenid' token text) := by
            unfold QqClientService.request
            rw [hleft, hright]
            exact (toText_inStep rfl).bind fun _ _ _ => inStep_fetch _ _
          have hencodes : encodes groupOpenid = true := by rw [encodes, hleft]; rfl
          have htext : hasText groupOpenid = hasText groupOpenid' :=
            (hasText_of_encodes hencodes).trans (hasText_of_encodes (h ▸ hencodes)).symm
          have hguarded := hrequest.handle fun _ =>
              Program.coupled_raise QqClientService.sendNetworkError
          exact hguarded.weaken fun _ _ hresponse => ⟨hresponse, htext⟩

theorem sendGroupMessage_inStep {groupOpenid groupOpenid' : Js.Json}
    (h : encodes groupOpenid = encodes groupOpenid') (text : Js.CodeUnits) :
    InStep Eq (QqClientService.sendGroupMessage setting groupOpenid text)
      (QqClientService.sendGroupMessage setting groupOpenid' text) := by
  unfold QqClientService.sendGroupMessage
  refine (inStep_plain ensureConfigured_awaits).bind fun _ _ _ => ?_
  refine (inStep_plain getAccessToken_awaits).bind fun token _ htoken => ?_
  obtain rfl := htoken
  refine (qq_request_inStep h token text).bind fun response _ hresponse => ?_
  obtain ⟨rfl, htext⟩ := hresponse
  exact answered_inStep htext response

theorem qq_inStep (h : reading .qq config = reading .qq config') (payload : NotificationPayload) :
    InStep Eq (Qq.send setting config payload) (Qq.send setting config' payload) := by
  unfold Qq.send
  unfold reading at h
  cases hleft : Qq.parseConfig config with
  | error e =>
      cases hright : Qq.parseConfig config' with
      | error e' =>
          rw [qq_parseConfig_error hleft, qq_parseConfig_error hright]
          exact Program.coupled_raise _
      | ok groupOpenid' =>
          simp only [hleft, hright] at h
          split_ifs at h
  | ok groupOpenid =>
      cases hright : Qq.parseConfig config' with
      | error e' =>
          simp only [hleft, hright] at h
          split_ifs at h
      | ok groupOpenid' =>
          have hencodes : encodes groupOpenid = encodes groupOpenid' := by
            simp only [hleft, hright] at h
            revert h
            cases encodes groupOpenid <;> cases encodes groupOpenid' <;> decide
          exact sendGroupMessage_inStep hencodes _

theorem sendBy_inStep {type : NotificationChannelType}
    (h : reading type config = reading type config')
    (payload : NotificationPayload) :
    InStep Eq (sendBy setting type config payload) (sendBy setting type config' payload) := by
  cases type with
  | telegram => exact telegram_inStep h payload
  | wechat => exact rfl
  | qq => exact qq_inStep h payload

end Providers

/-! ## The methods -/

section Methods

variable (setting : Setting)

theorem toChannelDto_mask {c c' : NotificationChannel} (h : Same mask c c') :
    toChannelDto c = toChannelDto c' := by
  simp only [Same, mask, MaskedChannel.mk.injEq] at h
  obtain ⟨hid, hname, htype, henabled, -, -⟩ := h
  simp only [toChannelDto, ChannelDto.mk.injEq]
  exact ⟨hid, hname, htype, henabled, trivial⟩

theorem map_view {α β γ : Type} {view : α → β} {shown : α → γ}
    (hshown : ∀ a a', Same view a a' → shown a = shown a') {as as' : List α}
    (h : Same (List.map view) as as') : as.map shown = as'.map shown := by
  induction as generalizing as' with
  | nil =>
      obtain rfl := List.map_eq_nil_iff.mp h.symm
      rfl
  | cons a as ih =>
      obtain ⟨a', as', rfl, ha, has⟩ := List.map_eq_cons_iff.mp h.symm
      rw [List.map_cons, List.map_cons, hshown a a' ha.symm, ih has.symm]

theorem toTaskChannelDto_mask {c c' : NotificationChannel} (h : mask c = mask c') :
    (⟨c.id, c.name, c.type⟩ : TaskChannelDto) = ⟨c'.id, c'.name, c'.type⟩ := by
  simp only [mask, MaskedChannel.mk.injEq] at h
  rw [h.1, h.2.1, h.2.2.1]

theorem toTaskDto_mask {t t' : TaskWithRelations} (h : Same maskRelations t t') :
    toTaskDto t = toTaskDto t' := by
  simp only [Same, maskRelations, Prod.mk.injEq] at h
  obtain ⟨htask, hmessage, htarget, hchannel⟩ := h
  simp only [toTaskDto, htask, hmessage, htarget, toTaskChannelDto_mask hchannel]

theorem toTaskDetailDto_mask {t t' : TaskWithRelations} (h : Same maskRelations t t') :
    toTaskDetailDto t = toTaskDetailDto t' := by
  simp only [Same, maskRelations, Prod.mk.injEq] at h
  obtain ⟨htask, hmessage, htarget, hchannel⟩ := h
  simp only [toTaskDetailDto, htask, hmessage, htarget, toTaskChannelDto_mask hchannel]

theorem toNotificationDto_mask {t t' : TaskWithChannel} (h : Same maskTask t t') :
    toNotificationDto t = toNotificationDto t' := by
  simp only [Same, maskTask, Prod.mk.injEq] at h
  obtain ⟨htask, hchannel⟩ := h
  simp only [toNotificationDto, htask, toTaskChannelDto_mask hchannel]

theorem listChannels_inStep (query : ChannelQueryDto) :
    InStep Eq (listChannels query) (listChannels query) :=
  (inStep_await (.findChannels ⟨query.type, query.enabled⟩)).bind fun _ _ h =>
    map_view (fun _ _ hmask => toChannelDto_mask hmask) h

theorem ensureChannelExists_inStep (id : Id) :
    InStep (Same mask) (ensureChannelExists id) (ensureChannelExists id) := by
  refine (inStep_await (.findChannelById id)).bind fun channel? channel?' h => ?_
  rcases h.option with ⟨rfl, rfl⟩ | ⟨channel, channel', rfl, rfl, hmask⟩
  · exact Program.coupled_raise _
  · exact hmask

theorem getChannel_inStep (id : Id) : InStep Eq (getChannel id) (getChannel id) :=
  (ensureChannelExists_inStep id).bind fun _ _ hmask => toChannelDto_mask hmask

theorem testChannel_inStep (id : Id) :
    InStep Eq (testChannel setting id) (testChannel setting id) := by
  refine (ensureChannelExists_inStep id).bind fun channel channel' hmask => ?_
  simp only [Same, mask, MaskedChannel.mk.injEq] at hmask
  obtain ⟨-, -, htype, -, hreading, -⟩ := hmask
  rw [← htype] at hreading ⊢
  rw [factoryGet_eq]
  exact (sendBy_inStep hreading testPayload).bind fun _ _ _ => rfl

/-! ### Tasks -/

/-- The same with the operations of a task performed. -/
abbrev Performed {α β : Type} (values : α → β → Prop) (p : Notifications.Api α)
    (p' : Notifications.Api β) : Prop :=
  InStep values (p.interp (perform setting)) (p'.interp (perform setting))

variable {setting}

theorem Performed.bind {α β γ δ : Type} {values : α → β → Prop} {ends : γ → δ → Prop}
    {p : Notifications.Api α}
    {p' : Notifications.Api β} {f : α → Notifications.Api γ} {f' : β → Notifications.Api δ}
    (hp : Performed setting values p p')
    (hf : ∀ a b, values a b → Performed setting ends (f a) (f' b)) :
    Performed setting ends (p.bind f) (p'.bind f') := by
  unfold Performed
  rw [Program.interp_bind, Program.interp_bind]
  exact Program.Coupled.bind hp hf

theorem Performed.handle {α : Type} {values : α → α → Prop} {p p' : Notifications.Api α}
    {handler handler' : ApiError → Notifications.Api α} (hp : Performed setting values p p')
    (hhandler : ∀ e, Performed setting values (handler e) (handler' e)) :
    Performed setting values (p.handle handler) (p'.handle handler') := by
  unfold Performed
  rw [Program.interp_handle, Program.interp_handle]
  exact Program.Coupled.handle hp hhandler

theorem performed_updateTask (id : Id) (data : TaskUpdate) :
    Performed setting Eq (updateTask id data) (updateTask id data) := by
  unfold Performed updateTask
  rw [Program.interp_await]
  exact inStep_await (.task (.updateTask id data))

theorem performed_now : Performed setting Eq now now := by
  unfold Performed now
  rw [Program.interp_await]
  exact inStep_await (.task .now)

theorem performed_emit (event : SseEvent) : Performed setting Eq (emit event) (emit event) := by
  unfold Performed emit
  rw [Program.interp_await]
  exact inStep_await (.task (.emit event))

theorem performed_findTaskWithRelations (id : Id) :
    Performed setting (Same (Option.map maskRelations))
    (findTaskWithRelations id) (findTaskWithRelations id) := by
  unfold Performed findTaskWithRelations
  rw [Program.interp_await]
  exact inStep_await (.task (.findTaskWithRelations id))

theorem performed_send {type : NotificationChannelType} {config config' : Js.Json}
    (h : reading type config = reading type config') (payload : NotificationPayload) :
    Performed setting Eq (send type config payload) (send type config' payload) := by
  have hstart : Performed setting Eq
      (Program.await (Notifications.Op.startSend type config payload))
      (Program.await (Notifications.Op.startSend type config' payload)) := by
    unfold Performed
    rw [Program.interp_await, Program.interp_await]
    exact sendBy_inStep h payload
  refine hstart.bind fun _ _ _ => ?_
  unfold Performed
  rw [Program.interp_await]
  exact rfl

theorem processTask_performed (taskId : Id) :
    Performed setting Eq (Notifications.processTask taskId)
    (Notifications.processTask taskId) := by
  refine (performed_findTaskWithRelations taskId).bind fun task? task?' h => ?_
  rcases h.option with ⟨rfl, rfl⟩ |
    ⟨⟨task, message, target, channel⟩, ⟨task', message', target', channel'⟩, rfl, rfl, hmask⟩
  · exact Program.coupled_raise _
  · simp only [Same, maskRelations, Prod.mk.injEq] at hmask
    obtain ⟨rfl, rfl, rfl, hchannel⟩ := hmask
    simp only [mask, MaskedChannel.mk.injEq] at hchannel
    obtain ⟨-, -, htype, -, hreading, -⟩ := hchannel
    rw [← htype] at hreading
    refine (performed_updateTask taskId setProcessing).bind fun _ _ _ => ?_
    rw [← htype]
    refine Performed.handle ?_ fun error => ?_
    · rw [factoryGet_eq]
      refine (performed_send hreading _).bind fun _ _ _ => ?_
      refine performed_now.bind fun sentAt _ hnow => ?_
      obtain rfl := hnow
      exact (performed_updateTask taskId (setSent sentAt)).bind fun _ _ _ => performed_emit _
    · refine (performed_updateTask taskId (setFailed error.message)).bind fun _ _ _ => ?_
      exact (performed_emit _).bind fun _ _ _ => Program.coupled_raise _

theorem dispatch_performed (taskId : Id) : Performed setting Eq (Notifications.dispatch taskId)
    (Notifications.dispatch taskId) := by
  refine (processTask_performed taskId).handle fun error => ?_
  split_ifs
  · exact Program.coupled_raise _
  · exact rfl

theorem listTasks_inStep (query : TaskQueryDto) :
    InStep Eq (listTasks query) (listTasks query) := by
  unfold listTasks Notifications.listTasks Listing.list
  simp only [Program.bind_def, Program.interp_bind, Program.interp_await]
  refine (inStep_await (.findTasks _)).bind fun items items' hitems => ?_
  refine (inStep_await (.findTasks _)).bind fun total _ htotal => ?_
  obtain rfl := htotal
  have hdata : items.map toTaskDto = items'.map toTaskDto :=
    map_view (fun _ _ hmask => toTaskDto_mask hmask) hitems
  rw [hdata]
  exact rfl

theorem getTask_inStep (id : Id) : InStep Eq (getTask id) (getTask id) := by
  refine (inStep_await (.task (.findTaskWithRelations id))).bind fun task? task?' h => ?_
  rcases h.option with ⟨rfl, rfl⟩ | ⟨task, task', rfl, rfl, hmask⟩
  · exact Program.coupled_raise _
  · exact toTaskDetailDto_mask hmask

theorem findNotifications_inStep (messageId : Id) :
    InStep Eq (findNotifications messageId) (findNotifications messageId) := by
  refine (inStep_await (.findMessage messageId)).bind fun message? _ hmessage => ?_
  obtain rfl := hmessage
  cases message? with
  | none => exact Program.coupled_raise _
  | some message =>
      exact (inStep_await (.findNotifications messageId)).bind fun _ _ h =>
        map_view (fun _ _ hmask => toNotificationDto_mask hmask) h

end Methods

/-! ## What a send awaits -/

section Sends

variable {qq : Setting}

theorem telegram_plain (config : Js.Json) (payload : NotificationPayload) :
    (Telegram.send config payload).Awaits Plain := by
  unfold Telegram.send
  refine Program.Awaits.bind (Program.awaits_ofExcept _) fun secrets => ?_
  refine Program.Awaits.bind (.handle (.bind (Program.awaits_ofExcept _) fun _ =>
    Program.awaits_await trivial) fun _ => trivial) fun response => ?_
  split_ifs
  · exact Program.Awaits.bind (Program.awaits_ofExcept _) fun _ => trivial
  · exact Program.Awaits.bind (Program.awaits_ofExcept _) fun _ => trivial

theorem qq_plain (config : Js.Json) (payload : NotificationPayload) :
    (Qq.send qq config payload).Awaits Plain := by
  unfold Qq.send QqClientService.sendGroupMessage
  refine Program.Awaits.bind (Program.awaits_ofExcept _) fun groupOpenid => ?_
  refine Program.Awaits.bind ensureConfigured_awaits fun _ => ?_
  refine Program.Awaits.bind getAccessToken_awaits fun token => ?_
  refine Program.Awaits.bind (.handle (.bind (Program.awaits_ofExcept _) fun _ =>
    .bind (Program.awaits_ofExcept _) fun _ => Program.awaits_await trivial)
    fun _ => trivial) fun response => ?_
  split_ifs
  · exact Program.Awaits.bind (Program.awaits_ofExcept _) fun _ => trivial
  · exact Program.Awaits.bind (Program.awaits_ofExcept _) fun _ => trivial

theorem sendBy_plain (type : NotificationChannelType) (config : Js.Json)
    (payload : NotificationPayload) :
    (sendBy qq type config payload).Awaits Plain := by
  cases type with
  | telegram => exact telegram_plain config payload
  | wechat => exact trivial
  | qq => exact qq_plain config payload

end Sends

end SocialMonitor.Channels

import SocialMonitor.Async.Origin
import SocialMonitor.Async.Trace
import SocialMonitor.Channels.Secrecy
import SocialMonitor.Channels.Token

/-!
# Requests to the platforms

What a call of the notification service sends out: a request for a token, or a
text for the chat in the config of a channel that it has looked up.
-/

namespace SocialMonitor.Channels

open Async Notifications

abbrev History := List (Entry Op Answer ApiError)

/-! ## The requests -/

def Telegram.messageRequest (token : Js.CodeUnits) (chatId : Js.Json) (text : Js.CodeUnits) :
    HttpRequest where
  url := units "https://api.telegram.org/bot" ++ token ++ units "/sendMessage"
  authorization := none
  body := .obj [(units "chat_id", chatId), (units "text", .str text)]

def QqClientService.messageRequest (setting : Setting) (group token text : Js.CodeUnits) :
    HttpRequest where
  url := units setting.apiBase ++ units "/v2/groups/" ++ group ++ units "/messages"
  authorization := some (units "QQBot " ++ token)
  body := .obj [(units "msg_type", .num .zero), (units "content", .str text)]

/-- A request that brings a payload to the chat of a config, with the secret of the
config or with a token that the client holds. -/
inductive MessageRequest (setting : Setting) (held : Js.Json → Prop)
    (payload : NotificationPayload) : NotificationChannelType → Js.Json → HttpRequest → Prop where
  | telegram {config botToken chatId : Js.Json} {token : Js.CodeUnits}
      (hconfig : Telegram.parseConfig config = .ok (botToken, chatId))
      (htoken : botToken.toText = .ok token) :
      MessageRequest setting held payload .telegram config
        (Telegram.messageRequest token chatId
          (buildForwardText payload Telegram.maxMessageLength))
  | qq {config groupOpenid token : Js.Json} {group authorization : Js.CodeUnits}
      (hconfig : Qq.parseConfig config = .ok groupOpenid)
      (hgroup : QqClientService.encodeURIComponent groupOpenid = .ok group) (hheld : held token)
      (htoken : token.toText = .ok authorization) :
      MessageRequest setting held payload .qq config
        (QqClientService.messageRequest setting group authorization
          (buildForwardText payload Qq.maxMessageLength))

theorem MessageRequest.mono {setting : Setting} {held held' : Js.Json → Prop}
    {payload : NotificationPayload} {type : NotificationChannelType} {config : Js.Json}
    {request : HttpRequest} (h : MessageRequest setting held payload type config request)
    (hheld : ∀ token, held token → held' token) :
    MessageRequest setting held' payload type config request := by
  cases h with
  | telegram hconfig htoken => exact .telegram hconfig htoken
  | qq hconfig hgroup hold htoken => exact .qq hconfig hgroup (hheld _ hold) htoken

/-! ## What a history admits -/

/-- The token endpoint has answered with the token. -/
def Issued (setting : Setting) (h : History) (token : Js.Json) : Prop :=
  ∃ response body, ⟨.fetch (QqClientService.tokenRequest setting), .ok response⟩ ∈ h ∧
    QqClientService.tokenBody? response = some (token, body)

def tokensShown : Entry Op Answer ApiError → List Js.Json
  | ⟨.cachedToken, .ok (some cached)⟩ => [cached.token]
  | _ => []

def Held (setting : Setting) (h : History) (token : Js.Json) : Prop :=
  Issued setting h token ∨ token ∈ h.flatMap tokensShown

/-- The task that an operation of `processTask` has found. -/
def taskFound : (op : Notifications.Op) → Except ApiError (Notifications.Answer op) →
    List TaskWithRelations
  | .findTaskWithRelations _, .ok (some task) => [task]
  | _, _ => []

def tasksFound : Entry Op Answer ApiError → List TaskWithRelations
  | ⟨.task op, r⟩ => taskFound op r
  | _ => []

def channelsFound : Entry Op Answer ApiError → List NotificationChannel
  | ⟨.findChannelById _, .ok (some channel)⟩ => [channel]
  | _ => []

/-- A message for a task that was found, or the test of a channel that was found. -/
def Addressed (setting : Setting) (h : History) (request : HttpRequest) : Prop :=
  (∃ task ∈ h.flatMap tasksFound, MessageRequest setting (Held setting h) (buildPayload task)
    task.channel.type task.channel.config request) ∨
  ∃ channel ∈ h.flatMap channelsFound, MessageRequest setting (Held setting h) testPayload
    channel.type channel.config request

/-- What a call may send out, and which token it may keep. -/
def Asks (setting : Setting) (h : History) : Op → Prop
  | .fetch request =>
      request = QqClientService.tokenRequest setting ∨ Addressed setting h request
  | .cacheToken cached => Issued setting h cached.token
  | _ => True

variable {setting : Setting} {h h' : History}

theorem Issued.subset {token : Js.Json} (hissued : Issued setting h token) (hsub : h ⊆ h') :
    Issued setting h' token := by
  obtain ⟨response, body, hmem, hbody⟩ := hissued
  exact ⟨response, body, hsub hmem, hbody⟩

theorem flatMap_subset {β : Type} {f : Entry Op Answer ApiError → List β} (hsub : h ⊆ h') :
    h.flatMap f ⊆ h'.flatMap f := by
  intro b hb
  obtain ⟨e, he, hbe⟩ := List.mem_flatMap.mp hb
  exact List.mem_flatMap.mpr ⟨e, hsub he, hbe⟩

theorem mem_tokensShown {token : Js.Json} (htoken : token ∈ h.flatMap tokensShown) :
    ∃ cached, ⟨.cachedToken, .ok (some cached)⟩ ∈ h ∧ cached.token = token := by
  obtain ⟨⟨op, r⟩, he, htoken⟩ := List.mem_flatMap.mp htoken
  cases op with
  | cachedToken =>
      rcases r with e | _ | cached
      · cases htoken
      · cases htoken
      · exact ⟨cached, he, (List.mem_singleton.mp htoken).symm⟩
  | _ => cases htoken

theorem mem_tasksFound {task : TaskWithRelations} (htask : task ∈ h.flatMap tasksFound) :
    ∃ id, ⟨.task (.findTaskWithRelations id), .ok (some task)⟩ ∈ h := by
  obtain ⟨⟨op, r⟩, he, htask⟩ := List.mem_flatMap.mp htask
  cases op with
  | task op =>
      cases op with
      | findTaskWithRelations id =>
          rcases r with e | _ | found
          · cases htask
          · cases htask
          · obtain rfl := List.mem_singleton.mp htask
            exact ⟨id, he⟩
      | _ => cases htask
  | _ => cases htask

theorem mem_channelsFound {channel : NotificationChannel}
    (hchannel : channel ∈ h.flatMap channelsFound) :
    ∃ id, ⟨.findChannelById id, .ok (some channel)⟩ ∈ h := by
  obtain ⟨⟨op, r⟩, he, hchannel⟩ := List.mem_flatMap.mp hchannel
  cases op with
  | findChannelById id =>
      rcases r with e | _ | found
      · cases hchannel
      · cases hchannel
      · obtain rfl := List.mem_singleton.mp hchannel
        exact ⟨id, he⟩
  | _ => cases hchannel

/-- The payload may go to the chat of the config from now on. -/
def May (setting : Setting) (h : History) (payload : NotificationPayload)
    (type : NotificationChannelType) (config : Js.Json) : Prop :=
  ∀ h' request, h ⊆ h' → MessageRequest setting (Held setting h') payload type config request →
    Addressed setting h' request

theorem may_task {task : TaskWithRelations} (hfound : task ∈ h.flatMap tasksFound) :
    May setting h (buildPayload task) task.channel.type task.channel.config :=
  fun _ _ hsub hrequest => Or.inl ⟨task, flatMap_subset hsub hfound, hrequest⟩

theorem may_channel {channel : NotificationChannel} (hfound : channel ∈ h.flatMap channelsFound) :
    May setting h testPayload channel.type channel.config :=
  fun _ _ hsub hrequest => Or.inr ⟨channel, flatMap_subset hsub hfound, hrequest⟩

/-! ## The sends -/

/-- Nothing is asked of the answers. -/
abbrev Sends {α : Type} (setting : Setting) (p : Api α)
    (after : History → Except ApiError α → Prop) (h : History) : Prop :=
  p.Conforms (fun _ _ => True) (Asks setting) after h

section Sends

variable {config : Js.Json} {payload : NotificationPayload}

/-- A part that has been worked out before. -/
theorem sends_given {α β : Type} {r : Except ApiError α} {f : α → Api β}
    {after : History → Except ApiError β → Prop} (herror : ∀ e, after h (.error e))
    (hf : ∀ a, r = .ok a → Sends setting (f a) after h) :
    Sends setting ((Program.ofExcept r).bind f) after h := by
  cases r with
  | error e => exact herror e
  | ok a => exact hf a rfl

theorem sends_nothing {α : Type} {p : Api α} (hp : p.Awaits fun _ => False) :
    Sends setting p (fun _ _ => True) h :=
  hp.obeys (fun _ _ hop => hop.elim) h

/-- Whatever a request is answered with, a failure is reported as another error. -/
theorem sends_caught {p : Api HttpResponse} {error : ApiError} {f : HttpResponse → Api Unit}
    (hp : Sends setting p (fun _ _ => True) h)
    (hf : ∀ response, (f response).Awaits fun _ => False) :
    Sends setting ((p.handle fun _ => .raise error).bind f) (fun _ _ => True) h := by
  refine Program.Obeys.bind (fun _ _ => True) ?_ fun h' response _ => sends_nothing (hf response)
  refine Program.Obeys.handle (fun _ _ => True) (hp.mono (fun _ _ h => h) ?_) fun _ _ _ => trivial
  rintro h' (e | response) - <;> exact trivial

theorem ok_of_mapError {α ε ε' : Type} {f : ε → ε'} {r : Except ε α} {a : α}
    (h : r.mapError f = .ok a) : r = .ok a := by
  cases r with
  | error e => cases h
  | ok b => exact congrArg Except.ok (Except.ok.inj h)

theorem telegram_sends (hmay : May setting h payload .telegram config) :
    Sends setting (Telegram.send config payload) (fun _ _ => True) h := by
  refine sends_given (fun _ => trivial) fun secrets hconfig => sends_caught ?_ fun response => ?_
  · refine sends_given (fun _ => trivial) fun token htoken => ?_
    have htext := ok_of_mapError htoken
    refine ⟨Or.inr (hmay h _ (List.Subset.refl h) (.telegram hconfig htext)), ?_⟩
    rintro (e | response) h' - <;> exact trivial
  · dsimp only
    split_ifs
    · exact Program.Awaits.bind (Program.awaits_ofExcept _) fun _ => trivial
    · exact Program.Awaits.bind (Program.awaits_ofExcept _) fun _ => trivial

/-- How a call ends that asks for a token: with one that it may use. -/
def Obtained (setting : Setting) (h h' : History) (r : Except ApiError Js.Json) : Prop :=
  h ⊆ h' ∧ ∀ token, r = .ok token → Held setting h' token

theorem fetchAccessToken_sends :
    Sends setting (QqClientService.fetchAccessToken setting) (Obtained setting h) h := by
  have hfailed : ∀ {h' : History} (e : ApiError), h ⊆ h' → Obtained setting h h' (.error e) :=
    fun e hsub => ⟨hsub, fun token htoken => by cases htoken⟩
  rw [QqClientService.fetchAccessToken_eq]
  refine ⟨Or.inl rfl, ?_⟩
  rintro (e | response) h' ⟨-, rfl⟩
  · exact hfailed _ (List.subset_cons_self _ _)
  have hasked := List.subset_cons_self (⟨.fetch (QqClientService.tokenRequest setting),
    .ok response⟩ : Entry Op Answer ApiError) h
  refine sends_given (fun e => hfailed e hasked) fun response' hresponse => ?_
  obtain rfl := Except.ok.inj hresponse
  refine sends_given (fun e => hfailed e hasked) fun body hbody => ?_
  refine sends_given (fun e => hfailed e hasked) fun token htoken => ?_
  refine sends_given (fun e => hfailed e hasked) fun expiresIn _ => ?_
  have hissued : Issued setting (⟨.fetch (QqClientService.tokenRequest setting),
      .ok response⟩ :: h) token := by
    refine ⟨response, body, List.mem_cons_self, ?_⟩
    rw [QqClientService.tokenBody?, hbody]
    dsimp only
    rw [htoken]
  refine ⟨trivial, ?_⟩
  rintro (e | now) h' ⟨-, rfl⟩
  · exact hfailed e (List.subset_cons_of_subset _ hasked)
  refine ⟨hissued.subset (List.subset_cons_self _ _), ?_⟩
  rintro (e | _) h' ⟨-, rfl⟩
  · exact hfailed e (List.subset_cons_of_subset _ (List.subset_cons_of_subset _ hasked))
  refine ⟨List.subset_cons_of_subset _ (List.subset_cons_of_subset _ hasked), ?_⟩
  rintro token' htoken'
  obtain rfl := Except.ok.inj htoken'
  refine Or.inl (hissued.subset ?_)
  exact List.subset_cons_of_subset _ (List.subset_cons_self _ _)

theorem getAccessToken_sends :
    Sends setting (QqClientService.getAccessToken setting) (Obtained setting h) h := by
  have hfailed : ∀ {h' : History} (e : ApiError), h ⊆ h' → Obtained setting h h' (.error e) :=
    fun e hsub => ⟨hsub, fun token htoken => by cases htoken⟩
  have hfetch : ∀ {h' : History}, h ⊆ h' →
      Sends setting (QqClientService.fetchAccessToken setting) (Obtained setting h) h' := by
    intro h' hsub
    refine fetchAccessToken_sends.mono (fun _ _ h => h) ?_
    exact fun h'' r hobtained => ⟨List.Subset.trans hsub hobtained.1, hobtained.2⟩
  unfold QqClientService.getAccessToken QqClientService.ensureConfigured
  split_ifs
  · refine ⟨trivial, ?_⟩
    rintro (e | _ | cached) h' ⟨-, rfl⟩
    · exact hfailed e (List.subset_cons_self _ _)
    · exact hfetch (List.subset_cons_self _ _)
    refine ⟨trivial, ?_⟩
    rintro (e | now) h' ⟨-, rfl⟩
    · exact hfailed e (List.subset_cons_of_subset _ (List.subset_cons_self _ _))
    simp only [Program.ofExcept_ok, Program.bind]
    split_ifs
    · refine ⟨List.subset_cons_of_subset _ (List.subset_cons_self _ _), ?_⟩
      rintro token htoken
      obtain rfl := Except.ok.inj htoken
      exact Or.inr (by simp [tokensShown])
    · exact hfetch (List.subset_cons_of_subset _ (List.subset_cons_self _ _))
  · exact hfailed _ (List.Subset.refl h)

theorem qq_sends (hmay : May setting h payload .qq config) :
    Sends setting (Qq.send setting config payload) (fun _ _ => True) h := by
  refine sends_given (fun _ => trivial) fun groupOpenid hconfig => ?_
  unfold QqClientService.sendGroupMessage QqClientService.ensureConfigured
  split_ifs
  · refine Program.Obeys.bind (fun h' token => h ⊆ h' ∧ Held setting h' token) ?_ ?_
    · refine getAccessToken_sends.mono (fun _ _ h => h) ?_
      rintro h' (e | token) hobtained
      · exact trivial
      · exact ⟨hobtained.1, hobtained.2 token rfl⟩
    rintro h' token ⟨hsub, hheld⟩
    refine sends_caught ?_ fun response => ?_
    · refine sends_given (fun _ => trivial) fun group hgroup => ?_
      refine sends_given (fun _ => trivial) fun authorization hauthorization => ?_
      have htoken := ok_of_mapError hauthorization
      refine ⟨Or.inr (hmay h' _ hsub (.qq hconfig hgroup hheld htoken)), ?_⟩
      rintro (e | response) h'' - <;> exact trivial
    · dsimp only
      split_ifs
      · exact Program.Awaits.bind (Program.awaits_ofExcept _) fun _ => trivial
      · exact Program.Awaits.bind (Program.awaits_ofExcept _) fun _ => trivial
  · exact trivial

theorem sendBy_sends {type : NotificationChannelType} (hmay : May setting h payload type config) :
    Sends setting (sendBy setting type config payload) (fun _ _ => True) h := by
  cases type with
  | telegram => exact telegram_sends hmay
  | wechat => exact trivial
  | qq => exact qq_sends hmay

end Sends

/-! ## The calls -/

/-- What `processTask` sends is made of a task that it has found. -/
def SendsFound (found : List TaskWithRelations) : Notifications.Op → Prop
  | .startSend provider config payload => ∃ task ∈ found, provider = task.channel.type ∧
      config = task.channel.config ∧ payload = buildPayload task
  | _ => True

abbrev Finds (op : Notifications.Op) (found : List TaskWithRelations)
    (r : Except ApiError (Notifications.Answer op)) (found' : List TaskWithRelations) : Prop :=
  found' = taskFound op r ++ found

theorem processTask_finds (id : Id) (found : List TaskWithRelations) :
    (Notifications.processTask id).Obeys Finds SendsFound (fun _ _ => True) found := by
  have hquiet : ∀ {p : Notifications.Api Unit} {found : List TaskWithRelations},
      p.Awaits (fun op => ∀ found, SendsFound found op) →
        p.Obeys Finds SendsFound (fun _ _ => True) found :=
    fun hp => hp.obeys (fun found op hop => hop found) _
  refine ⟨trivial, ?_⟩
  rintro (e | _ | task) found' rfl
  · exact trivial
  · exact trivial
  refine ⟨trivial, ?_⟩
  rintro (e | _) found' rfl
  · exact trivial
  refine Program.Obeys.handle (fun _ _ => True) ?_ fun found' error _ => hquiet ?_
  · rw [factoryGet_eq]
    refine ⟨⟨task, List.mem_cons_self, rfl, rfl, rfl⟩, fun r found' _ => ?_⟩
    refine Program.Obeys.mono (hquiet ?_) (fun _ _ h => h) ?_
    · refine Program.Awaits.bind (.bind (Program.awaits_ofExcept _) fun _ =>
        Program.awaits_await fun _ => trivial) fun _ => ?_
      refine Program.Awaits.bind (Program.awaits_await fun _ => trivial) fun sentAt => ?_
      refine Program.Awaits.bind (Program.awaits_await fun _ => trivial) fun _ => ?_
      exact Program.awaits_await fun _ => trivial
    · rintro found'' (e | _) - <;> exact trivial
  · refine Program.Awaits.bind (Program.awaits_await fun _ => trivial) fun _ => ?_
    exact Program.Awaits.bind (Program.awaits_await fun _ => trivial) fun _ => trivial

theorem dispatch_finds (id : Id) (found : List TaskWithRelations) :
    (Notifications.dispatch id).Obeys Finds SendsFound (fun _ _ => True) found := by
  refine Program.Obeys.handle (fun _ _ => True) ?_ fun found' error _ => ?_
  · refine (processTask_finds id found).mono (fun _ _ h => h) fun found' r _ => ?_
    cases r <;> exact trivial
  · split_ifs <;> exact trivial

theorem perform_sends (op : Notifications.Op) (h : History)
    (hop : SendsFound (h.flatMap tasksFound) op) :
    Sends setting (perform setting op)
      (fun h' r => Finds op (h.flatMap tasksFound) r (h'.flatMap tasksFound)) h := by
  cases op with
  | startSend provider config payload =>
      obtain ⟨task, hfound, rfl, rfl, rfl⟩ := hop
      have hplain : (sendBy setting task.channel.type task.channel.config
          (buildPayload task)).Awaits Plain := sendBy_plain _ _ _
      have hkept : (sendBy setting task.channel.type task.channel.config
          (buildPayload task)).Conforms (fun _ _ => True) (fun _ _ => True)
          (fun h' _ => h'.flatMap tasksFound = h.flatMap tasksFound) h := by
        refine hplain.stable ?_ rfl
        rintro op h₁ r h₂ hop ⟨-, rfl⟩ hsame
        cases op with
        | task op => exact hop.elim
        | _ => exact hsame
      refine ((sendBy_sends (may_task hfound)).and hkept fun _ _ _ _ h => h).mono
        (fun _ _ h => h) ?_
      rintro h' (e | _) ⟨-, hsame⟩ <;> exact hsame
  | finishSend => exact rfl
  | _ => exact ⟨trivial, fun r h' hstep => by obtain ⟨-, rfl⟩ := hstep; cases r <;> rfl⟩

theorem attempt_sends {p : Notifications.Api Unit}
    (hp : p.Obeys Finds SendsFound (fun _ _ => True) []) :
    Sends setting (p.interp (perform setting)) (fun _ _ => True) [] :=
  Program.Obeys.interp (fun h : History => h.flatMap tasksFound) hp
    (fun op h hop => perform_sends op h hop) fun _ _ h => h

theorem testChannel_sends (id : Id) :
    Sends setting (testChannel setting id) (fun _ _ => True) [] := by
  refine ⟨trivial, ?_⟩
  rintro (e | _ | channel) h ⟨-, rfl⟩
  · exact trivial
  · exact trivial
  have hmay : May setting [⟨.findChannelById id, .ok (some channel)⟩] testPayload channel.type
      channel.config := may_channel (by simp [channelsFound])
  have hsend := sendBy_sends hmay
  simp only [Program.ofExcept_ok, Program.bind_def, Program.pure_def, Program.bind, factoryGet_eq,
    Program.interp]
  refine Program.Obeys.bind (fun _ _ => True) (hsend.mono (fun _ _ h => h) ?_) fun _ _ _ => trivial
  rintro h' (e | _) - <;> exact trivial

/-- A program that sends nothing. -/
def Op.Silent : Op → Prop
  | .fetch _ => False
  | .cacheToken _ => False
  | _ => True

theorem sends_silent {α : Type} {p : Api α} (hp : p.Awaits Op.Silent) :
    Sends setting p (fun _ _ => True) h := by
  refine hp.obeys (fun h op hop => ?_) h
  cases op with
  | fetch request => exact hop.elim
  | cacheToken cached => exact hop.elim
  | _ => exact trivial

theorem ensureChannelExists_silent (id : Id) : (ensureChannelExists id).Awaits Op.Silent := by
  refine Program.Awaits.bind (Program.awaits_await trivial) fun channel? => ?_
  cases channel? <;> exact trivial

theorem program_sends (request : Request) :
    Sends setting (program setting request) (fun _ _ => True) [] := by
  have hbind : ∀ {α : Type} {p : Api α} {f : α → Reply},
      Sends setting p (fun _ _ => True) [] →
        Sends setting (p.bind fun a => .ret (f a)) (fun _ _ => True) [] := by
    intro α p f hp
    refine Program.Obeys.bind (fun _ _ => True) (hp.mono (fun _ _ h => h) ?_) fun _ _ _ => trivial
    rintro h' (e | _) - <;> exact trivial
  cases request with
  | testChannel id => exact hbind (testChannel_sends id)
  | processTask taskId => exact hbind (attempt_sends (processTask_finds taskId []))
  | dispatch taskId => exact hbind (attempt_sends (dispatch_finds taskId []))
  | createChannel dto =>
      refine hbind (sends_silent ?_)
      refine Program.Awaits.bind (Program.awaits_ofExcept _) fun _ => ?_
      exact Program.Awaits.bind (Program.awaits_await trivial) fun _ => trivial
  | updateChannel id dto =>
      refine hbind (sends_silent ?_)
      refine Program.Awaits.bind (ensureChannelExists_silent id) fun channel => ?_
      refine Program.Awaits.bind (Program.awaits_ofExcept _) fun _ => ?_
      refine Program.Awaits.bind (Program.awaits_ofExcept _) fun name => ?_
      exact Program.Awaits.bind (Program.awaits_await trivial) fun _ => trivial
  | listChannels query =>
      exact hbind (sends_silent (.bind (Program.awaits_await trivial) fun _ => trivial))
  | getChannel id =>
      exact hbind (sends_silent (.bind (ensureChannelExists_silent id) fun _ => trivial))
  | listTasks query =>
      exact hbind (sends_silent (Program.awaits_interp (fun _ => Program.awaits_await trivial) _))
  | getTask id =>
      refine hbind (sends_silent (.bind (Program.awaits_await trivial) fun task? => ?_))
      cases task? <;> exact trivial
  | findNotifications messageId =>
      refine hbind (sends_silent (.bind (Program.awaits_await trivial) fun message? => ?_))
      cases message? with
      | none => exact trivial
      | some message => exact .bind (Program.awaits_await trivial) fun _ => trivial

end SocialMonitor.Channels

import SocialMonitor.Accounts.Sessions
import SocialMonitor.Channels.Twins

/-!
# Credentials at rest

The tables of accounts and of channels under any sequence of requests to the
services that write them.
-/

namespace SocialMonitor.Credentials

open Async Channels

structure Setting where
  accounts : Accounts.Setting
  qq : Channels.Setting

structure State where
  channels : Channels.World
  accounts : Accounts.State

inductive Event where
  | channel (request : Request) (choices : ℕ → Channels.Choice)
  | account (event : Accounts.Event)

def initial : State := ⟨⟨Store.empty, none⟩, Accounts.initial⟩

def step (setting : Setting) (s : State) : Event → State
  | .channel request choices =>
      { s with channels := (serve setting.qq request choices s.channels).2 }
  | .account event => { s with accounts := Accounts.step setting.accounts s.accounts event }

theorem channels_step (setting : Setting) (s : State) (request : Request)
    (choices : ℕ → Channels.Choice) : (step setting s (.channel request choices)).channels =
      (serve setting.qq request choices s.channels).2 := rfl

/-! ## What is encrypted -/

variable (setting : Setting)

def Encrypted (s : String) : Prop := setting.accounts.encryption.Encrypted s

/-- Every secret of the config is an output of `encrypt`. -/
def ConfigEncrypted (config : Js.Json) : Prop :=
  ∀ name ∈ secretNames, ∀ v, truthy? config name = some v →
    ∃ s, v = .str (units s) ∧ Encrypted setting s

structure AtRest (s : State) : Prop where
  sessions : ∀ a ∈ s.accounts.world.accounts.rows, a.session ≠ "" → Encrypted setting a.session
  configs : ∀ c ∈ s.channels.store.channels, ConfigEncrypted setting c.config

/-- The request passes the checks of the service, and the column holds `config` for the
config that it carries. -/
def Accepts (w : World) (config : Js.Json) : Request → Prop
  | .createChannel dto =>
      dto.config.column? = some config ∧ validateConfig dto.type dto.config = .ok ()
  | .updateChannel id dto => (given dto.config).bind Js.Json.column? = some config ∧
      dto.name ≠ .null ∧ dto.enabled ≠ .null ∧
      ∃ row, w.store.channel? id = some row ∧ validateUpdate row.type dto.config = .ok ()
  | _ => False

/-- A config that a request has accepted is encrypted already. -/
def Allowed (s : State) : Event → Prop
  | .channel request _ => ∀ config, Accepts s.channels config request →
      ConfigEncrypted setting config
  | .account _ => True

/-! ## The accounts -/

variable {setting} {s : State}

/-- A login stores what `encrypt` made, and a logout the empty string. -/
theorem applies_sessions {t t' : Accounts.AccountTable} {change : Option Accounts.Change}
    (happlies : Accounts.Applies setting.accounts t change t')
    (h : ∀ a ∈ t.rows, a.session ≠ "" → Encrypted setting a.session) :
    ∀ a ∈ t'.rows, a.session ≠ "" → Encrypted setting a.session := by
  have hcell : ∀ {session : String}, (session ≠ "" → Encrypted setting session) → ∀ id connected,
      ∀ a ∈ (t.update id session connected).rows, a.session ≠ "" → Encrypted setting a.session := by
    intro session hsession id connected a ha
    obtain ⟨b, hb, rfl⟩ := List.mem_map.mp ha
    split_ifs
    · exact hsession
    · exact h b hb
  cases happlies with
  | kept => exact h
  | updated a iv session encrypted ha hencrypt =>
      exact hcell (fun _ => ⟨iv, session, hencrypt⟩) a.id true
  | created phone iv session encrypted hnew hencrypt =>
      intro a ha
      rcases List.mem_append.mp ha with ha | ha
      · exact h a ha
      · obtain rfl := List.mem_singleton.mp ha
        exact fun _ => ⟨iv, session, hencrypt⟩
  | cleared a ha => exact hcell (fun hne => absurd rfl hne) a.id false

/-! ## The channels -/

/-- The operation changes no channel. -/
def KeepsChannels : Op → Prop
  | .createChannel _ => False
  | .updateChannel _ _ => False
  | _ => True

section Awaits

variable {qq : Channels.Setting}

theorem query_channels {α : Type} (c : Channels.Choice) (w : World)
    {applied : Except ApiError α × Store}
    (h : applied.2.channels = w.store.channels) :
    (w.on (c.query w.store applied)).2.store.channels = w.store.channels := by
  rcases c.query_cases w.store applied with ⟨e, -, heq⟩ | ⟨-, heq⟩ <;> rw [heq]
  · rfl
  · exact h

theorem exec_channels (c : Channels.Choice) {op : Op} (w : World) (h : KeepsChannels op) :
    (exec c op w).2.store.channels = w.store.channels := by
  cases op with
  | createChannel data => exact h.elim
  | updateChannel id data => exact h.elim
  | findTasks op => cases op <;> exact query_channels c w rfl
  | task op =>
      cases op with
      | findTaskWithRelations id => exact query_channels c w rfl
      | updateTask id data =>
          refine query_channels c w ?_
          split_ifs <;> rfl
      | _ => rfl
  | now => rfl
  | cachedToken => rfl
  | cacheToken token => rfl
  | fetch request => rfl
  | _ => exact query_channels c w rfl

theorem keepsChannels_of_plain {op : Op} (h : Plain op) : KeepsChannels op := by
  cases op with
  | createChannel data => exact h
  | updateChannel id data => exact h
  | _ => trivial

theorem sendBy_awaits (type : NotificationChannelType) (config : Js.Json)
    (payload : Notifications.NotificationPayload) :
    (sendBy qq type config payload).Awaits KeepsChannels :=
  (sendBy_plain type config payload).mono fun _ h => keepsChannels_of_plain h

theorem perform_awaits (op : Notifications.Op) : (perform qq op).Awaits KeepsChannels := by
  cases op with
  | startSend provider config payload => exact sendBy_awaits provider config payload
  | finishSend => exact trivial
  | _ => exact Program.awaits_await trivial

theorem ensureChannelExists_awaits (id : Id) : (ensureChannelExists id).Awaits KeepsChannels := by
  refine Program.Awaits.bind (Program.awaits_await trivial) fun channel? => ?_
  cases channel? <;> exact trivial

theorem program_awaits {request : Request} (hcreate : ∀ dto, request ≠ .createChannel dto)
    (hupdate : ∀ id dto, request ≠ .updateChannel id dto) :
    (program qq request).Awaits KeepsChannels := by
  cases request with
  | createChannel dto => exact absurd rfl (hcreate dto)
  | updateChannel id dto => exact absurd rfl (hupdate id dto)
  | listChannels query =>
      exact .bind (.bind (Program.awaits_await trivial) fun _ => trivial) fun _ => trivial
  | getChannel id =>
      exact .bind (.bind (ensureChannelExists_awaits id) fun _ => trivial) fun _ => trivial
  | testChannel id =>
      refine .bind (.bind (ensureChannelExists_awaits id) fun channel => ?_) fun _ => trivial
      refine .bind (Program.awaits_interp perform_awaits _) fun provider => ?_
      exact .bind (sendBy_awaits _ _ _) fun _ => trivial
  | processTask taskId => exact .bind (Program.awaits_interp perform_awaits _) fun _ => trivial
  | dispatch taskId => exact .bind (Program.awaits_interp perform_awaits _) fun _ => trivial
  | listTasks query =>
      exact .bind (Program.awaits_interp (fun _ => Program.awaits_await trivial) _) fun _ => trivial
  | getTask id =>
      refine .bind (.bind (Program.awaits_await trivial) fun task? => ?_) fun _ => trivial
      cases task? <;> exact trivial
  | findNotifications messageId =>
      refine .bind (.bind (Program.awaits_await trivial) fun message? => ?_) fun _ => trivial
      cases message? with
      | none => exact trivial
      | some message => exact .bind (Program.awaits_await trivial) fun _ => trivial

end Awaits

/-! ## What a request stores -/

section Serve

variable {qq : Channels.Setting} {w : World} {choices : ℕ → Channels.Choice}

theorem serve_createChannel (dto : CreateChannelDto) : (serve qq (.createChannel dto) choices w).2 =
    match validateConfig dto.type dto.config with
    | .error _ => w
    | .ok _ =>
        (exec (choices 0) (.createChannel ⟨Js.trim dto.name, dto.type, dto.config⟩) w).2 := by
  refine (Program.run_bind_ret exec (createChannel dto) _ choices w).trans ?_
  unfold createChannel
  cases validateConfig dto.type dto.config with
  | error e => rfl
  | ok _ =>
      refine (Program.run_bind_ret exec (Program.await _) _ choices w).trans ?_
      rw [Program.run_await]

theorem serve_updateChannel (id : Id) (dto : UpdateChannelDto) :
    (serve qq (.updateChannel id dto) choices w).2 =
      match (choices 0).fault, w.store.channel? id with
      | none, some row =>
          match validateUpdate row.type dto.config, trimmedName dto.name with
          | .ok _, .ok name =>
              (exec (choices 1) (.updateChannel id ⟨name, dto.enabled, dto.config⟩) w).2
          | _, _ => w
      | _, _ => w := by
  have hserve : (serve qq (.updateChannel id dto) choices w).2 =
      ((updateChannel id dto).run exec choices w).2 :=
    Program.run_bind_ret exec (updateChannel id dto) _ choices w
  rw [hserve]
  unfold updateChannel ensureChannelExists
  simp only [Program.bind_def, Program.bind_assoc, Program.run_await_bind]
  cases hfault : (choices 0).fault with
  | some e => simp only [exec, World.on, SocialMonitor.Choice.query, hfault]
  | none =>
      simp only [exec, World.on, SocialMonitor.Choice.query, hfault]
      cases hrow : w.store.channel? id with
      | none => rfl
      | some row =>
          simp only [Program.pure_def, Program.bind]
          cases hvalid : validateUpdate row.type dto.config with
          | error e => rfl
          | ok _ =>
              cases hname : trimmedName dto.name with
              | error e => rfl
              | ok name =>
                  refine (Program.run_bind_ret exec (Program.await _) _ _ w).trans ?_
                  rw [Program.run_await]
                  rfl

theorem trimmedName_ok {name : Monitors.Field String} {trimmed : Option String}
    (h : trimmedName name = .ok trimmed) : name ≠ .null := by
  rintro rfl
  simp [trimmedName] at h

theorem trimmedName_of_ne_null {name : Monitors.Field String} (h : name ≠ .null) :
    ∃ trimmed, trimmedName name = .ok trimmed := by
  cases name with
  | null => exact absurd rfl h
  | _ => exact ⟨_, rfl⟩

def Before (w : World) (c : NotificationChannel) : Prop :=
  ∃ b ∈ w.store.channels, b.config = c.config

theorem updateChannelRow_config {id : Id} {data : ChannelUpdate} {c : NotificationChannel}
    (hc : c ∈ (updateChannelRow id data w.store).2.channels) :
    Before w c ∨ data.enabled ≠ .null ∧
      (given data.config).bind Js.Json.column? = some c.config := by
  rcases updateChannelRow_cases id data w.store with ⟨e, heq⟩ | ⟨row, new, hrow, hnew, heq⟩ <;>
    rw [heq] at hc
  · exact Or.inl ⟨c, hc, rfl⟩
  obtain ⟨henabled, hconfig, -⟩ := updatedChannel_ok hnew
  obtain ⟨b, hb, rfl⟩ := List.mem_map.mp hc
  split_ifs
  · rcases setConfig_ok hconfig with ⟨-, hold⟩ | ⟨config, hgiven, hheld⟩
    · exact Or.inl ⟨row, List.mem_of_find?_eq_some hrow, hold.symm⟩
    · exact Or.inr ⟨henabled, by rw [hgiven, Option.bind_some, hheld]⟩
  · exact Or.inl ⟨b, hb, rfl⟩

theorem createChannel_config {dto : CreateChannelDto} {c : NotificationChannel}
    (hc : c ∈ (serve qq (.createChannel dto) choices w).2.store.channels) :
    Before w c ∨ Accepts w c.config (.createChannel dto) := by
  rw [serve_createChannel] at hc
  cases hvalid : validateConfig dto.type dto.config with
  | error e =>
      rw [hvalid] at hc
      exact Or.inl ⟨c, hc, rfl⟩
  | ok _ =>
      rw [hvalid] at hc
      change c ∈ ((choices 0).query w.store (createChannelRow _ _ w.store)).2.channels at hc
      rcases (choices 0).query_cases w.store
        (createChannelRow ⟨Js.trim dto.name, dto.type, dto.config⟩
        (choices 0).now w.store) with ⟨e, -, heq⟩ | ⟨-, heq⟩ <;> rw [heq] at hc
      · exact Or.inl ⟨c, hc, rfl⟩
      · rcases createChannelRow_cases ⟨Js.trim dto.name, dto.type, dto.config⟩ (choices 0).now
          w.store with ⟨e, heq⟩ | ⟨config, hheld, heq⟩ <;> rw [heq] at hc
        · exact Or.inl ⟨c, hc, rfl⟩
        · rcases List.mem_append.mp hc with hc | hc
          · exact Or.inl ⟨c, hc, rfl⟩
          · obtain rfl := List.mem_singleton.mp hc
            exact Or.inr ⟨hheld, hvalid⟩

theorem updateChannel_config {id : Id} {dto : UpdateChannelDto} {c : NotificationChannel}
    (hc : c ∈ (serve qq (.updateChannel id dto) choices w).2.store.channels) :
    Before w c ∨ Accepts w c.config (.updateChannel id dto) := by
  rw [serve_updateChannel] at hc
  split at hc
  · rename_i row _ hrow
    split at hc
    · rename_i name hvalid hname
      change c ∈ ((choices 1).query w.store (updateChannelRow _ _ w.store)).2.channels at hc
      rcases (choices 1).query_cases w.store
        (updateChannelRow id ⟨name, dto.enabled, dto.config⟩ w.store) with
        ⟨e, -, heq⟩ | ⟨-, heq⟩ <;> rw [heq] at hc
      · exact Or.inl ⟨c, hc, rfl⟩
      · refine (updateChannelRow_config hc).imp_right fun hconfig => ?_
        exact ⟨hconfig.2, trimmedName_ok hname, hconfig.1, row, hrow, hvalid⟩
    · exact Or.inl ⟨c, hc, rfl⟩
  · exact Or.inl ⟨c, hc, rfl⟩

/-- Every config after a request was there before, or the request has brought it. -/
theorem serve_config {request : Request} {c : NotificationChannel}
    (hc : c ∈ (serve qq request choices w).2.store.channels) :
    Before w c ∨ Accepts w c.config request := by
  by_cases hcreate : ∃ dto, request = .createChannel dto
  · obtain ⟨dto, rfl⟩ := hcreate
    exact createChannel_config hc
  · by_cases hupdate : ∃ id dto, request = .updateChannel id dto
    · obtain ⟨id, dto, rfl⟩ := hupdate
      exact updateChannel_config hc
    · have hawaits : (program qq request).Awaits KeepsChannels :=
        program_awaits (not_exists.mp hcreate) fun id dto h => hupdate ⟨id, dto, h⟩
      have hkept : (serve qq request choices w).2.store.channels = w.store.channels := by
        refine hawaits.run (fun w' : World => w'.store.channels = w.store.channels) ?_ rfl choices
        exact fun c op w' hop hw' => (exec_channels c w' hop).trans hw'
      exact Or.inl ⟨c, hkept ▸ hc, rfl⟩

theorem updateChannelRow_stored {id : Id} {data : ChannelUpdate}
    {row : NotificationChannel} {config : Js.Json}
    (hrow : w.store.channel? id = some row) (henabled : data.enabled ≠ .null)
    (hconfig : (given data.config).bind Js.Json.column? = some config) :
    ∃ c ∈ (updateChannelRow id data w.store).2.channels, c.type = row.type ∧ c.config = config := by
  obtain ⟨carried, hgiven, hheld⟩ := Option.bind_eq_some_iff.mp hconfig
  have hset : setConfig row.config data.config = .ok config := by
    rw [setConfig, hgiven]
    exact storedConfig_ok.mpr hheld
  obtain ⟨new, hnew, htype, hnewConfig⟩ :
      ∃ new, updatedChannel data row = .ok new ∧ new.type = row.type ∧ new.config = config := by
    unfold updatedChannel
    rw [hset]
    cases hdata : data.enabled with
    | null => exact absurd hdata henabled
    | _ => exact ⟨_, rfl, rfl, rfl⟩
  refine ⟨new, ?_, htype, hnewConfig⟩
  simp only [updateChannelRow, hrow, hnew]
  have hid : row.id = id := by simpa using List.find?_some hrow
  exact List.mem_map.mpr ⟨row, List.mem_of_find?_eq_some hrow, if_pos hid⟩

theorem createChannel_stored (qq : Channels.Setting) {dto : CreateChannelDto} {config : Js.Json}
    (hheld : dto.config.column? = some config)
    (hvalid : validateConfig dto.type dto.config = .ok ()) (choices : ℕ → Channels.Choice)
    (hcalm : ∀ n, (choices n).fault = none) :
    ∃ c ∈ (serve qq (.createChannel dto) choices w).2.store.channels,
      c.type = dto.type ∧ c.config = config := by
  rw [serve_createChannel, hvalid]
  refine ⟨channelRow ⟨Js.trim dto.name, dto.type, config⟩ w.store.nextId (choices 0).now,
    ?_, rfl, rfl⟩
  simp [exec, World.on, SocialMonitor.Choice.query, hcalm, createChannelRow,
    storedConfig_ok.mpr hheld]

theorem updateChannel_stored (qq : Channels.Setting) {id : Id} {dto : UpdateChannelDto}
    {row : NotificationChannel} {config : Js.Json}
    (hconfig : (given dto.config).bind Js.Json.column? = some config) (hname : dto.name ≠ .null)
    (henabled : dto.enabled ≠ .null) (hrow : w.store.channel? id = some row)
    (hvalid : validateUpdate row.type dto.config = .ok ()) (choices : ℕ → Channels.Choice)
    (hcalm : ∀ n, (choices n).fault = none) :
    ∃ c ∈ (serve qq (.updateChannel id dto) choices w).2.store.channels,
      c.type = row.type ∧ c.config = config := by
  obtain ⟨name, hname⟩ := trimmedName_of_ne_null hname
  rw [serve_updateChannel, hcalm, hrow]
  simp only [hvalid, hname, exec, World.on, SocialMonitor.Choice.query, hcalm]
  exact updateChannelRow_stored hrow henabled hconfig

/-- Where the database fails in nothing, an accepted config is stored. -/
theorem accepts_stored (qq : Channels.Setting) {request : Request} {config : Js.Json}
    (h : Accepts w config request) (choices : ℕ → Channels.Choice)
    (hcalm : ∀ n, (choices n).fault = none) :
    ∃ c ∈ (serve qq request choices w).2.store.channels, c.config = config := by
  cases request with
  | createChannel dto =>
      obtain ⟨c, hc, -, hconfig⟩ := createChannel_stored qq h.1 h.2 choices hcalm
      exact ⟨c, hc, hconfig⟩
  | updateChannel id dto =>
      obtain ⟨hgiven, hname, henabled, row, hrow, hvalid⟩ := h
      obtain ⟨c, hc, -, hconfig⟩ :=
        updateChannel_stored qq hgiven hname henabled hrow hvalid choices hcalm
      exact ⟨c, hc, hconfig⟩
  | _ => exact h.elim

end Serve

/-! ## Every run -/

theorem step_atRest {e : Event} (hs : AtRest setting s) (he : Allowed setting s e) :
    AtRest setting (step setting s e) := by
  cases e with
  | account event =>
      refine ⟨?_, hs.configs⟩
      cases event with
      | sidecarRestart => exact hs.sessions
      | operation operation choices =>
          obtain ⟨happlies, -⟩ :=
            Accounts.turn_ends setting.accounts s.accounts.world operation choices
          exact applies_sessions happlies hs.sessions
  | channel request choices =>
      refine ⟨hs.sessions, fun c hc => ?_⟩
      rcases serve_config hc with ⟨b, hb, hconfig⟩ | haccepts
      · exact hconfig ▸ hs.configs b hb
      · exact he c.config haccepts

/-- Credentials are encrypted at rest in every state reached, if every config
that a request brings is encrypted already.  One that is not is stored as it is. -/
theorem credentials_atRest (setting : Setting) :
    (∀ s, Machine.Run (step setting) (Allowed setting) initial s → AtRest setting s) ∧
      ∀ s, AtRest setting s →
      ∀ request, ((∀ choices, AtRest setting (step setting s (.channel request choices))) ↔
        ∀ choices, Allowed setting s (.channel request choices)) := by
  constructor
  · intro s hrun
    refine hrun.invariant (AtRest setting) ?_ fun s e _ hs he => step_atRest hs he
    exact ⟨fun a ha => absurd ha List.not_mem_nil, fun c hc => absurd hc List.not_mem_nil⟩
  · intro s hs request
    constructor
    · intro hatRest _ config haccepts
      obtain ⟨c, hc, rfl⟩ := accepts_stored setting.qq haccepts (fun _ => delivered) fun _ => rfl
      exact (hatRest _).configs c hc
    · exact fun hallowed choices => step_atRest hs (hallowed choices)

/-! ## A channel with a plain token -/

def sampleSetting : Setting := ⟨Accounts.sampleSetting, quiet⟩

def botOf (secret : String) : Js.Json :=
  .obj [(units "botToken", .str (units secret)), (units "chatId", .str (units secret))]

theorem column?_botOf {secret : String} (h : Js.Json.storableText (units secret) = true) :
    (botOf secret).column? = some (botOf secret) := by
  have hbot : botOf secret = .ofTexts [(units "botToken", units secret),
    (units "chatId", units secret)] := rfl
  rw [hbot]
  refine Js.Json.column?_ofTexts ?_
  have hnames : ∀ s ∈ ["botToken", "chatId"], Js.Json.storableText (units s) = true := by
    decide +kernel
  simp [hnames, h]

def createBot (secret : String) : Request := .createChannel ⟨"bot", .telegram, botOf secret⟩

/-- What `encrypt` makes of a token. -/
def sealedToken : String := "CQkJCQkJCQkJCQkJ.eXRwanM=.BwcHBwcHBwcHBwcHBwcHBw=="

theorem sealedToken_encrypted : Encrypted sampleSetting sealedToken :=
  ⟨Accounts.sampleIv, "token", by decide +kernel⟩

/-- The channel of a sealed token is created, and an account logs in. -/
def sealedRun : List Event :=
  .channel (createBot sealedToken) (fun _ => delivered) ::
    (Accounts.login "+86 138" "session").map .account

theorem createBot_allowed (s : State) :
    Allowed sampleSetting s (.channel (createBot sealedToken) fun _ => delivered) := by
  rintro config ⟨hheld, -⟩ name hname v hv
  obtain rfl : botOf sealedToken = config := (Js.Json.column?_eq_some.mp hheld).2
  have hsecret : v = .str (units sealedToken) := by
    obtain ⟨m, hm, rfl⟩ := mem_of_truthy? hv
    simp only [List.mem_cons, List.not_mem_nil, or_false] at hm
    rcases hm with rfl | rfl <;> rfl
  exact ⟨sealedToken, hsecret, sealedToken_encrypted⟩

theorem credentials_atRest_login :
    (sealedRun.foldl (step sampleSetting) initial).channels.store.channels.length = 1 ∧
      (sealedRun.foldl (step sampleSetting) initial).accounts.world.accounts.rows.length = 1 ∧
        AtRest sampleSetting (sealedRun.foldl (step sampleSetting) initial) := by
  refine ⟨by decide +kernel, by decide +kernel, (credentials_atRest sampleSetting).1 _ ?_⟩
  exact Machine.Run.refl.list ⟨createBot_allowed _, trivial, trivial, trivial⟩

/-- The token is stored as it was given. -/
theorem plainToken_stored : ∃ s, Machine.Run (step sampleSetting) (fun _ _ => True) initial s ∧
    ¬ AtRest sampleSetting s := by
  refine ⟨step sampleSetting initial (.channel (createBot "token") fun _ => delivered),
    .step .refl trivial,
    fun hatRest => ?_⟩
  have haccepts : Accepts initial.channels (botOf "token") (createBot "token") :=
    ⟨column?_botOf (by decide +kernel), by decide +kernel⟩
  obtain ⟨c, hc, hconfig⟩ :=
    accepts_stored sampleSetting.qq haccepts (fun _ => delivered) fun _ => rfl
  rw [← channels_step sampleSetting initial] at hc
  obtain ⟨secret, htoken, hencrypted⟩ :=
    hatRest.configs c hc "botToken" (by decide) (.str (units "token"))
    (by rw [hconfig]; rfl)
  have hunits : units "token" = units secret := Js.Json.str.inj htoken
  -- A payload has a dot.
  have hdot : 46 ∈ units secret := by
    refine List.mem_flatMap.mpr ⟨'.', ?_, by decide⟩
    exact sampleSetting.accounts.encryption.dot_mem_of_encrypted hencrypted
  rw [← hunits] at hdot
  revert hdot
  decide +kernel

end SocialMonitor.Credentials

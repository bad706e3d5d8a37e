import SocialMonitor.Async.Trace
import SocialMonitor.Credentials

/-!
# Validated configs

What the requests of a run hand to the repository, and what the providers read
of it.
-/

namespace SocialMonitor.Channels

open Async Credentials

/-- `@IsObject()`, which takes no array. -/
def isObject : Js.Json → Bool
  | .obj _ => true
  | _ => false

/-- `@IsOptional()` before the check of a value. -/
def optional {α : Type} (check : α → Bool) : Monitors.Field α → Bool
  | .value v => check v
  | _ => true

/-- What the validation of the bodies says of their configs. -/
def Request.accepted : Request → Bool
  | .createChannel dto => isObject dto.config
  | .updateChannel _ dto => optional isObject dto.config
  | _ => true

/-- The config that an operation hands to the repository, with the type of its
channel. -/
def handed (w : World) : Op → List (NotificationChannelType × Js.Json)
  | .createChannel data => [(data.type, data.config)]
  | .updateChannel id data =>
      match w.store.channel? id, given data.config with
      | some row, some config => [(row.type, config)]
      | _, _ => []
  | _ => []

def ValidPair (c : NotificationChannelType × Js.Json) : Prop := validateConfig c.1 c.2 = .ok ()

/-! ## Sequences of requests -/

structure Recorded where
  world : World
  handed : List (NotificationChannelType × Js.Json)

structure Served where
  request : Request
  choices : ℕ → Choice

variable (setting : Setting)

/-- A request is served, and what it hands over is recorded. -/
def record (s : Recorded) (e : Served) : Recorded :=
  let served :=
    (program setting e.request).run (recording handed exec) e.choices (s.world, s.handed)
  ⟨served.2.1, served.2.2⟩

def fresh : Recorded := ⟨⟨Store.empty, none⟩, []⟩

/-- The secrets that the provider reads. -/
def required : NotificationChannelType → List String
  | .telegram => ["botToken", "chatId"]
  | .wechat => []
  | .qq => ["groupOpenid"]

/-- A config that the column holds has no such secret that is an infinite number: the
column has `null` for it. -/
def Lasting (c : NotificationChannelType × Js.Json) : Prop :=
  c.2.storable = true → ∀ name ∈ required c.1, ∀ v, truthy? c.2 name = some v →
    v.isInfinite = false

/-- A config that is set has lasting secrets, and no update of an existing channel
sets `null`.  An update whose name is `null` fails before, and one whose `enabled`
is `null` is refused by the database. -/
def GivesConfig (w : World) : Request → Prop
  | .createChannel dto =>
      validateConfig dto.type dto.config = .ok () → Lasting (dto.type, dto.config)
  | .updateChannel id dto => dto.name ≠ .null → ∀ row, w.store.channel? id = some row →
      dto.config ≠ .null ∧ ∀ config, dto.config = .value config → dto.enabled ≠ .null →
        validateConfig row.type config = .ok () → Lasting (row.type, config)
  | _ => True

/-- The body passes the validation. -/
def Admitted (s : Recorded) (e : Served) : Prop :=
  e.request.accepted = true ∧ GivesConfig s.world e.request

/-- The provider of the channel reads its config. -/
def Readable (c : NotificationChannel) : Prop :=
  (c.type = .telegram → ∃ secrets, Telegram.parseConfig c.config = .ok secrets) ∧
    (c.type = .qq → ∃ groupOpenid, Qq.parseConfig c.config = .ok groupOpenid)

structure Validated (s : Recorded) : Prop where
  handed : ∀ c ∈ s.handed, ValidPair c
  stored : ∀ c ∈ s.world.store.channels, Readable c

/-! ## The validators agree -/

theorem telegram_parseConfig_iff (config : Js.Json) :
    (∃ secrets, Telegram.parseConfig config = .ok secrets) ↔
      (truthy? config "botToken").isSome = true ∧ (truthy? config "chatId").isSome = true := by
  rw [Telegram.parseConfig]
  cases truthy? config "botToken" <;> cases truthy? config "chatId" <;> simp

theorem qq_parseConfig_iff (config : Js.Json) :
    (∃ groupOpenid, Qq.parseConfig config = .ok groupOpenid) ↔
      (truthy? config "groupOpenid").isSome = true := by
  rw [Qq.parseConfig]
  cases truthy? config "groupOpenid" <;> simp

theorem readable_iff (c : NotificationChannel) :
    Readable c ↔ ∀ name ∈ required c.type, (truthy? c.config name).isSome = true := by
  rw [Readable, telegram_parseConfig_iff, qq_parseConfig_iff]
  cases c.type <;> simp [required]

theorem present_of_valid {type : NotificationChannelType} {config : Js.Json}
    (h : ValidPair (type, config)) :
    ∀ name ∈ required type, (truthy? config name).isSome = true := by
  cases type with
  | telegram =>
      rw [ValidPair, validateConfig] at h
      split_ifs at h with hboth
      simpa [required, Bool.and_eq_true] using hboth
  | wechat => simp [required]
  | qq =>
      rw [ValidPair, validateConfig] at h
      split_ifs at h with hgroup
      simpa [required] using hgroup

theorem isSome_truthy?_stored {config : Js.Json} {name : String} :
    (truthy? config.stored name).isSome = true ↔
      ∃ v, truthy? config name = some v ∧ v.isInfinite = false := by
  rw [truthy?_stored, Option.isSome_map, Option.isSome_iff_exists]
  simp [Option.filter_eq_some_iff]

/-- What the column holds of a valid config is read exactly where its secrets last. -/
theorem readable_stored_iff {c : NotificationChannel} {config : Js.Json}
    (hvalid : ValidPair (c.type, config)) (hheld : config.column? = some c.config) :
    Readable c ↔ Lasting (c.type, config) := by
  obtain ⟨hstorable, hstored⟩ := Js.Json.column?_eq_some.mp hheld
  rw [readable_iff, ← hstored]
  constructor
  · intro hread _ name hname v hv
    obtain ⟨v', hv', hfinite⟩ := isSome_truthy?_stored.mp (hread name hname)
    obtain rfl : v' = v := Option.some.inj (hv'.symm.trans hv)
    exact hfinite
  · intro hlasting name hname
    obtain ⟨v, hv⟩ := Option.isSome_iff_exists.mp (present_of_valid hvalid name hname)
    exact isSome_truthy?_stored.mpr ⟨v, hv, hlasting hstorable name hname v hv⟩

theorem not_valid_null (type : NotificationChannelType) : ¬ ValidPair (type, .null) := by
  intro h
  cases type <;> cases h

/-! ## One operation -/

/-- The database refuses the operation. -/
def Refused : Op → Prop
  | .updateChannel _ data => data.enabled = .null
  | _ => False

/-- The operation hands over only valid configs, and only lasting ones are stored. -/
def Sound (w : World) (op : Op) : Prop :=
  ∀ c ∈ handed w op, ValidPair c ∧ (Refused op ∨ Lasting c)

theorem handed_of_keepsChannels {w : World} {op : Op} (h : KeepsChannels op) :
    handed w op = [] := by
  cases op with
  | createChannel data => exact h.elim
  | updateChannel id data => exact h.elim
  | _ => rfl

theorem createChannelRow_readable {data : ChannelData} {now : Time} {w : World}
    (hsound : Sound w (.createChannel data)) (hw : ∀ c ∈ w.store.channels, Readable c) :
    ∀ c ∈ (createChannelRow data now w.store).2.channels, Readable c := by
  rcases createChannelRow_cases data now w.store with ⟨e, heq⟩ | ⟨config, hheld, heq⟩ <;> rw [heq]
  · exact hw
  intro c hc
  rcases List.mem_append.mp hc with hc | hc
  · exact hw c hc
  · obtain rfl := List.mem_singleton.mp hc
    obtain ⟨hvalid, hrefused | hlasting⟩ :=
      hsound (data.type, data.config) (List.mem_singleton_self _)
    · exact hrefused.elim
    · exact (readable_stored_iff hvalid hheld).mpr hlasting

theorem updateChannelRow_readable {id : Id} {data : ChannelUpdate} {w : World}
    (hsound : Sound w (.updateChannel id data)) (hw : ∀ c ∈ w.store.channels, Readable c) :
    ∀ c ∈ (updateChannelRow id data w.store).2.channels, Readable c := by
  rcases updateChannelRow_cases id data w.store with ⟨e, heq⟩ | ⟨row, new, hrow, hnew, heq⟩ <;>
    rw [heq]
  · exact hw
  obtain ⟨henabled, hconfig, hfields⟩ := updatedChannel_ok hnew
  have htype : new.type = row.type := by rw [hfields]
  intro c hc
  obtain ⟨b, hb, rfl⟩ := List.mem_map.mp hc
  split_ifs
  · rcases setConfig_ok hconfig with ⟨-, hold⟩ | ⟨config, hgiven, hheld⟩
    · rw [readable_iff, htype, hold]
      exact (readable_iff row).mp (hw row (List.mem_of_find?_eq_some hrow))
    · have hhanded : (row.type, config) ∈ handed w (.updateChannel id data) := by
        simp [handed, hrow, hgiven]
      obtain ⟨hvalid, hrefused | hlasting⟩ := hsound _ hhanded
      · exact absurd hrefused henabled
      · rw [← htype] at hvalid hlasting
        exact (readable_stored_iff hvalid hheld).mpr hlasting
  · exact hw b hb

/-- Where only such configs are handed over, the providers read what is stored. -/
theorem exec_readable (c : Choice) (op : Op) (w : World) (hsound : Sound w op)
    (hw : ∀ c ∈ w.store.channels, Readable c) :
    ∀ row ∈ (exec c op w).2.store.channels, Readable row := by
  have hquery : ∀ {α : Type} (applied : Except ApiError α × Store),
      (∀ row ∈ applied.2.channels, Readable row) →
      ∀ row ∈ (w.on (c.query w.store applied)).2.store.channels, Readable row := by
    intro α applied happlied
    rcases c.query_cases w.store applied with ⟨e, -, heq⟩ | ⟨-, heq⟩ <;> rw [heq]
    · exact hw
    · exact happlied
  by_cases hkeeps : KeepsChannels op
  · rw [exec_channels c w hkeeps]
    exact hw
  · cases op with
    | createChannel data => exact hquery _ (createChannelRow_readable hsound hw)
    | updateChannel id data => exact hquery _ (updateChannelRow_readable hsound hw)
    | _ => exact absurd trivial hkeeps

/-! ## One request -/

section Requests

variable {setting : Setting}

/-- The request awaits only sound operations, whatever it is answered. -/
abbrev KeepsSound (w : World) {α : Type} (p : Api α) : Prop :=
  p.Obeys (fun op w r w' => ∃ c, exec c op w = (r, w')) Sound (fun _ _ => True) w

theorem truthy_of_isObject {config : Js.Json} (h : isObject config = true) :
    config.truthy = true := by
  cases config with
  | obj members => rfl
  | _ => cases h

theorem createChannel_keepsSound {w : World} {dto : CreateChannelDto}
    (hgives : GivesConfig w (.createChannel dto)) :
    KeepsSound w (program setting (.createChannel dto)) := by
  refine (Program.obeys_bind ..).mpr ((Program.obeys_bind ..).mpr ?_)
  cases hvalid : validateConfig dto.type dto.config with
  | error e => exact trivial
  | ok _ =>
      refine (Program.obeys_bind ..).mpr ⟨?_, ?_⟩
      · intro b hb
        obtain rfl := List.mem_singleton.mp hb
        exact ⟨hvalid, Or.inr (hgives hvalid)⟩
      · rintro (e | channel) w' -
        · exact trivial
        · exact trivial

theorem exec_findChannelById {c : Choice} {id : Id} {w w' : World}
    {r : Except ApiError (Option NotificationChannel)}
    (h : exec c (.findChannelById id) w = (r, w')) :
    w' = w ∧ ∀ channel?, r = .ok channel? → channel? = w.store.channel? id := by
  change w.on (c.query w.store (.ok (w.store.channel? id), w.store)) = (r, w') at h
  rcases c.query_cases w.store (.ok (w.store.channel? id), w.store) with ⟨e, -, heq⟩ | ⟨-, heq⟩ <;>
    rw [heq] at h <;> obtain ⟨rfl, rfl⟩ := Prod.mk.inj h
  · exact ⟨rfl, fun channel? hok => by cases hok⟩
  · exact ⟨rfl, fun channel? hok => (Except.ok.inj hok).symm⟩

theorem ensureChannelExists_obeys (id : Id) (w : World) :
    (ensureChannelExists id).Obeys (fun op w r w' => ∃ c, exec c op w = (r, w'))
      Sound (fun w' r => ∀ row, r = .ok row → w' = w ∧ w.store.channel? id = some row) w := by
  refine (Program.obeys_bind ..).mpr ⟨fun b hb => (List.not_mem_nil hb).elim, ?_⟩
  rintro r w' ⟨c, hexec⟩
  obtain ⟨rfl, hfound⟩ := exec_findChannelById hexec
  cases r with
  | error e => exact fun row hrow => by cases hrow
  | ok channel? =>
      cases channel? with
      | none => exact fun row hrow => by cases hrow
      | some current =>
          intro row hrow
          obtain rfl := Except.ok.inj hrow
          exact ⟨rfl, (hfound _ rfl).symm⟩

theorem updateChannel_keepsSound {w : World} {id : Id} {dto : UpdateChannelDto}
    (haccepted : (Request.updateChannel id dto).accepted = true)
    (hgives : GivesConfig w (.updateChannel id dto)) :
    KeepsSound w (program setting (.updateChannel id dto)) := by
  refine (Program.obeys_bind ..).mpr ?_
  refine Program.Obeys.bind (fun w' row => w' = w ∧ w.store.channel? id = some row) ?_ ?_
  · refine (ensureChannelExists_obeys id w).mono (fun _ _ h => h) ?_
    rintro w' (e | row) hrow
    · exact trivial
    · exact hrow row rfl
  rintro w' row ⟨hsame, hrow⟩
  subst w'
  refine (Program.obeys_bind ..).mpr ?_
  cases hvalid : validateUpdate row.type dto.config with
  | error e => exact trivial
  | ok _ =>
      refine (Program.obeys_bind ..).mpr ?_
      cases hname : trimmedName dto.name with
      | error e => exact trivial
      | ok name =>
          refine (Program.obeys_bind ..).mpr ⟨?_, ?_⟩
          · -- The update is awaited: its config is absent or was validated.
            intro b hb
            obtain ⟨hnull, hlasting⟩ := hgives (trimmedName_ok hname) row hrow
            cases hconfig : dto.config with
            | undefined => simp [handed, hconfig, given, hrow] at hb
            | null => exact absurd hconfig hnull
            | value config =>
                obtain rfl : b = (row.type, config) := by
                  simpa [handed, hconfig, given, hrow] using hb
                have hobject : isObject config = true := by
                  simpa [Request.accepted, hconfig, optional] using haccepted
                rw [hconfig, validateUpdate, if_pos (truthy_of_isObject hobject)] at hvalid
                refine ⟨hvalid, ?_⟩
                by_cases henabled : dto.enabled = .null
                · exact Or.inl henabled
                · exact Or.inr (hlasting config hconfig henabled hvalid)
          · rintro (e | channel) w' -
            · exact trivial
            · exact trivial

theorem request_keepsSound {w : World} {request : Request} (haccepted : request.accepted = true)
    (hgives : GivesConfig w request) : KeepsSound w (program setting request) := by
  by_cases hcreate : ∃ dto, request = .createChannel dto
  · obtain ⟨dto, rfl⟩ := hcreate
    exact createChannel_keepsSound hgives
  · by_cases hupdate : ∃ id dto, request = .updateChannel id dto
    · obtain ⟨id, dto, rfl⟩ := hupdate
      exact updateChannel_keepsSound haccepted hgives
    · have hawaits : (program setting request).Awaits KeepsChannels :=
        program_awaits (not_exists.mp hcreate) fun id dto h => hupdate ⟨id, dto, h⟩
      refine hawaits.obeys (fun w op hop b hb => ?_) w
      rw [handed_of_keepsChannels hop] at hb
      cases hb

/-- An update to `null` is handed over when the database fails in nothing. -/
theorem nullConfig_handed {s : Recorded} {id : Id} {dto : UpdateChannelDto}
    {row : NotificationChannel} (hconfig : dto.config = .null) (hname : dto.name ≠ .null)
    (hrow : s.world.store.channel? id = some row) {choices : ℕ → Choice}
    (hcalm : ∀ n, (choices n).fault = none) :
    (row.type, .null) ∈ (record setting s ⟨.updateChannel id dto, choices⟩).handed := by
  obtain ⟨w, seen⟩ := s
  change w.store.channel? id = some row at hrow
  obtain ⟨name, hname⟩ := trimmedName_of_ne_null hname
  have hfind : ∀ seen, recording handed exec (choices 0) (.findChannelById id) (w, seen) =
      (.ok (some row), (w, seen)) := by
    intro seen
    simp only [recording, exec, World.on, SocialMonitor.Choice.query, hcalm, hrow]
    rfl
  have hrun : (record setting ⟨w, seen⟩ ⟨.updateChannel id dto, choices⟩).handed =
      ((updateChannel id dto).run (recording handed exec) choices (w, seen)).2.2 :=
    congrArg Prod.snd (Program.run_bind_ret (recording handed exec) (updateChannel id dto) _
      choices (w, seen))
  have hvalid : validateUpdate row.type dto.config = .ok () := by
    rw [hconfig]
    rfl
  rw [hrun]
  unfold updateChannel ensureChannelExists
  simp only [Program.bind_def, Program.bind_assoc, Program.run_await_bind, hfind,
    Program.pure_def, Program.bind, hvalid, hname, Program.ofExcept_ok]
  have hlast : (row.type, .null) ∈ (recording handed exec (choices 1)
      (.updateChannel id ⟨name, dto.enabled, dto.config⟩) (w, seen)).2.2 := by
    simp [recording, handed, hrow, hconfig, given]
  split
  · exact hlast
  · exact hlast

end Requests

/-! ## Every sequence -/

theorem record_validated {s : Recorded} {e : Served} (hs : Validated s) (he : Admitted s e) :
    Validated (record setting s e) := by
  obtain ⟨hhanded, hstored⟩ := (request_keepsSound he.1 he.2).recording
    (fun _ _ hsound b hb => (hsound b hb).1) exec_readable hs.handed hs.stored e.choices
  exact ⟨hhanded, hstored⟩

theorem record_world (setting : Setting) (s : Recorded) (e : Served) :
    (record setting s e).world = (serve setting e.request e.choices s.world).2 :=
  Program.run_recording (program setting e.request) e.choices s.world s.handed

/-- Where what the column holds of a valid config is read, its secrets last. -/
theorem lasting_of_stored {type : NotificationChannelType} {config : Js.Json}
    {channels : List NotificationChannel} (hvalid : ValidPair (type, config))
    (hread : ∀ c ∈ channels, Readable c)
    (hstored : config.storable = true → ∃ c ∈ channels, c.type = type ∧ c.config = config.stored) :
    Lasting (type, config) := by
  intro hstorable
  obtain ⟨c, hc, rfl, hconfig⟩ := hstored hstorable
  have hheld : config.column? = some c.config :=
    Js.Json.column?_eq_some.mpr ⟨hstorable, hconfig.symm⟩
  exact (readable_stored_iff hvalid hheld).mp (hread c hc) hstorable

/-- A request that does not meet the condition hands over an invalid config, or one
that no provider reads is stored. -/
theorem givesConfig_of_validated {s : Recorded} {request : Request}
    (hall : ∀ choices, Validated (record setting s ⟨request, choices⟩)) :
    GivesConfig s.world request := by
  have hcalm := hall fun _ => delivered
  have hreadable := hcalm.stored
  rw [record_world] at hreadable
  cases request with
  | createChannel dto =>
      refine fun hvalid => lasting_of_stored hvalid hreadable fun hstorable => ?_
      exact createChannel_stored setting (Js.Json.column?_eq_some.mpr ⟨hstorable, rfl⟩) hvalid
        (fun _ => delivered) fun _ => rfl
  | updateChannel id dto =>
      intro hname row hrow
      refine ⟨?_, ?_⟩
      · intro hnull
        exact not_valid_null row.type
          (hcalm.handed _ (nullConfig_handed hnull hname hrow fun _ => rfl))
      · intro config hgiven henabled hvalid
        refine lasting_of_stored hvalid hreadable fun hstorable => ?_
        have hcolumn : (given dto.config).bind Js.Json.column? = some config.stored := by
          rw [hgiven]
          exact Js.Json.column?_eq_some.mpr ⟨hstorable, rfl⟩
        have hupdate : validateUpdate row.type dto.config = .ok () := by
          rw [hgiven, validateUpdate, hvalid, ite_self]
        exact updateChannel_stored setting hcolumn hname henabled hrow hupdate
          (fun _ => delivered) fun _ => rfl
  | _ => exact trivial

/-- Along every sequence of admitted requests only valid configs are handed
over, and the providers read every config stored.  A request that is not admitted
breaks this for some answers of the outside. -/
theorem configs_validated (setting : Setting) :
    (∀ s, Machine.Run (record setting) Admitted fresh s →
      (∀ c ∈ s.handed, validateConfig c.1 c.2 = .ok ()) ∧
        ∀ c ∈ s.world.store.channels, Readable c) ∧
      ∀ s, Validated s → ∀ request : Request, request.accepted = true →
        ((∀ choices, Validated (record setting s ⟨request, choices⟩)) ↔
          GivesConfig s.world request) := by
  constructor
  · intro s hrun
    have hvalid : Validated s := by
      apply hrun.invariant Validated
      · exact ⟨fun c hc => (List.not_mem_nil hc).elim, fun c hc => (List.not_mem_nil hc).elim⟩
      · exact fun s e _ hs he => record_validated setting hs he
    exact ⟨hvalid.handed, hvalid.stored⟩
  · intro s hs request haccepted
    constructor
    · exact givesConfig_of_validated setting
    · exact fun hgives choices => record_validated setting hs ⟨haccepted, hgives⟩

/-! ## A channel and its updates -/

def serveCalm (request : Request) : Served := ⟨request, fun _ => delivered⟩

def createGroup : Served :=
  serveCalm (.createChannel ⟨"bot", .telegram, bot (.str (units "1"))⟩)

def updateConfig (config : Monitors.Field Js.Json) : Served :=
  serveCalm (.updateChannel 0 ⟨.undefined, .undefined, config⟩)

def moved : List Served := [createGroup, updateConfig (.value (bot (.str (units "2"))))]

theorem lasting_bot (type : NotificationChannelType) (chatId : Js.CodeUnits) :
    Lasting (type, bot (.str chatId)) := by
  intro _ name _ v hv
  obtain ⟨m, hm, rfl⟩ := mem_of_truthy? hv
  simp only [List.mem_cons, List.not_mem_nil, or_false] at hm
  rcases hm with rfl | rfl <;> rfl

theorem configs_validated_moved :
    (moved.foldl (record quiet) fresh).handed.length = 2 ∧
      (∀ c ∈ (moved.foldl (record quiet) fresh).handed, validateConfig c.1 c.2 = .ok ()) ∧
        ∀ c ∈ (moved.foldl (record quiet) fresh).world.store.channels, Readable c := by
  have hupdated : ∀ w, GivesConfig w
      (.updateChannel 0 ⟨.undefined, .undefined, .value (bot (.str (units "2")))⟩) := by
    intro w _ row _
    constructor
    · intro hnull
      cases hnull
    · intro config hconfig _ _
      obtain rfl := Monitors.Field.value.inj hconfig
      exact lasting_bot _ _
  have hrun : Machine.Run (record quiet) Admitted fresh (moved.foldl (record quiet) fresh) := by
    apply Machine.Run.refl.list
    exact ⟨⟨rfl, fun _ => lasting_bot _ _⟩, ⟨rfl, hupdated _⟩, trivial⟩
  exact ⟨by decide +kernel, (configs_validated quiet).1 _ hrun⟩

/-- The config `null` passes the validation of the body, and nothing checks it. -/
theorem nullConfig_unvalidated :
    ∃ s, Machine.Run (record quiet) (fun _ e => e.request.accepted = true) fresh s ∧
      ∃ c ∈ s.handed, validateConfig c.1 c.2 ≠ .ok () := by
  have hcreated : ((record quiet fresh createGroup).world.store.channel? 0).isSome := by
    decide +kernel
  obtain ⟨row, hrow⟩ := Option.isSome_iff_exists.mp hcreated
  have hname : (Monitors.Field.undefined : Monitors.Field String) ≠ .null := by
    intro hnull
    cases hnull
  have hfirst : Machine.Run (record quiet) (fun _ e => e.request.accepted = true) fresh
      (record quiet fresh createGroup) := .step .refl rfl
  exact ⟨record quiet (record quiet fresh createGroup) (updateConfig .null),
    .step (e := updateConfig .null) hfirst rfl, (row.type, .null),
    nullConfig_handed rfl hname hrow fun _ => rfl, not_valid_null row.type⟩

end SocialMonitor.Channels

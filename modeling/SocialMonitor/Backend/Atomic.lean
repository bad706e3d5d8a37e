import SocialMonitor.Async.Atomic
import SocialMonitor.Backend.Attempts

/-!
# Management requests take effect at one moment

The requests that create, change and remove monitors and channels look a row up
first and write it later, and other calls may come between.  Every run of the
API is nevertheless a run of an API where such a request looks up and writes in
one step: with the same tables at every moment and the same answers.
-/

namespace SocialMonitor.Backend

open Async

/-! ## The API whose management requests are indivisible -/

/-- An operation of the API, or all that a request does to the tables. -/
inductive AtomicOp where
  | op (op : Op)
  | createMonitor (data : Monitors.MonitorData)
  | updateMonitor (id : Id) (dto : Monitors.UpdateMonitorDto)
  | removeMonitor (id : Id)
  | updateChannel (id : Id) (dto : Channels.UpdateChannelDto)
  | removeChannel (id : Id)

abbrev AtomicAnswer : AtomicOp → Type
  | .op op => Answer op
  | .createMonitor _ => MonitorTarget
  | .updateMonitor _ _ => MonitorTarget
  | .removeMonitor _ => Unit
  | .updateChannel _ _ => NotificationChannel
  | .removeChannel _ => Unit

/-- The key is free, and the row is stored. -/
def createMonitor (data : Monitors.MonitorData) (createdAt : Time) (s : Store) :
    Except ApiError MonitorTarget × Store :=
  match Monitors.targetByKey? s data.type data.externalId with
  | some _ => (.error Monitors.monitorExists, s)
  | none => Monitors.createTarget data createdAt s

def updateMonitor (id : Id) (dto : Monitors.UpdateMonitorDto) (s : Store) :
    Except ApiError MonitorTarget × Store :=
  match s.target? id with
  | none => (.error (Monitors.notFound id), s)
  | some _ => Monitors.updateTarget id dto s

def removeMonitor (id : Id) (s : Store) : Except ApiError Unit × Store :=
  match s.target? id with
  | none => (.error (Monitors.notFound id), s)
  | some _ => Monitors.deleteTarget id s

/-- The new config is checked for the type that the channel has at this moment. -/
def checkedUpdate (type : NotificationChannelType) (dto : Channels.UpdateChannelDto) :
    Except ApiError Channels.ChannelUpdate := do
  Channels.validateUpdate type dto.config
  let name ← Channels.trimmedName dto.name
  return ⟨name, dto.enabled, dto.config⟩

def updateChannel (id : Id) (dto : Channels.UpdateChannelDto) (s : Store) :
    Except ApiError NotificationChannel × Store :=
  match s.channel? id with
  | none => (.error (Channels.channelNotFound id), s)
  | some channel =>
      match checkedUpdate channel.type dto with
      | .error error => (.error error, s)
      | .ok data => Channels.updateChannelRow id data s

def removeChannel (id : Id) (s : Store) : Except ApiError Unit × Store :=
  match s.channel? id with
  | none => (.error (Channels.channelNotFound id), s)
  | some _ => deleteChannelRow id s

def atomicExec (contains : String → String → Bool) (c : Channels.Choice) :
    (op : AtomicOp) → Channels.World → Except ApiError (AtomicAnswer op) × Channels.World
  | .op op, w => exec contains c op w
  | .createMonitor data, w => w.on (c.query w.store (createMonitor data c.now w.store))
  | .updateMonitor id dto, w => w.on (c.query w.store (updateMonitor id dto w.store))
  | .removeMonitor id, w => w.on (c.query w.store (removeMonitor id w.store))
  | .updateChannel id dto, w => w.on (c.query w.store (updateChannel id dto w.store))
  | .removeChannel id, w => w.on (c.query w.store (removeChannel id w.store))

def atomicProgram (config : Config) : Request → Program AtomicOp AtomicAnswer ApiError Reply
  | .monitor (.create dto) => do
      let data ← Program.ofExcept (Monitors.normalizeCreate dto)
      let created ← Program.await (AtomicOp.createMonitor data)
      return .monitor (.monitor (Monitors.toDto created))
  | .monitor (.update id dto) => do
      let updated ← Program.await (AtomicOp.updateMonitor id dto)
      return .monitor (.monitor (Monitors.toDto updated))
  | .monitor (.setEnabled id enabled) => do
      let updated ← Program.await
        (AtomicOp.updateMonitor id ⟨.undefined, .undefined, .undefined, .value enabled⟩)
      Program.await (AtomicOp.op (.monitor
        (.emit (.monitorStatusChanged id enabled updated.type))))
      return .monitor (.monitor (Monitors.toDto updated))
  | .monitor (.remove id) => do
      Program.await (AtomicOp.removeMonitor id)
      return .monitor .removed
  | .channel (.updateChannel id dto) => do
      let updated ← Program.await (AtomicOp.updateChannel id dto)
      return .channel (.channel (Channels.toChannelDto updated))
  | .removeChannel id => do
      Program.await (AtomicOp.removeChannel id)
      return .channelRemoved
  | request => (program config request).within AtomicOp.op fun _ a => a

abbrev AtomicPool := Pool Request Channels.World AtomicOp AtomicAnswer ApiError Reply

def atomicSystem (config : Config) :
    System Request Channels.World Channels.Choice Empty AtomicOp AtomicAnswer ApiError Reply where
  start := atomicProgram config
  exec := atomicExec config.contains
  env := fun change _ => change.elim

/-- A row that goes, or a key that is taken, between the lookup and the write is
reported in the words of the database. -/
inductive SameFault : ApiError → ApiError → Prop where
  | same (e : ApiError) : SameFault e e
  | monitorGone (id : Id) : SameFault Monitors.recordNotFound (Monitors.notFound id)
  | channelGone (id : Id) : SameFault Notifications.recordNotFound (Channels.channelNotFound id)
  | monitorTaken : SameFault Monitors.uniqueViolation Monitors.monitorExists

abbrev SameAnswer : Except ApiError Reply → Except ApiError Reply → Prop := Ends Eq SameFault

theorem SameAnswer.refl (r : Except ApiError Reply) : SameAnswer r r := by
  cases r with
  | ok reply => exact .ok rfl
  | error e => exact .error (.same e)

/-- A write of some operation lies between the two states. -/
def Later (w w' : Channels.World) : Prop := ∃ effect, Write w.store effect w'.store

/-- What is known of a channel that has been found. -/
structure Remembered (c : NotificationChannel) (w : Channels.World) : Prop where
  integrity : Integrity w.store
  drawn : c.id < w.store.nextId
  type : ∀ c' ∈ w.store.channels, c'.id = c.id → c'.type = c.type

theorem stable_integrity : Stable Later fun w => Integrity w.store := by
  rintro w w' ⟨effect, hwrite⟩ hs
  exact hwrite.integrity hs

theorem stable_remembered (c : NotificationChannel) : Stable Later (Remembered c) := by
  rintro w w' ⟨effect, hwrite⟩ hc
  refine ⟨hwrite.integrity hc.integrity, hc.drawn.trans_le hwrite.nextId, fun c' hc' hid => ?_⟩
  rcases hwrite.channel_from c' hc' with ⟨c'', hc'', hcid, htype⟩ | hnew
  · rw [← htype]
    exact hc.type c'' hc'' (hcid.trans hid)
  · exact absurd hc.drawn (not_lt.mpr (hid ▸ hnew.ge))

theorem remembered_found {w : Channels.World} (hs : Integrity w.store) {id : Id}
    {c : NotificationChannel} (hc : w.store.channel? id = some c) : Remembered c w := by
  have hmem : c ∈ w.store.channels := List.mem_of_find?_eq_some hc
  refine ⟨hs, hs.channels.below _ (List.mem_map_of_mem hmem), fun c' hc' hid => ?_⟩
  rw [List.inj_on_of_nodup_map hs.channels.nodup hc' hmem hid]

/-! ## Each request -/

section Requests

variable {config : Config} {contains : String → String → Bool} {K : Channels.World → Prop}

/-- The program goes on as an indivisible request does. -/
abbrev Takes (contains : String → String → Bool) (K : Channels.World → Prop) (p : Api Reply)
    (q : Program AtomicOp AtomicAnswer ApiError Reply) : Prop :=
  p.Refines (exec contains) (atomicExec contains) Later SameAnswer K q

/-- The program looks a row up for an operation that looks it up itself. -/
theorem follows_lookup {find : Op} {atomic : AtomicOp}
    {next : Except ApiError (Answer find) → Api Reply}
    {next' : Except ApiError (AtomicAnswer atomic) → Program AtomicOp AtomicAnswer ApiError Reply}
    (found : Store → Answer find)
    (body : Channels.Choice → Store → Except ApiError (AtomicAnswer atomic) × Store)
    (hfind : ∀ c w, exec contains c find w =
      w.on (c.query w.store (.ok (found w.store), w.store)))
    (hatomic : ∀ c w, atomicExec contains c atomic w = w.on (c.query w.store (body c w.store)))
    (hraise : ∀ e, next (.error e) = .raise e) (hraise' : ∀ e, next' (.error e) = .raise e)
    (h : ∀ w, K w →
      (∃ e e', next (.ok (found w.store)) = .raise e ∧
        (∀ c, body c w.store = (.error e', w.store)) ∧ SameFault e e') ∨
      ∃ K', Stable Later K' ∧ K' w ∧
        Takes contains K' (next (.ok (found w.store))) (.call atomic next')) :
    Takes contains K (.call find next) (.call atomic next') := by
  refine Program.refines_look hraise' fun c w hw => ?_
  rw [hfind, hatomic]
  rcases c.query_cases w.store (.ok (found w.store), w.store) with
    ⟨error, hfault, heq⟩ | ⟨hfault, heq⟩
  · refine ⟨by rw [heq]; rfl, Or.inl ⟨error, error, ?_, ?_, .error (.same error)⟩⟩
    · rw [heq]
      exact hraise error
    · simp [Choice.query, hfault, Channels.World.on]
  · refine ⟨by rw [heq]; rfl, ?_⟩
    rw [heq]
    refine (h w hw).imp_left ?_
    rintro ⟨e, e', hnext, hbody, hsame⟩
    refine ⟨e, e', hnext, ?_, .error hsame⟩
    rw [Choice.query_of_fault_none hfault, hbody]
    rfl

/-- Two operations that do the same to the tables and are answered alike. -/
structure Agree {α β : Type} (values : α → β → Prop) (written : Except ApiError α × Store)
    (body : Except ApiError β × Store) : Prop where
  store : body.2 = written.2
  ends : Ends values SameFault written.1 body.1

theorem agree_self {α : Type} {values : α → α → Prop} (applied : Except ApiError α × Store)
    (h : ∀ a, values a a) : Agree values applied applied := by
  refine ⟨rfl, ?_⟩
  cases applied.1 with
  | error e => exact .error (.same e)
  | ok a => exact .ok (h a)

/-- The program writes what the operation writes that it stands for. -/
theorem follows_write {write : Op} {atomic : AtomicOp}
    {next : Except ApiError (Answer write) → Api Reply}
    {next' : Except ApiError (AtomicAnswer atomic) → Program AtomicOp AtomicAnswer ApiError Reply}
    (written : Channels.Choice → Store → Except ApiError (Answer write) × Store)
    (body : Channels.Choice → Store → Except ApiError (AtomicAnswer atomic) × Store)
    (hwrite : ∀ c w, exec contains c write w = w.on (c.query w.store (written c w.store)))
    (hatomic : ∀ c w, atomicExec contains c atomic w = w.on (c.query w.store (body c w.store)))
    (hraise : ∀ e, next (.error e) = .raise e) (hraise' : ∀ e, next' (.error e) = .raise e)
    (h : ∀ c w, K w → Agree (fun a b => Takes contains (fun _ => True) (next (.ok a))
      (next' (.ok b))) (written c w.store) (body c w.store)) :
    Takes contains K (.call write next) (.call atomic next') := by
  refine Program.refines_step fun c w hw => ?_
  rw [hwrite, hatomic]
  rcases c.query_cases w.store (written c w.store) with ⟨error, hfault, heq⟩ | ⟨hfault, heq⟩
  · have hbody : c.query w.store (body c w.store) = (.error error, w.store) := by
      simp [Choice.query, hfault]
    rw [heq, hbody]
    refine ⟨rfl, ?_⟩
    simp only [Channels.World.on, hraise, hraise']
    exact ⟨.error error, rfl, .error (.same error)⟩
  · rw [heq, Choice.query_of_fault_none hfault]
    obtain ⟨hstore, hends⟩ := h c w hw
    refine ⟨by simp only [Channels.World.on, hstore], ?_⟩
    simp only [Channels.World.on]
    revert hends
    generalize (written c w.store).1 = r, (body c w.store).1 = r'
    rintro (hnext | hsame)
    · exact hnext
    · rw [hraise, hraise']
      exact ⟨.error _, rfl, .error hsame⟩

theorem follows_reply (reply : Reply) : Takes contains K (.ret reply) (.ret reply) :=
  ⟨.ok reply, rfl, .ok rfl⟩

theorem follows_raise (e : ApiError) : Takes contains K (.raise e) (.raise e) :=
  ⟨.error e, rfl, .error (.same e)⟩

/-- The program refuses what it has looked up, or writes; the write refuses in
its own words what has changed in between. -/
theorem follows_guarded {find : Op} (write : Op) {atomic : AtomicOp}
    {next : Except ApiError (Answer find) → Api Reply}
    {next' : Except ApiError (AtomicAnswer atomic) → Program AtomicOp AtomicAnswer ApiError Reply}
    (found : Store → Answer find) (refused : Answer find → Bool) {error late : ApiError}
    (written : Channels.Choice → Store → Except ApiError (Answer write) × Store)
    (body : Channels.Choice → Store → Except ApiError (AtomicAnswer atomic) × Store)
    (hfind : ∀ c w, exec contains c find w =
      w.on (c.query w.store (.ok (found w.store), w.store)))
    (hwrite : ∀ c w, exec contains c write w = w.on (c.query w.store (written c w.store)))
    (hatomic : ∀ c w, atomicExec contains c atomic w = w.on (c.query w.store (body c w.store)))
    (hraise : ∀ e, next (.error e) = .raise e) (hraise' : ∀ e, next' (.error e) = .raise e)
    (hlate : SameFault late error)
    (hrefused : ∀ a, refused a = true → next (.ok a) = .raise error)
    (hbody : ∀ c s, refused (found s) = true →
      written c s = (.error late, s) ∧ body c s = (.error error, s))
    (hnext : ∀ a, refused a = false → ∃ rest, next (.ok a) = .call write rest ∧
      (∀ e, rest (.error e) = .raise e) ∧ ∀ c s, refused (found s) = false →
        Agree (fun a b => Takes contains (fun _ => True) (rest (.ok a)) (next' (.ok b)))
          (written c s) (body c s)) :
    Takes contains K (.call find next) (.call atomic next') := by
  refine follows_lookup found body hfind hatomic hraise hraise' fun w _ => ?_
  cases hfound : refused (found w.store) with
  | true =>
      exact Or.inl ⟨error, error, hrefused _ hfound, fun c => (hbody c w.store hfound).2, .same _⟩
  | false =>
      obtain ⟨rest, hrest, hraise₁, hagree⟩ := hnext _ hfound
      refine Or.inr ⟨fun _ => True, fun _ _ _ _ => trivial, trivial, ?_⟩
      rw [hrest]
      refine follows_write written body hwrite hatomic hraise₁ hraise' fun c w _ => ?_
      cases hlost : refused (found w.store) with
      | false => exact hagree c w.store hlost
      | true =>
          obtain ⟨hwritten, hbody⟩ := hbody c w.store hlost
          rw [hwritten, hbody]
          exact ⟨rfl, .error hlate⟩

theorem createMonitor_follows (dto : Monitors.CreateMonitorDto) :
    Takes contains K (program config (.monitor (.create dto)))
      (atomicProgram config (.monitor (.create dto))) := by
  cases hdata : Monitors.normalizeCreate dto with
  | error e =>
      have hprogram : program config (.monitor (.create dto)) = .raise e := by
        simp [program, Monitors.program, Monitors.create, hdata, ofMonitors, Program.bind,
          Program.within]
      have hatomic : atomicProgram config (.monitor (.create dto)) = .raise e := by
        simp [atomicProgram, hdata, Program.bind]
      rw [hprogram, hatomic]
      exact follows_raise e
  | ok data =>
      simp only [program, Monitors.program, Monitors.create, atomicProgram, hdata,
        Program.ofExcept_ok, Program.bind_def, Program.bind]
      refine follows_guarded (.monitor (.create data))
        (fun s => Monitors.targetByKey? s data.type data.externalId) Option.isSome
        (fun c s => Monitors.createTarget data c.now s) (fun c s => createMonitor data c.now s)
        (fun _ _ => rfl) (fun _ _ => rfl) (fun _ _ => rfl) (fun _ => rfl) (fun _ => rfl)
        .monitorTaken ?_ ?_ ?_
      · rintro (_ | t) h
        · cases h
        · rfl
      · intro c s h
        obtain ⟨t, ht⟩ := Option.isSome_iff_exists.mp h
        simp [Monitors.createTarget, createMonitor, ht]
      · rintro (_ | t) h
        · refine ⟨_, rfl, fun _ => rfl, fun c s hfree => ?_⟩
          have hbody : createMonitor data c.now s = Monitors.createTarget data c.now s := by
            rw [createMonitor,
              Option.isNone_iff_eq_none.mp (Option.isSome_eq_false_iff.mp hfree)]
          rw [hbody]
          exact agree_self _ fun a => follows_reply _
        · cases h

/-- The row of a monitor is looked up before the write. -/
theorem follows_target {id : Id} (write : Monitors.Op) {atomic : AtomicOp}
    {next : Except ApiError (Option MonitorTarget) → Api Reply}
    {next' : Except ApiError (AtomicAnswer atomic) → Program AtomicOp AtomicAnswer ApiError Reply}
    (written : Store → Except ApiError (Monitors.Answer write) × Store)
    (body : Store → Except ApiError (AtomicAnswer atomic) × Store)
    (hwrite : ∀ c s, Monitors.exec c write s = c.query s (written s))
    (hatomic : ∀ c w, atomicExec contains c atomic w = w.on (c.query w.store (body w.store)))
    (hraise : ∀ e, next (.error e) = .raise e) (hraise' : ∀ e, next' (.error e) = .raise e)
    (hnone : next (.ok none) = .raise (Monitors.notFound id))
    (hmissing : ∀ s, s.target? id = none →
      written s = (.error Monitors.recordNotFound, s) ∧ body s = (.error (Monitors.notFound id), s))
    (hsome : ∀ t, ∃ rest, next (.ok (some t)) = .call (.monitor write) rest ∧
      (∀ e, rest (.error e) = .raise e) ∧ ∀ s t, s.target? id = some t →
        Agree (fun a b => Takes contains (fun _ => True) (rest (.ok a)) (next' (.ok b)))
          (written s) (body s)) :
    Takes contains K (.call (.monitor (.findUnique id)) next) (.call atomic next') := by
  refine follows_guarded (.monitor write) (fun s => s.target? id) Option.isNone
    (fun _ => written) (fun _ => body) (fun _ _ => rfl) (fun c w => ?_) hatomic hraise hraise'
    (.monitorGone id) ?_ ?_ ?_
  · rw [exec, hwrite]
  · rintro (_ | t) h
    · exact hnone
    · cases h
  · exact fun c s h => hmissing s (Option.isNone_iff_eq_none.mp h)
  · rintro (_ | t) h
    · cases h
    · obtain ⟨rest, hrest, hraise₁, hagree⟩ := hsome t
      refine ⟨rest, hrest, hraise₁, fun c s hfound => ?_⟩
      obtain ⟨t', ht'⟩ := Option.isSome_iff_exists.mp (Option.isNone_eq_false_iff.mp hfound)
      exact hagree s t' ht'

theorem updateMonitor_follows (id : Id) (dto : Monitors.UpdateMonitorDto) :
    Takes contains K (program config (.monitor (.update id dto)))
      (atomicProgram config (.monitor (.update id dto))) := by
  refine follows_target (.update id dto) (Monitors.updateTarget id dto) (updateMonitor id dto)
    (fun _ _ => rfl) (fun _ _ => rfl) (fun _ => rfl) (fun _ => rfl) rfl (fun s h => ?_)
    fun t => ⟨_, rfl, fun _ => rfl, fun s t ht => ?_⟩
  · simp [Monitors.updateTarget, updateMonitor, h]
  · rw [updateMonitor, ht]
    exact agree_self _ fun a => follows_reply _

theorem setEnabled_follows (id : Id) (enabled : Bool) :
    Takes contains K (program config (.monitor (.setEnabled id enabled)))
      (atomicProgram config (.monitor (.setEnabled id enabled))) := by
  refine follows_target (.update id ⟨.undefined, .undefined, .undefined, .value enabled⟩)
    (Monitors.updateTarget id _) (updateMonitor id _)
    (fun _ _ => rfl) (fun _ _ => rfl) (fun _ => rfl) (fun _ => rfl) rfl (fun s h => ?_)
    fun t => ⟨_, rfl, fun _ => rfl, fun s t ht => ?_⟩
  · simp [Monitors.updateTarget, updateMonitor, h]
  · rw [updateMonitor, ht]
    refine agree_self _ fun a => ?_
    exact Program.refines_step fun c w _ => ⟨rfl, follows_reply _⟩

theorem removeMonitor_follows (id : Id) :
    Takes contains K (program config (.monitor (.remove id)))
      (atomicProgram config (.monitor (.remove id))) := by
  refine follows_target (.delete id) (Monitors.deleteTarget id) (removeMonitor id)
    (fun _ _ => rfl) (fun _ _ => rfl) (fun _ => rfl) (fun _ => rfl) rfl (fun s h => ?_)
    fun t => ⟨_, rfl, fun _ => rfl, fun s t ht => ?_⟩
  · simp [Monitors.deleteTarget, removeMonitor, h]
  · rw [removeMonitor, ht]
    exact agree_self _ fun a => follows_reply _

theorem removeChannel_follows (id : Id) :
    Takes contains K (program config (.removeChannel id))
      (atomicProgram config (.removeChannel id)) := by
  refine follows_guarded (.deleteChannel id) (fun s => s.channel? id) Option.isNone
    (fun _ => deleteChannelRow id) (fun _ => removeChannel id) (fun _ _ => rfl) (fun _ _ => rfl)
    (fun _ _ => rfl) (fun _ => rfl) (fun _ => rfl) (.channelGone id) ?_ ?_ ?_
  · rintro (_ | channel) h
    · rfl
    · cases h
  · intro c s h
    simp [deleteChannelRow, removeChannel, Option.isNone_iff_eq_none.mp h]
  · rintro (_ | channel) h
    · cases h
    · refine ⟨_, rfl, fun _ => rfl, fun c s hfound => ?_⟩
      obtain ⟨channel', hchannel⟩ :=
        Option.isSome_iff_exists.mp (Option.isNone_eq_false_iff.mp hfound)
      rw [removeChannel, hchannel]
      exact agree_self _ fun a => follows_reply _

theorem updateChannel_eq (id : Id) (dto : Channels.UpdateChannelDto) :
    program config (.channel (.updateChannel id dto)) =
      .call (.channel (.findChannelById id)) fun
        | .error e => .raise e
        | .ok none => .raise (Channels.channelNotFound id)
        | .ok (some channel) => (Program.ofExcept (checkedUpdate channel.type dto)).bind fun data =>
            .call (.channel (.updateChannel id data)) fun
              | .error e => .raise e
              | .ok updated => .ret (.channel (.channel (Channels.toChannelDto updated))) := by
  refine congrArg (Program.call (Op.channel (.findChannelById id))) (funext ?_)
  rintro (e | _ | channel)
  · rfl
  · rfl
  · simp only [Program.pure_def, Program.bind_def, Program.bind, Except.map, Program.ofExcept_ok,
      checkedUpdate]
    cases Channels.validateUpdate channel.type dto.config with
    | error e => rfl
    | ok _ =>
        cases Channels.trimmedName dto.name with
        | error e => rfl
        | ok name =>
            refine congrArg (Program.call (Op.channel (.updateChannel id _))) (funext ?_)
            rintro (e | updated) <;> rfl

/-- The type for which the new config was checked is still that of the channel. -/
theorem updateChannel_follows (id : Id) (dto : Channels.UpdateChannelDto) :
    Takes contains (fun w => Integrity w.store) (program config (.channel (.updateChannel id dto)))
      (atomicProgram config (.channel (.updateChannel id dto))) := by
  rw [updateChannel_eq]
  refine follows_lookup (fun s => s.channel? id) (fun _ => updateChannel id dto)
    (fun _ _ => rfl) (fun _ _ => rfl) (fun _ => rfl) (fun _ => rfl) fun w hs => ?_
  cases hfound : w.store.channel? id with
  | none =>
      refine Or.inl ⟨Channels.channelNotFound id, _, rfl, fun c => ?_, .same _⟩
      simp only [updateChannel, hfound]
  | some channel =>
      have hid : channel.id = id := by simpa using List.find?_some hfound
      cases hdata : checkedUpdate channel.type dto with
      | error e =>
          refine Or.inl ⟨e, e, ?_, fun c => ?_, .same _⟩
          · simp only [hdata, Program.ofExcept_error, Program.bind]
          · simp only [updateChannel, hfound, hdata]
      | ok data =>
          refine Or.inr ⟨Remembered channel, stable_remembered channel,
            remembered_found hs hfound, ?_⟩
          simp only [hdata, Program.ofExcept_ok, Program.bind]
          refine follows_write (fun _ => Channels.updateChannelRow id data)
            (fun _ => updateChannel id dto) (fun _ _ => rfl) (fun _ _ => rfl) (fun _ => rfl)
            (fun _ => rfl) fun c w hw => ?_
          cases hrow : w.store.channel? id with
          | none =>
              simp only [Channels.updateChannelRow, updateChannel, hrow]
              exact ⟨rfl, .error (.channelGone id)⟩
          | some channel' =>
              have hid' : channel'.id = id := by simpa using List.find?_some hrow
              have htype : channel'.type = channel.type :=
                hw.type channel' (List.mem_of_find?_eq_some hrow) (hid'.trans hid.symm)
              have hbody : updateChannel id dto w.store =
                  Channels.updateChannelRow id data w.store := by
                simp only [updateChannel, hrow, htype, hdata]
              rw [hbody]
              exact agree_self _ fun a => follows_reply _

end Requests

/-! ## The theorem -/

theorem program_follows (config : Config) (request : Request) :
    Takes config.contains (fun w => Integrity w.store) (program config request)
      (atomicProgram config request) := by
  have hsame : ∀ p : Api Reply, Takes config.contains (fun w => Integrity w.store) p
      (p.within AtomicOp.op fun _ a => a) := by
    have hexec : ∀ c op w, (atomicExec config.contains c (.op op) w).1.map (fun a => a) =
        (exec config.contains c op w).1 ∧
        (atomicExec config.contains c (.op op) w).2 = (exec config.contains c op w).2 :=
      fun c op w => ⟨Program.map_answer _, rfl⟩
    exact Program.refines_within AtomicOp.op (fun op (a : AtomicAnswer (.op op)) => a)
      SameAnswer.refl hexec
  cases request with
  | monitor request =>
      cases request with
      | create dto => exact createMonitor_follows dto
      | update id dto => exact updateMonitor_follows id dto
      | setEnabled id enabled => exact setEnabled_follows id enabled
      | remove id => exact removeMonitor_follows id
  | channel request =>
      cases request with
      | updateChannel id dto => exact updateChannel_follows id dto
      | _ => exact hsame _
  | removeChannel id => exact removeChannel_follows id
  | _ => exact hsame _

/-- The two APIs have the same tables and have given the same answers. -/
structure Indistinguishable (P : ApiPool) (Q : AtomicPool) : Prop where
  store : Q.store = P.store
  calls : List.Forall₂ (fun c c' => c'.label = c.label ∧
    ∀ r, c.outcome? = some r → ∃ r', c'.outcome? = some r' ∧ SameAnswer r r') P.calls Q.calls

theorem system_refines (config : Config) : (system config).Refines (atomicSystem config) Later
    SameAnswer fun w => Integrity w.store where
  stable := stable_integrity
  start := program_follows config
  exec w choice op := ⟨_, exec_write config.contains choice op w⟩
  env _ change := change.elim

theorem indistinguishable_of_refines {P : ApiPool} {Q : AtomicPool} {config : Config}
    (h : P.Refines (system config) (atomicSystem config) Later SameAnswer Q) :
    Indistinguishable P Q where
  store := h.store
  calls := h.calls.imp fun _ _ hc => ⟨hc.label, fun _ hr => hc.outcome hr⟩

/-- An API whose management requests are indivisible follows every run of the API,
event by event, and leaves out only events that change no table; at every moment
the two are indistinguishable. -/
theorem management_atomic (config : Config) :
    ∃ follow : List ApiEvent → List ApiEvent, Follows follow ∧
      ∀ es, Indistinguishable ((system config).runList initial es)
        ((atomicSystem config).runList ⟨initial.store, []⟩ (follow es)) := by
  have hinit : initial.Refines (system config) (atomicSystem config) Later SameAnswer
      ⟨initial.store, []⟩ := ⟨rfl, .nil⟩
  obtain ⟨follow, hfollow, hrefines⟩ := (system_refines config).follows Integrity.empty hinit
  exact ⟨follow, hfollow, fun es => indistinguishable_of_refines (hrefines es)⟩

end SocialMonitor.Backend

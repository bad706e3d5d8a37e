import SocialMonitor.Monitors.Calls

/-!
# Usable targets

A target is usable when its name is not blank and its external id is a text
without white space around it.  `create` normalises its input; `update` stores
what it is given.
-/

namespace SocialMonitor.Monitors

open Async

def HasText (s : String) : Prop := ∃ c ∈ s.toList, Js.isWhiteSpace c = false

/-- Not empty, and without white space at its ends. -/
def Clean (s : String) : Prop := s ≠ "" ∧ Js.trim s = s

instance (s : String) : Decidable (HasText s) := List.decidableBEx _ s.toList

instance (s : String) : Decidable (Clean s) := by
  unfold Clean
  infer_instance

structure Usable (t : MonitorTarget) : Prop where
  name : HasText t.name
  externalId : Clean t.externalId

/-! ## The decorators of the DTOs -/

/-- `@IsOptional` before the decorators of a property. -/
def Field.Optional {α : Type} (f : Field α) (p : α → Prop) : Prop := ∀ a ∈ f.toOption, p a

section Decorators

-- What `@MaxLength` counts of a text.
variable (length : String → ℕ)

def CreateMonitorDto.Accepted (dto : CreateMonitorDto) : Prop :=
  (dto.name ≠ "" ∧ length dto.name ≤ 200) ∧ dto.username.Optional (length · ≤ 100) ∧
    dto.externalId.Optional (length · ≤ 100)

def UpdateMonitorDto.Accepted (dto : UpdateMonitorDto) : Prop :=
  dto.name.Optional (fun name => name ≠ "" ∧ length name ≤ 200) ∧
    dto.username.Optional (length · ≤ 100) ∧ dto.externalId.Optional (length · ≤ 100)

/-- What the validation pipe lets through. -/
def Request.Accepted : Request → Prop
  | .create dto => dto.Accepted length
  | .update _ dto => dto.Accepted length
  | _ => True

def AcceptedInput (_ : MonitorPool) : MonitorEvent → Prop
  | .spawn request => request.Accepted length
  | _ => True

instance {α : Type} {f : Field α} {p : α → Prop} [DecidablePred p] : Decidable (f.Optional p) := by
  unfold Field.Optional
  infer_instance

instance (dto : CreateMonitorDto) : Decidable (dto.Accepted length) := by
  unfold CreateMonitorDto.Accepted
  infer_instance

instance (dto : UpdateMonitorDto) : Decidable (dto.Accepted length) := by
  unfold UpdateMonitorDto.Accepted
  infer_instance

instance (r : Request) : Decidable (r.Accepted length) := by
  cases r <;> unfold Request.Accepted <;> infer_instance

instance (P : MonitorPool) (e : MonitorEvent) : Decidable (AcceptedInput length P e) :=
  match e with
  | .spawn request => inferInstanceAs (Decidable (request.Accepted length))
  | .perform _ _ => .isTrue trivial
  | .env _ => .isTrue trivial

end Decorators

/-- Names are not blank, and an update gives external ids that are clean. -/
def Request.Proper : Request → Prop
  | .create dto => HasText dto.name
  | .update _ dto => dto.name.Optional HasText ∧ dto.externalId.Optional Clean
  | _ => True

def ProperInput (_ : MonitorPool) : MonitorEvent → Prop
  | .spawn request => request.Proper
  | _ => True

instance (r : Request) : Decidable r.Proper := by
  cases r <;> unfold Request.Proper <;> infer_instance

instance (P : MonitorPool) (e : MonitorEvent) : Decidable (ProperInput P e) :=
  match e with
  | .spawn request => inferInstanceAs (Decidable request.Proper)
  | .perform _ _ => .isTrue trivial
  | .env _ => .isTrue trivial

/-! ## What the calls write -/

def Op.Proper : Op → Prop
  | .create data => HasText data.name ∧ Clean data.externalId
  | .update _ data => data.name.Optional HasText ∧ data.externalId.Optional Clean
  | _ => True

theorem HasText.trim {s : String} (h : HasText s) : HasText (Js.trim s) := by
  obtain ⟨c, hc, hblank⟩ := h
  exact ⟨c, Js.mem_trim hc hblank, hblank⟩

theorem trimmed_clean {f : Field String} {s : String} (h : trimmed f = some s) : Clean s := by
  obtain ⟨t, ht, hs⟩ := Option.bind_eq_some_iff.mp h
  obtain ⟨u, -, rfl⟩ := Option.map_eq_some_iff.mp ht
  obtain ⟨rfl, hne⟩ := Js.nonempty?_eq_some.mp hs
  exact ⟨hne, Js.trim_trim u⟩

theorem normalizeCreate_proper {dto : CreateMonitorDto} {data : MonitorData}
    (hname : HasText dto.name)
    (h : normalizeCreate dto = .ok data) : (Op.create data).Proper := by
  have hor : ∀ x, (trimmed dto.externalId).or (trimmed dto.username) = some x → Clean x := by
    intro x hx
    rcases Option.or_eq_some_iff.mp hx with hx | ⟨-, hx⟩
    · exact trimmed_clean hx
    · exact trimmed_clean hx
  simp only [normalizeCreate] at h
  split at h
  · rename_i x _ hx
    obtain rfl := Except.ok.inj h
    exact ⟨hname.trim, hor _ hx⟩
  · exact absurd h (by simp)
  · rename_i hx _ _
    obtain rfl := Except.ok.inj h
    exact ⟨hname.trim, trimmed_clean hx⟩
  · exact absurd h (by simp)

theorem ensureExists_awaits (id : Id) : (ensureExists id).Awaits Op.Proper := by
  refine Program.Awaits.bind (Program.awaits_await (show Op.Proper (.findUnique id) from trivial))
    fun found => ?_
  cases found with
  | none => exact trivial
  | some t => exact trivial

theorem create_awaits {dto : CreateMonitorDto} (h : HasText dto.name) :
    (create dto).Awaits Op.Proper := by
  unfold create
  cases hnormalized : normalizeCreate dto with
  | error e => exact trivial
  | ok data =>
      have hdata := normalizeCreate_proper h hnormalized
      refine Program.Awaits.bind (p := Program.await (Op.findUniqueByTypeExternalId _ _))
        (Program.awaits_await trivial) fun existing => ?_
      cases existing with
      | some t => exact trivial
      | none =>
          exact Program.Awaits.bind
            (Program.awaits_await (show Op.Proper (.create data) from hdata)) fun _ => trivial

theorem program_awaits (r : Request) (h : r.Proper) : (program r).Awaits Op.Proper := by
  cases r with
  | create dto =>
      exact Program.Awaits.bind (create_awaits h) fun _ => trivial
  | update id dto =>
      refine Program.Awaits.bind (Program.Awaits.bind (ensureExists_awaits id) fun _ => ?_)
        fun _ => trivial
      exact Program.Awaits.bind (Program.awaits_await (show Op.Proper (.update id dto) from h))
        fun _ => trivial
  | setEnabled id enabled =>
      refine Program.Awaits.bind (Program.Awaits.bind (ensureExists_awaits id) fun _ => ?_)
        fun _ => trivial
      refine Program.Awaits.bind (Program.awaits_await ?_) fun updated => ?_
      · exact ⟨fun _ h => absurd h (by simp [Field.toOption]),
          fun _ h => absurd h (by simp [Field.toOption])⟩
      · exact Program.Awaits.bind (Program.awaits_await (show Op.Proper (.emit _) from trivial))
          fun _ => trivial
  | remove id =>
      refine Program.Awaits.bind (Program.Awaits.bind (ensureExists_awaits id) fun _ => ?_)
        fun _ => trivial
      exact Program.Awaits.bind (Program.awaits_await (show Op.Proper (.delete id) from trivial))
        fun _ => trivial

/-! ## Runs -/

theorem Usable.created {data : MonitorData} (h : (Op.create data).Proper) (id : Id)
    (createdAt : Time) :
    Usable (targetRow data id createdAt) := ⟨h.1, h.2⟩

theorem Usable.updated {t row : MonitorTarget} {id : Id} {data : UpdateMonitorDto} (h : Usable t)
    (hdata : (Op.update id data).Proper) (hrow : updatedRow data t = .ok row) : Usable row := by
  rw [updatedRow_ok hrow]
  constructor
  · cases hname : data.name.toOption with
    | none => exact h.name
    | some name => exact hdata.1 name hname
  · cases hext : data.externalId.toOption with
    | none => exact h.externalId
    | some externalId => exact hdata.2 externalId hext

theorem usable_of_run {P : MonitorPool} (hrun : system.Run ProperInput initial P) :
    ∀ t ∈ P.store.targets, Usable t := by
  refine hrun.invariant (fun P => ∀ t ∈ P.store.targets, Usable t) ?_ ?_ ?_ ?_
  · simp [initial, Store.empty]
  · exact fun P r _ h _ => h
  · intro P index choice call op next hrun h _ hget hrest
    have hawaits := awaits_of_run program_awaits (fun _ _ h => h) hrun call
        (List.mem_of_getElem? hget)
    rw [hrest] at hawaits
    refine (exec_write choice op P.store).forall h ?_ ?_
    · rintro data createdAt rfl
      exact Usable.created hawaits.1 _ createdAt
    · rintro id data t row rfl - ht hrow
      exact ht.updated hawaits.1 hrow
  · exact fun P change => change.elim

theorem Usable.hasRequiredParams {t : MonitorTarget} (h : Usable t) :
    hasRequiredParams t = true := by
  have hne := h.externalId.1
  unfold Monitors.hasRequiredParams
  split <;> simp [hne]

theorem check_run {s : Store} (hs : Sound s) {t : MonitorTarget} (ht : t ∈ s.targets)
    {choices : ℕ → Choice} (hcalm : (choices 0).fault = none) :
    (check t.id).run exec choices s = (.ok ⟨hasRequiredParams t, t.name⟩, s) := by
  have hfind : s.target? t.id = some t := Table.find?_of_nodup hs.targets.nodup ht
  simp [check, Program.bind, Program.run, exec, Choice.query_of_fault_none hcalm, hfind]

/-- Every target of a run whose inputs are proper is usable: `check` finds it
valid, and its chat id selects it as long as it is enabled. -/
theorem always_usable {P : MonitorPool} (hrun : system.Run ProperInput initial P) :
    ∀ t ∈ P.store.targets, Usable t ∧
      (∀ choices : ℕ → Choice, (choices 0).fault = none →
        (check t.id).run exec choices P.store = (.ok ⟨true, t.name⟩, P.store)) ∧
      (Messages.isTelegram t.type = true → t.enabled = true →
        t ∈ Messages.telegramTargets P.store (Js.trim t.externalId)) := by
  intro t ht
  have husable := usable_of_run hrun t ht
  refine ⟨husable, fun choices hcalm => ?_, fun htype henabled => ?_⟩
  · rw [check_run (reachable_of_run hrun).sound ht hcalm, husable.hasRequiredParams]
  · rw [husable.externalId.2]
    simp [Messages.telegramTargets, ht, htype, henabled]

/-! ## An external id that an update empties -/

def sampleDto : CreateMonitorDto := ⟨.tgChannel, "OpenAI News", .undefined, .value "-1001"⟩

/-- A target is created, and an update is given for its external id. -/
def updateExternalId (externalId : String) : List MonitorEvent :=
  [.spawn (.create sampleDto), .perform 0 calm, .perform 0 calm,
    .spawn (.update 0 ⟨.undefined, .undefined, .value externalId, .undefined⟩), .perform 1 calm,
    .perform 1 calm]

theorem always_usable_update :
    system.Run ProperInput initial (system.runList initial (updateExternalId "-1002")) ∧
      ∀ t ∈ (system.runList initial (updateExternalId "-1002")).store.targets, Usable t := by
  have hrun : system.Run ProperInput initial (system.runList initial (updateExternalId "-1002")) :=
    Machine.Run.refl.list (by decide +kernel)
  exact ⟨hrun, fun t ht => (always_usable hrun t ht).1⟩

/-- An update with an accepted body leaves a target that `check` finds invalid. -/
theorem emptied_externalId :
    system.Run (AcceptedInput String.length) initial
        (system.runList initial (updateExternalId "")) ∧
      ∃ t ∈ (system.runList initial (updateExternalId "")).store.targets, ¬ Usable t ∧
        ((check t.id).run exec (fun _ => calm)
          (system.runList initial (updateExternalId "")).store).1 = .ok ⟨false, "OpenAI News"⟩ := by
  have hrow : ⟨0, .tgChannel, "OpenAI News", none, "", true, none, 1000⟩ ∈
      (system.runList initial (updateExternalId "")).store.targets := by decide +kernel
  refine ⟨Machine.Run.refl.list (by decide +kernel), _, hrow, fun h => h.externalId.1 rfl, ?_⟩
  rfl

end SocialMonitor.Monitors

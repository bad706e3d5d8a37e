import SocialMonitor.Async.Facts
import SocialMonitor.Telegram.Reachable

/-!
# Calls of the monitor service

Any number of calls of `create`, `update`, `setEnabled` and `remove` over one
table of targets, interleaved at their operations, and what one operation does
to the table.
-/

namespace SocialMonitor.Monitors

open Async

inductive Request where
  | create (dto : CreateMonitorDto)
  | update (id : Id) (dto : UpdateMonitorDto)
  | setEnabled (id : Id) (enabled : Bool)
  | remove (id : Id)

inductive Reply where
  | monitor (dto : MonitorDto)
  | removed

def program : Request → Api Reply
  | .create dto => return .monitor (← create dto)
  | .update id dto => return .monitor (← update id dto)
  | .setEnabled id enabled => return .monitor (← setEnabled id enabled)
  | .remove id => do
      let _ ← remove id
      return .removed

abbrev MonitorPool := Pool Request Store Op Answer ApiError Reply

abbrev MonitorEvent := Event Request Choice Empty

def system : System Request Store Choice Empty Op Answer ApiError Reply where
  start := program
  exec := exec
  env := fun change _ => change.elim

def initial : MonitorPool := ⟨Store.empty, []⟩

/-! ## What an operation does to the targets -/

inductive Write (s : Store) : Op → List MonitorTarget → Prop where
  | kept (op : Op) : Write s op s.targets
  | created (data : MonitorData) (createdAt : Time)
      (hkey : ∀ t ∈ s.targets, targetKey t ≠ (data.type, data.externalId)) :
      Write s (.create data) (s.targets ++ [targetRow data s.nextId createdAt])
  | updated (id : Id) (data : UpdateMonitorDto) (t row : MonitorTarget)
      (ht : s.target? id = some t) (hrow : updatedRow data t = .ok row)
      (hkey : ∀ t' ∈ s.targets, t'.id ≠ id → targetKey t' ≠ targetKey row) :
      Write s (.update id data) (s.targets.map fun t' => if t'.id = id then row else t')
  | deleted (id : Id) : Write s (.delete id) (s.targets.filter fun t => t.id ≠ id)

theorem exec_write (c : Choice) (op : Op) (s : Store) : Write s op (exec c op s).2.targets := by
  have hquery : ∀ {applied : Except ApiError (Answer op) × Store},
      Write s op applied.2.targets → Write s op (c.query s applied).2.targets := by
    intro applied h
    rcases c.query_cases s applied with ⟨error, -, heq⟩ | ⟨-, heq⟩ <;> rw [heq]
    · exact .kept op
    · exact h
  cases op with
  | findUnique id => exact hquery (.kept _)
  | findUniqueByTypeExternalId type externalId => exact hquery (.kept _)
  | emit event => exact .kept _
  | create data =>
      refine hquery ?_
      unfold createTarget
      split_ifs with hkey
      · exact .kept _
      · refine .created data c.now ?_
        exact targetByKey?_eq_none.mp (Option.not_isSome_iff_eq_none.mp hkey)
  | update id data =>
      refine hquery ?_
      unfold updateTarget
      split
      · exact .kept _
      · rename_i t ht
        split
        · exact .kept _
        · rename_i row hrow
          split_ifs with hany
          · exact .kept _
          · refine .updated id data t row ht hrow fun t' ht' hne hkey => ?_
            refine hany (List.any_eq_true.mpr ⟨t', ht', ?_⟩)
            simpa [hne, targetKey] using hkey
  | delete id =>
      refine hquery ?_
      unfold deleteTarget
      split
      · exact .kept _
      · exact .deleted id

/-- What holds of the rows that calls write holds of every row. -/
theorem Write.forall {s : Store} {op : Op} {targets : List MonitorTarget} (h : Write s op targets)
    {P : MonitorTarget → Prop} (hs : ∀ t ∈ s.targets, P t)
    (hcreate : ∀ data createdAt, op = .create data → P (targetRow data s.nextId createdAt))
    (hupdate : ∀ id data t row, op = .update id data → t ∈ s.targets → P t →
      updatedRow data t = .ok row → P row) : ∀ t ∈ targets, P t := by
  intro t ht
  cases h with
  | kept => exact hs t ht
  | created data createdAt hkey =>
      rcases List.mem_append.mp ht with ht | ht
      · exact hs t ht
      · obtain rfl := List.mem_singleton.mp ht
        exact hcreate data createdAt rfl
  | updated id data t₀ row ht₀ hrow hkey =>
      obtain ⟨t', ht', rfl⟩ := List.mem_map.mp ht
      have hmem : t₀ ∈ s.targets := List.mem_of_find?_eq_some ht₀
      split_ifs
      · exact hupdate id data t₀ row rfl hmem (hs t₀ hmem) hrow
      · exact hs t' ht'
  | deleted id => exact hs t (List.mem_filter.mp ht).1

/-! ## Runs -/

variable {allowed : MonitorPool → MonitorEvent → Prop} {P : MonitorPool}

theorem reachable_of_run (hrun : system.Run allowed initial P) : Reachable P.store := by
  refine hrun.invariant (fun P => Reachable P.store) .refl ?_ ?_ ?_
  · exact fun P label _ h _ => h
  · exact fun P index choice call op next _ h _ _ _ => h.tail (.monitor choice op)
  · exact fun P change => change.elim

/-- The operations that a call awaits, when its own input is `Clean`. -/
theorem awaits_of_run {Clean : Request → Prop} {Admitted : Op → Prop}
    (hstart : ∀ r, Clean r → (program r).Awaits Admitted)
    (hallowed : ∀ P r, allowed P (.spawn r) → Clean r) (hrun : system.Run allowed initial P) :
    ∀ c ∈ P.calls, c.rest.Awaits Admitted :=
  hrun.awaits rfl fun P r hspawn => hstart r (hallowed P r hspawn)

end SocialMonitor.Monitors

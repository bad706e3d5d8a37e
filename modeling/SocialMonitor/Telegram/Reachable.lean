import Mathlib.Logic.Relation
import SocialMonitor.Messages.Effect
import SocialMonitor.Monitors.Service

/-!
# Reachable stores

The stores that single operations on targets and messages lead to, in any
order.  They include those that runs of the services lead to, however the runs
interleave and whichever of their operations fail.
-/

namespace SocialMonitor

inductive Step (s : Store) : Store → Prop where
  | message (c : Choice) (op : Messages.Op) : Step s (Messages.exec c op s).2
  | monitor (c : Choice) (op : Monitors.Op) : Step s (Monitors.exec c op s).2
  | channel (change : Messages.Change) : Step s (change.apply s)

abbrev Reaches : Store → Store → Prop := Relation.ReflTransGen Step

abbrev Reachable (s : Store) : Prop := Reaches Store.empty s

def targetKey (t : MonitorTarget) : MonitorType × String := (t.type, t.externalId)

/-- Identifiers and keys of targets and messages are unique. -/
structure Sound (s : Store) : Prop where
  targetKeys : Table.Unique targetKey s.targets
  targets : Table.Drawn (s.targets.map MonitorTarget.id) s.nextId
  messageKeys : Table.Unique Messages.messageKey s.messages
  messages : Table.Drawn (s.messages.map Message.id) s.nextId

/-- A message keeps its row, and its identifier is not drawn again. -/
structure Later (s s' : Store) : Prop where
  nextId : s.nextId ≤ s'.nextId
  messages : ∀ m ∈ s'.messages, m ∈ s.messages ∨ s.nextId ≤ m.id

theorem Sound.empty : Sound Store.empty := by
  constructor
  · simp [Store.empty, Table.Unique]
  · exact ⟨by simp [Store.empty], by simp [Store.empty]⟩
  · simp [Store.empty, Table.Unique]
  · exact ⟨by simp [Store.empty], by simp [Store.empty]⟩

theorem Later.refl (s : Store) : Later s s := ⟨le_rfl, fun _ h => Or.inl h⟩

theorem Later.trans {s s' s'' : Store} (h : Later s s') (h' : Later s' s'') : Later s s'' := by
  refine ⟨h.nextId.trans h'.nextId, fun m hm => ?_⟩
  rcases h'.messages m hm with hm | hid
  · exact h.messages m hm
  · exact Or.inr (h.nextId.trans hid)

/-! ## Operations on messages -/

theorem Messages.Effect.sound {s s' : Store} {op : Messages.Op}
    {r : Except ApiError (Messages.Answer op)} (h : Messages.Effect s op r s') (hs : Sound s) :
    Sound s' := by
  cases h with
  | created _ hkey _ =>
      refine ⟨hs.targetKeys, hs.targets.mono (Nat.le_succ _),
        hs.messageKeys.snoc (Messages.messageByKey?_eq_none.mp hkey), ?_⟩
      rw [List.map_append]
      exact hs.messages.snoc
  | @touched targetId time =>
      refine ⟨hs.targetKeys.map fun t => by split_ifs <;> rfl, ?_, hs.messageKeys, hs.messages⟩
      have hids : ∀ t : MonitorTarget, (if t.id = targetId then
          { t with lastMessageAt := some time } else t).id = t.id := fun t => by
        split_ifs <;> rfl
      simpa only [List.map_map, Function.comp_def, hids] using hs.targets
  | inserted =>
      exact ⟨hs.targetKeys, hs.targets.mono (Nat.le_add_right _ _), hs.messageKeys,
        hs.messages.mono (Nat.le_add_right _ _)⟩
  | _ => exact ⟨hs.targetKeys, hs.targets, hs.messageKeys, hs.messages⟩

theorem Messages.Effect.later {s s' : Store} {op : Messages.Op}
    {r : Except ApiError (Messages.Answer op)} (h : Messages.Effect s op r s') : Later s s' := by
  refine ⟨h.grows.nextId, fun m hm => ?_⟩
  cases h with
  | created =>
      rcases List.mem_append.mp hm with hm | hm
      · exact Or.inl hm
      · obtain rfl := List.mem_singleton.mp hm
        exact Or.inr le_rfl
  | _ => exact Or.inl hm

/-! ## Operations on targets -/

namespace Monitors

theorem targetByKey?_eq_none {s : Store} {type : MonitorType} {externalId : String} :
    targetByKey? s type externalId = none ↔ ∀ t ∈ s.targets, targetKey t ≠ (type, externalId) := by
  simp [targetByKey?, targetKey]

theorem createTarget_sound (data : MonitorData) (createdAt : Time) {s : Store} (hs : Sound s) :
    Sound (createTarget data createdAt s).2 ∧ Later s (createTarget data createdAt s).2 := by
  unfold createTarget
  split_ifs with hkey
  · exact ⟨hs, Later.refl s⟩
  · refine ⟨⟨hs.targetKeys.snoc ?_, ?_, hs.messageKeys, hs.messages.mono (Nat.le_succ _)⟩,
      Nat.le_succ _, fun m hm => Or.inl hm⟩
    · exact targetByKey?_eq_none.mp (Option.not_isSome_iff_eq_none.mp hkey)
    · rw [List.map_append]
      exact hs.targets.snoc

theorem unique_replace {targets : List MonitorTarget} (h : Table.Unique targetKey targets)
    {id : Id} {row : MonitorTarget}
    (hfree : ∀ t ∈ targets, t.id ≠ id → targetKey t ≠ targetKey row) :
    Table.Unique targetKey (targets.map fun t => if t.id = id then row else t) := by
  intro a ha b hb heq
  obtain ⟨t, ht, rfl⟩ := List.mem_map.mp ha
  obtain ⟨t', ht', rfl⟩ := List.mem_map.mp hb
  by_cases hid : t.id = id <;> by_cases hid' : t'.id = id
  · simp only [hid, hid', if_true]
  · simp only [hid, hid', if_true, if_false] at heq
    exact absurd heq.symm (hfree t' ht' hid')
  · simp only [hid, hid', if_true, if_false] at heq
    exact absurd heq (hfree t ht hid)
  · simp only [hid, hid', if_false] at heq ⊢
    exact h t ht t' ht' heq

theorem updateTarget_sound (id : Id) (data : UpdateMonitorDto) {s : Store} (hs : Sound s) :
    Sound (updateTarget id data s).2 ∧ Later s (updateTarget id data s).2 := by
  unfold updateTarget
  split
  · exact ⟨hs, Later.refl s⟩
  · rename_i t hfind
    split
    · exact ⟨hs, Later.refl s⟩
    · rename_i row hrow
      split_ifs with hany
      · exact ⟨hs, Later.refl s⟩
      · have hid : t.id = id := by simpa using List.find?_some hfind
        have hids : ∀ t' : MonitorTarget, (if t'.id = id then row else t').id = t'.id := by
          intro t'
          split_ifs with heq
          · rw [updatedRow_ok hrow, hid, heq]
          · rfl
        refine ⟨⟨unique_replace hs.targetKeys ?_, ?_, hs.messageKeys, hs.messages⟩, le_rfl,
          fun m hm => Or.inl hm⟩
        · intro t' ht' hne hkey
          refine hany (List.any_eq_true.mpr ⟨t', ht', ?_⟩)
          simpa [hne, targetKey] using hkey
        · simpa only [List.map_map, Function.comp_def, hids] using hs.targets

theorem deleteTarget_sound (id : Id) {s : Store} (hs : Sound s) :
    Sound (deleteTarget id s).2 ∧ Later s (deleteTarget id s).2 := by
  unfold deleteTarget
  split
  · exact ⟨hs, Later.refl s⟩
  · have htargets : (s.targets.filter fun t => t.id ≠ id).Sublist s.targets :=
      List.filter_sublist
    have hmessages : (s.messages.filter fun m => m.targetId ≠ id).Sublist s.messages :=
      List.filter_sublist
    refine ⟨⟨hs.targetKeys.subset htargets.subset, hs.targets.sublist (htargets.map _),
      hs.messageKeys.subset hmessages.subset, hs.messages.sublist (hmessages.map _)⟩, le_rfl, ?_⟩
    exact fun m hm => Or.inl (hmessages.subset hm)

theorem exec_sound (c : Choice) (op : Op) {s : Store} (hs : Sound s) :
    Sound (exec c op s).2 ∧ Later s (exec c op s).2 := by
  have hquery : ∀ {α : Type} {applied : Except ApiError α × Store},
      Sound applied.2 ∧ Later s applied.2 →
        Sound (c.query s applied).2 ∧ Later s (c.query s applied).2 := by
    intro α applied h
    rcases c.query_cases s applied with ⟨error, -, heq⟩ | ⟨-, heq⟩ <;> rw [heq]
    · exact ⟨hs, Later.refl s⟩
    · exact h
  cases op with
  | findUnique id => exact hquery ⟨hs, Later.refl s⟩
  | findUniqueByTypeExternalId type externalId => exact hquery ⟨hs, Later.refl s⟩
  | create data => exact hquery (createTarget_sound data c.now hs)
  | update id data => exact hquery (updateTarget_sound id data hs)
  | delete id => exact hquery (deleteTarget_sound id hs)
  | emit event =>
      exact ⟨⟨hs.targetKeys, hs.targets, hs.messageKeys, hs.messages⟩, le_rfl,
        fun m hm => Or.inl hm⟩

end Monitors

/-! ## Reachable stores -/

theorem Step.sound {s s' : Store} (h : Step s s') (hs : Sound s) : Sound s' ∧ Later s s' := by
  cases h with
  | message c op =>
      exact ⟨(Messages.exec_effect c op s).sound hs, (Messages.exec_effect c op s).later⟩
  | monitor c op => exact Monitors.exec_sound c op hs
  | channel change =>
      cases change with
      | setChannelEnabled id enabled =>
          exact ⟨⟨hs.targetKeys, hs.targets, hs.messageKeys, hs.messages⟩, le_rfl,
            fun m hm => Or.inl hm⟩
      | addChannel name type config createdAt =>
          exact ⟨⟨hs.targetKeys, hs.targets.mono (Nat.le_succ _), hs.messageKeys,
            hs.messages.mono (Nat.le_succ _)⟩, Nat.le_succ _, fun m hm => Or.inl hm⟩

theorem Reaches.sound {s s' : Store} (h : Reaches s s') (hs : Sound s) : Sound s' ∧ Later s s' := by
  induction h with
  | refl => exact ⟨hs, Later.refl s⟩
  | tail _ hstep ih =>
      obtain ⟨hsound, hlater⟩ := hstep.sound ih.1
      exact ⟨hsound, ih.2.trans hlater⟩

theorem Reachable.sound {s : Store} (h : Reachable s) : Sound s := (Reaches.sound h .empty).1

/-- Whatever a run of a program over the messages does, it takes reachable steps. -/
theorem reaches_run {α : Type} (p : Messages.Api α) (choices : ℕ → Choice) (s : Store) :
    Reaches s (p.run Messages.exec choices s).2 := by
  induction p generalizing choices s with
  | ret a => exact .refl
  | raise e => exact .refl
  | call op next ih => exact .head (.message (choices 0) op) (ih _ _ _)

end SocialMonitor

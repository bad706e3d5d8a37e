import SocialMonitor.Backend.Outbox
import SocialMonitor.Ledger

/-!
# The life of a notification

A message and a channel have an account in a ledger.  It is opened when the task
for the two is created, counts the attempts, and is closed when the task goes
with its message or its channel.  Every run of the API is a run of this ledger.
-/

namespace SocialMonitor.Backend

open Async

/-! ## The tasks ever created -/

abbrev opened (e : Entry Op Answer ApiError) : List (Id × Id × Id) := (effectOf e).opened

/-- What the tasks created so far have to do with the tables. -/
structure Books (created : List (Id × Id × Id)) (s : Store) : Prop where
  keys : (created.map Prod.snd).Nodup
  drawn : ∀ p ∈ created, p.2.1 < s.nextId ∧ p.2.2 < s.nextId
  rows : ∀ t ∈ s.tasks, (t.id, taskKey t) ∈ created
  removed : ∀ p ∈ created, (∃ t ∈ s.tasks, taskKey t = p.2) ∨
    p.2.1 ∉ s.messages.map Message.id ∨ p.2.2 ∉ s.channels.map NotificationChannel.id

section Books

variable {created : List (Id × Id × Id)} {s s' : Store} {effect : Effect}

theorem Books.perm {created' : List (Id × Id × Id)} (h : Books created s)
    (hperm : created.Perm created') : Books created' s where
  keys := (hperm.map Prod.snd).nodup_iff.mp h.keys
  drawn p hp := h.drawn p (hperm.mem_iff.mpr hp)
  rows t ht := hperm.mem_iff.mp (h.rows t ht)
  removed p hp := h.removed p (hperm.mem_iff.mpr hp)

/-- Where a table grows by the identifier that is drawn, nothing gone comes back. -/
theorem not_mem_snoc {ids : List Id} {id next : Id} (hid : id < next) (h : id ∉ ids) :
    id ∉ ids ++ [next] := by
  intro hmem
  rcases List.mem_append.mp hmem with hmem | hmem
  · exact h hmem
  · exact absurd (List.mem_singleton.mp hmem) hid.ne

/-- The key of a task to be created has never had a task. -/
theorem Books.fresh (h : Books created s) {messageId channelId : Id}
    (hmessage : messageId ∈ s.messages.map Message.id)
    (hchannel : channelId ∈ s.channels.map NotificationChannel.id)
    (hnone : ∀ t ∈ s.tasks, taskKey t ≠ (messageId, channelId)) :
    (messageId, channelId) ∉ created.map Prod.snd := by
  intro hmem
  obtain ⟨p, hp, hkey⟩ := List.mem_map.mp hmem
  rcases h.removed p hp with ⟨t, ht, htkey⟩ | hgone | hgone
  · exact hnone t ht (htkey.trans hkey)
  · exact hgone (by rw [hkey]; exact hmessage)
  · exact hgone (by rw [hkey]; exact hchannel)

/-- A key whose task goes has lost its message or its channel. -/
theorem Books.filtered (h : Books created s) {messages : List Message}
    {channels : List NotificationChannel} {targets : List MonitorTarget}
    {keep : NotificationTask → Bool}
    (hmessages : messages.map Message.id ⊆ s.messages.map Message.id)
    (hchannels : channels.map NotificationChannel.id ⊆ s.channels.map NotificationChannel.id)
    (hgone : ∀ t ∈ s.tasks, keep t = false → t.messageId ∉ messages.map Message.id ∨
      t.channelId ∉ channels.map NotificationChannel.id) :
    Books created { s with
      targets := targets
      messages := messages
      channels := channels
      tasks := s.tasks.filter keep } where
  keys := h.keys
  drawn := h.drawn
  rows t ht := h.rows t (List.mem_filter.mp ht).1
  removed p hp := by
    rcases h.removed p hp with ⟨t, ht, hkey⟩ | hmessage | hchannel
    · cases hkeep : keep t with
      | true => exact Or.inl ⟨t, List.mem_filter.mpr ⟨ht, hkeep⟩, hkey⟩
      | false =>
          rw [← hkey]
          exact Or.inr (hgone t ht hkeep)
    · exact Or.inr (Or.inl fun hmem => hmessage (hmessages hmem))
    · exact Or.inr (Or.inr fun hmem => hchannel (hchannels hmem))

/-- Deleting a row deletes its identifier. -/
theorem not_mem_deleted {α : Type} {f : α → Id} {rows : List α} {p : α → Bool} {a : α}
    (hnodup : (rows.map f).Nodup) (ha : a ∈ rows) (hp : p a = false) :
    f a ∉ (rows.filter p).map f := by
  intro hmem
  obtain ⟨b, hb, hid⟩ := List.mem_map.mp hmem
  obtain ⟨hb, hpb⟩ := List.mem_filter.mp hb
  rw [List.inj_on_of_nodup_map hnodup hb ha hid, hp] at hpb
  cases hpb

theorem Books.inserted (h : Books created s) (hs : Integrity s) {messageId : Id} {createdAt : Time}
    {rows : List NotificationTask}
    (hids : rows.map NotificationTask.id = List.range' s.nextId rows.length)
    (hrows : ∀ t ∈ rows, t = Messages.taskRow t.id messageId t.channelId createdAt ∧
      messageId ∈ s.messages.map Message.id ∧ t.channelId ∈ s.channels.map NotificationChannel.id)
    (hunique : Table.Unique taskKey (s.tasks ++ rows)) :
    Books (rows.map (fun t => (t.id, taskKey t)) ++ created)
      { s with tasks := s.tasks ++ rows, nextId := s.nextId + rows.length } := by
  have hkey : ∀ t ∈ rows, taskKey t = (messageId, t.channelId) := by
    intro t ht
    rw [(hrows t ht).1]
    rfl
  have hnew : ∀ t ∈ rows, s.nextId ≤ t.id := by
    intro t ht
    have hmem : t.id ∈ rows.map NotificationTask.id := List.mem_map_of_mem ht
    rw [hids] at hmem
    exact (List.mem_range'_1.mp hmem).1
  have hnodup : (rows.map taskKey).Nodup := by
    have hnodup : (rows.map NotificationTask.id).Nodup := hids ▸ List.nodup_range'
    refine (List.Nodup.of_map _ hnodup).map_on fun t ht t' ht' heq => ?_
    exact hunique t (List.mem_append_right _ ht) t' (List.mem_append_right _ ht') heq
  have hfresh : ∀ t ∈ rows, taskKey t ∉ created.map Prod.snd := by
    intro t ht
    obtain ⟨-, hmessage, hchannel⟩ := hrows t ht
    rw [hkey t ht]
    refine h.fresh hmessage hchannel fun t' ht' heq => ?_
    obtain rfl := hunique t' (List.mem_append_left _ ht') t (List.mem_append_right _ ht)
      (heq.trans (hkey t ht).symm)
    exact absurd (hs.tasks.below _ (List.mem_map_of_mem ht')) (not_lt.mpr (hnew _ ht))
  constructor
  · rw [List.map_append, List.map_map]
    refine hnodup.append h.keys fun key hmem hmem' => ?_
    obtain ⟨t, ht, rfl⟩ := List.mem_map.mp hmem
    exact hfresh t ht hmem'
  · intro p hp
    rcases List.mem_append.mp hp with hp | hp
    · obtain ⟨t, ht, rfl⟩ := List.mem_map.mp hp
      obtain ⟨-, hmessage, hchannel⟩ := hrows t ht
      dsimp only
      rw [hkey t ht]
      exact ⟨Nat.lt_add_right _ (hs.messages.below _ hmessage),
        Nat.lt_add_right _ (hs.channels.below _ hchannel)⟩
    · exact ⟨Nat.lt_add_right _ (h.drawn p hp).1, Nat.lt_add_right _ (h.drawn p hp).2⟩
  · intro t ht
    rcases List.mem_append.mp ht with ht | ht
    · exact List.mem_append_right _ (h.rows t ht)
    · exact List.mem_append_left _ (List.mem_map_of_mem ht)
  · intro p hp
    rcases List.mem_append.mp hp with hp | hp
    · obtain ⟨t, ht, rfl⟩ := List.mem_map.mp hp
      exact Or.inl ⟨t, List.mem_append_right _ ht, rfl⟩
    · refine (h.removed p hp).imp_left ?_
      rintro ⟨t, ht, hkey⟩
      exact ⟨t, List.mem_append_left _ ht, hkey⟩

theorem Books.updated (h : Books created s) (id : Id) (data : Notifications.TaskUpdate) :
    Books created (Notifications.updateTaskRow s id data) where
  keys := h.keys
  drawn := h.drawn
  rows t' ht' := by
    obtain ⟨t, ht, rfl⟩ := List.mem_map.mp ht'
    rw [updateTask_id, updateTask_key]
    exact h.rows t ht
  removed p hp := by
    refine (h.removed p hp).imp_left ?_
    rintro ⟨t, ht, hkey⟩
    exact ⟨_, List.mem_map_of_mem ht, (updateTask_key id data t).trans hkey⟩

theorem Books.write (h : Books created s) (hs : Integrity s) (hw : Write s effect s') :
    Books (effect.opened ++ created) s' := by
  cases hw with
  | logged jobs events => exact { h with }
  | targetCreated row hid hkey =>
      exact { h with drawn := fun p hp => ⟨(h.drawn p hp).1.le.trans_lt (Nat.lt_succ_self _),
        (h.drawn p hp).2.le.trans_lt (Nat.lt_succ_self _)⟩ }
  | targetsUpdated f hid hkey => exact { h with }
  | targetDeleted id =>
      refine h.filtered (List.filter_sublist.map _).subset (List.Subset.refl _) fun t ht hkeep => ?_
      simp only [Bool.not_eq_false', List.any_eq_true, Bool.and_eq_true, decide_eq_true_eq] at hkeep
      obtain ⟨m, hm, hid, htarget⟩ := hkeep
      rw [← hid]
      exact Or.inl (not_mem_deleted hs.messages.nodup hm (by simp [htarget]))
  | messageCreated row hid hkey htarget =>
      refine { h with drawn := fun p hp => ?_, removed := fun p hp => ?_ }
      · exact ⟨Nat.lt_succ_of_lt (h.drawn p hp).1, Nat.lt_succ_of_lt (h.drawn p hp).2⟩
      · rcases h.removed p hp with hrow | hmessage | hchannel
        · exact Or.inl hrow
        · rw [List.map_append, List.map_singleton, hid]
          exact Or.inr (Or.inl (not_mem_snoc (h.drawn p hp).1 hmessage))
        · exact Or.inr (Or.inr hchannel)
  | channelCreated row hid =>
      refine { h with drawn := fun p hp => ?_, removed := fun p hp => ?_ }
      · exact ⟨Nat.lt_succ_of_lt (h.drawn p hp).1, Nat.lt_succ_of_lt (h.drawn p hp).2⟩
      · rcases h.removed p hp with hrow | hmessage | hchannel
        · exact Or.inl hrow
        · exact Or.inr (Or.inl hmessage)
        · rw [List.map_append, List.map_singleton, hid]
          exact Or.inr (Or.inr (not_mem_snoc (h.drawn p hp).2 hchannel))
  | channelUpdated id c row hc hid htype =>
      refine { h with removed := fun p hp => ?_ }
      rw [map_id_eq (channelUpdated_id hc hid) s.channels]
      exact h.removed p hp
  | channelDeleted id =>
      refine h.filtered (List.Subset.refl _) (List.filter_sublist.map _).subset fun t ht hkeep => ?_
      have hid : t.channelId = id := by simpa using hkeep
      obtain ⟨c, hc, hcid⟩ := List.mem_map.mp (hs.taskChannel t ht)
      rw [← hcid]
      exact Or.inr (not_mem_deleted hs.channels.nodup hc (by simp [hcid, hid]))
  | tasksInserted messageId createdAt rows hids hrows hkey =>
      exact h.inserted hs hids hrows (hkey hs.taskKeys)
  | taskUpdated id data hid => exact h.updated id data

end Books

/-! ## The ledger of a store -/

/-- The account of a message and a channel. -/
def accountOf (created : List (Id × Id × Id)) (s : Store) (key : Id × Id) : Ledger.Account :=
  match s.tasks.find? fun t => taskKey t = key with
  | some t => Ledger.counting t.attempts
  | none => if key ∈ created.map Prod.snd then ⊤ else ⊥

section Accounts

variable {created : List (Id × Id × Id)} {s s' : Store} {effect : Effect}

theorem accountOf_perm {created' : List (Id × Id × Id)} (hperm : created.Perm created')
    (s : Store) : accountOf created s = accountOf created' s := by
  funext key
  simp only [accountOf, (hperm.map Prod.snd).mem_iff]

theorem find?_key (hs : Integrity s) {t : NotificationTask} (ht : t ∈ s.tasks) :
    (s.tasks.find? fun t' => taskKey t' = taskKey t) = some t :=
  hs.taskKeys.find? ht fun t' => by simp

theorem accountOf_row (hs : Integrity s) {t : NotificationTask} (ht : t ∈ s.tasks) :
    accountOf created s (taskKey t) = Ledger.counting t.attempts := by
  rw [accountOf, find?_key hs ht]

theorem accountOf_none {key : Id × Id} (h : ∀ t ∈ s.tasks, taskKey t ≠ key) :
    accountOf created s key = if key ∈ created.map Prod.snd then ⊤ else ⊥ := by
  have hfind : (s.tasks.find? fun t => taskKey t = key) = none :=
    List.find?_eq_none.mpr fun t ht => by simpa using h t ht
  rw [accountOf, hfind]

/-- Rows that go close their accounts. -/
theorem step_filtered (h : Books created s) (hs : Integrity s) (hs' : Integrity s')
    {keep : NotificationTask → Bool} (htasks : s'.tasks = s.tasks.filter keep) :
    Ledger.Step (accountOf created s) (accountOf created s') := by
  intro key
  by_cases hrow : ∃ t ∈ s.tasks, taskKey t = key
  · obtain ⟨t, ht, rfl⟩ := hrow
    rw [accountOf_row hs ht]
    cases hkeep : keep t with
    | true =>
        have ht' : t ∈ s'.tasks := htasks ▸ List.mem_filter.mpr ⟨ht, hkeep⟩
        exact Or.inl (accountOf_row hs' ht')
    | false =>
        have hnone : ∀ t' ∈ s'.tasks, taskKey t' ≠ taskKey t := by
          intro t' ht' heq
          rw [htasks] at ht'
          obtain ⟨ht', hkeep'⟩ := List.mem_filter.mp ht'
          rw [hs.taskKeys t' ht' t ht heq, hkeep] at hkeep'
          cases hkeep'
        rw [accountOf_none hnone, if_pos (List.mem_map_of_mem (f := Prod.snd) (h.rows t ht))]
        exact Or.inr (.closed t.attempts)
  · have hnone : ∀ t ∈ s.tasks, taskKey t ≠ key := fun t ht hkey => hrow ⟨t, ht, hkey⟩
    have hnone' : ∀ t ∈ s'.tasks, taskKey t ≠ key := by
      intro t ht
      rw [htasks] at ht
      exact hnone t (List.mem_filter.mp ht).1
    rw [accountOf_none hnone, accountOf_none hnone']
    exact Or.inl rfl

/-- Rows that are created open their accounts. -/
theorem step_inserted (hs : Integrity s) (hs' : Integrity s')
    {rows : List NotificationTask} (htasks : s'.tasks = s.tasks ++ rows)
    (hrows : ∀ t ∈ rows, t.attempts = 0)
    (h' : Books (rows.map (fun t => (t.id, taskKey t)) ++ created) s') :
    Ledger.Step (accountOf created s)
      (accountOf (rows.map (fun t => (t.id, taskKey t)) ++ created) s') := by
  intro key
  by_cases hrow : ∃ t ∈ s.tasks, taskKey t = key
  · obtain ⟨t, ht, rfl⟩ := hrow
    have ht' : t ∈ s'.tasks := htasks ▸ List.mem_append_left _ ht
    exact Or.inl ((accountOf_row hs' ht').trans (accountOf_row hs ht).symm)
  have hnone : ∀ t ∈ s.tasks, taskKey t ≠ key := fun t ht hkey => hrow ⟨t, ht, hkey⟩
  have hkeys := h'.keys
  rw [List.map_append, List.map_map] at hkeys
  rw [accountOf_none hnone]
  by_cases hnew : ∃ t ∈ rows, taskKey t = key
  · obtain ⟨t, ht, rfl⟩ := hnew
    have ht' : t ∈ s'.tasks := htasks ▸ List.mem_append_right _ ht
    have hfresh : taskKey t ∉ created.map Prod.snd := fun hmem =>
      (List.nodup_append.mp hkeys).2.2 _ (List.mem_map_of_mem ht) _ hmem rfl
    rw [if_neg hfresh, accountOf_row hs' ht', hrows t ht]
    exact Or.inr .opened
  · have hnone' : ∀ t ∈ s'.tasks, taskKey t ≠ key := by
      intro t ht
      rw [htasks] at ht
      rcases List.mem_append.mp ht with ht | ht
      · exact hnone t ht
      · exact fun hkey => hnew ⟨t, ht, hkey⟩
    have hsame : key ∈ (rows.map (fun t => (t.id, taskKey t)) ++ created).map Prod.snd ↔
        key ∈ created.map Prod.snd := by
      rw [List.map_append, List.map_map, List.mem_append]
      refine or_iff_right fun hmem => ?_
      obtain ⟨t, ht, hkey⟩ := List.mem_map.mp hmem
      exact hnew ⟨t, ht, hkey⟩
    rw [accountOf_none hnone']
    exact Or.inl (if_congr hsame rfl rfl)

/-- An attempt that is taken is counted. -/
theorem steps_updated (hs : Integrity s) {id : Id} {data : Notifications.TaskUpdate}
    (hs' : Integrity (Notifications.updateTaskRow s id data))
    (hid : id ∈ s.tasks.map NotificationTask.id) :
    Ledger.Steps (accountOf created s)
      (accountOf created (Notifications.updateTaskRow s id data)) := by
  obtain ⟨t, ht, rfl⟩ := List.mem_map.mp hid
  have hmem : ∀ t' ∈ s.tasks, (if t'.id = t.id then data.apply t' else t') ∈
      (Notifications.updateTaskRow s t.id data).tasks := fun t' ht' => List.mem_map_of_mem ht'
  have heq : accountOf created (Notifications.updateTaskRow s t.id data) =
      Function.update (accountOf created s) (taskKey t)
        (Ledger.counting (t.attempts + data.attemptsIncrement)) := by
    funext key
    by_cases hkey : key = taskKey t
    · subst hkey
      have hrow := hmem t ht
      rw [if_pos rfl] at hrow
      rw [Function.update_self]
      exact accountOf_row hs' hrow
    rw [Function.update_of_ne hkey]
    by_cases hrow : ∃ t' ∈ s.tasks, taskKey t' = key
    · obtain ⟨t', ht', rfl⟩ := hrow
      have hne : t'.id ≠ t.id := fun heq =>
        hkey (congrArg taskKey (List.inj_on_of_nodup_map hs.tasks.nodup ht' ht heq))
      have hrow := hmem t' ht'
      rw [if_neg hne] at hrow
      rw [accountOf_row hs ht', accountOf_row hs' hrow]
    · have hnone : ∀ t' ∈ s.tasks, taskKey t' ≠ key := fun t' ht' h => hrow ⟨t', ht', h⟩
      have hnone' : ∀ t' ∈ (Notifications.updateTaskRow s t.id data).tasks, taskKey t' ≠ key := by
        intro t'' ht''
        obtain ⟨t', ht', rfl⟩ := List.mem_map.mp ht''
        rw [updateTask_key]
        exact hnone t' ht'
      rw [accountOf_none hnone, accountOf_none hnone']
  rw [heq]
  exact Ledger.steps_count (accountOf_row hs ht) data.attemptsIncrement

/-- What a write does to the ledger. -/
theorem Books.steps (h : Books created s) (hs : Integrity s) (hw : Write s effect s') :
    Ledger.Steps (accountOf created s) (accountOf (effect.opened ++ created) s') := by
  have hs' := hw.integrity hs
  have hbooks := h.write hs hw
  cases hw with
  | targetDeleted id => exact .single (step_filtered h hs hs' rfl)
  | channelDeleted id => exact .single (step_filtered h hs hs' rfl)
  | tasksInserted messageId createdAt rows hids hrows hkey =>
      refine .single (step_inserted hs hs' rfl (fun t ht => ?_) hbooks)
      rw [(hrows t ht).1]
      rfl
  | taskUpdated id data hid => exact steps_updated hs hs' hid
  | _ => exact .refl

end Accounts

/-! ## Every run -/

def ledgerOf (P : ApiPool) : Id × Id → Ledger.Account :=
  accountOf (P.collect opened) P.store.store

section Runs

variable {config : Config} {allowed allowed' : ApiPool → ApiEvent → Prop} {P Q : ApiPool}

theorem Books.empty : Books [] Store.empty where
  keys := List.nodup_nil
  drawn _ hp := absurd hp List.not_mem_nil
  rows _ ht := absurd ht List.not_mem_nil
  removed _ hp := absurd hp List.not_mem_nil

/-- From a state that is reached, the ledger goes on in every continuation. -/
theorem books_go_on (hP : Books (P.collect opened) P.store.store)
    (hrun : (system config).Run allowed initial P) (hrest : (system config).Run allowed' P Q) :
    Books (Q.collect opened) Q.store.store ∧ Ledger.Steps (ledgerOf P) (ledgerOf Q) := by
  refine hrest.invariant (fun Q => Books (Q.collect opened) Q.store.store ∧
    Ledger.Steps (ledgerOf P) (ledgerOf Q)) ⟨hP, .refl⟩ ?_ ?_ fun Q change => change.elim
  · intro Q request _ ih _
    unfold ledgerOf at ih ⊢
    rw [System.collect_spawn]
    exact ih
  · rintro Q index choice call op next hrest ⟨hbooks, hsteps⟩ - hget -
    have hreached : (system config).Run (fun _ _ => True) initial Q :=
      (hrun.mono fun _ _ _ => trivial).trans (hrest.mono fun _ _ _ => trivial)
    have hs := integrity_of_run hreached
    have hw := exec_write config.contains choice op Q.store
    have hperm : (((system config).resumed Q index choice call op next).collect opened).Perm
        (opened ⟨op, (exec config.contains choice op Q.store).1⟩ ++ Q.collect opened) :=
      (system config).collect_resumed opened hget
    have hledger : ledgerOf ((system config).resumed Q index choice call op next) =
        accountOf (opened ⟨op, (exec config.contains choice op Q.store).1⟩ ++ Q.collect opened)
          (exec config.contains choice op Q.store).2.store := accountOf_perm hperm _
    refine ⟨(hbooks.write hs hw).perm hperm.symm, hsteps.trans ?_⟩
    rw [hledger]
    exact hbooks.steps hs hw

theorem ledgerOf_initial : ledgerOf initial = fun _ => ⊥ := by
  funext key
  simp [ledgerOf, accountOf, initial, Store.empty, Pool.collect]

theorem books_of_run (hrun : (system config).Run allowed initial P) :
    Books (P.collect opened) P.store.store ∧ Ledger.Steps (fun _ => ⊥) (ledgerOf P) := by
  have hinitial : Books (initial.collect opened) initial.store.store := Books.empty
  have hstart : (system config).Run allowed initial initial := .refl
  rw [← ledgerOf_initial]
  exact books_go_on hinitial hstart hrun

end Runs

/-! ## The theorem -/

/-- Between two moments of a run. -/
structure Ledgered (P Q : ApiPool) : Prop where
  begins : Ledger.Steps (fun _ => ⊥) (ledgerOf P)
  goesOn : Ledger.Steps (ledgerOf P) (ledgerOf Q)
  rows : ∀ t ∈ Q.store.store.tasks, ledgerOf Q (taskKey t) = Ledger.counting t.attempts
  once : ((Q.collect opened).map Prod.snd).Nodup

/-- Every run of the API is a run of the ledger, in which an account opens once,
counts the attempts of its row and closes for good: a message never has a second
task for the same channel, not even after the first is gone. -/
theorem api_refines_ledger {config : Config} {allowed allowed' : ApiPool → ApiEvent → Prop}
    {P Q : ApiPool} (hrun : (system config).Run allowed initial P)
    (hrest : (system config).Run allowed' P Q) : Ledgered P Q := by
  obtain ⟨hP, hbegins⟩ := books_of_run hrun
  obtain ⟨hQ, hgoesOn⟩ := books_go_on hP hrun hrest
  have hreached : (system config).Run (fun _ _ => True) initial Q :=
    (hrun.mono fun _ _ _ => trivial).trans (hrest.mono fun _ _ _ => trivial)
  exact ⟨hbegins, hgoesOn, fun t ht => accountOf_row (integrity_of_run hreached) ht, hQ.keys⟩

/-- The task has gone with its channel. -/
theorem api_refines_ledger_sample :
    let P := (system sampleConfig).runList samplePool attemptEvents
    let Q := (system sampleConfig).runList P
      (.spawn (.removeChannel 1) :: List.replicate 2 (.perform 4 calmChoice))
    ledgerOf P (2, 1) = Ledger.counting 1 ∧ ledgerOf Q (2, 1) = ⊤ ∧ Ledgered P Q := by
  intro P Q
  have hrun : (system sampleConfig).Run (fun _ _ => True) initial P :=
    samplePool_run.list (by simp [Machine.AllowedList, attemptEvents, ingestEvents])
  have hrest : (system sampleConfig).Run (fun _ _ => True) P Q :=
    Machine.Run.refl.list (by simp [Machine.AllowedList])
  exact ⟨by decide +kernel, by decide +kernel, api_refines_ledger hrun hrest⟩

end SocialMonitor.Backend

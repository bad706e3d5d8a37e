import SocialMonitor.Messages.Dedup

/-!
# The jobs of the tasks

A task is handed to the queue by the call that has inserted it and by no other:
`skipDuplicates` hides it from every later call.  So once no call is in flight
its job exists exactly if the queue did not refuse a task of that call.
-/

namespace SocialMonitor.Messages

open Async

variable {P₀ P : MessagePool} {allowed : MessagePool → MessageEvent → Prop}

/-- The jobs `queue.add` has accepted for a task. -/
def jobCount (s : Store) (taskId : Id) : ℕ := s.jobs.countP fun j => j.taskId = taskId

theorem Effect.jobCount_eq {s s' : Store} {op : Op} {r : Except ApiError (Answer op)}
    (h : Effect s op r s') (taskId : Id) :
    jobCount s' taskId = (acceptedIds ⟨op, r⟩).count taskId + jobCount s taskId := by
  cases h with
  | @enqueued taskId' type =>
      by_cases hid : taskId' = taskId <;>
        simp [jobCount, acceptedIds, Queue.jobOf, hid, List.countP_append, add_comm]
  | failed => cases op <;> simp [acceptedIds]
  | _ => simp [jobCount, acceptedIds]

theorem Change.jobCount_eq (change : Change) (s : Store) (taskId : Id) :
    jobCount (change.apply s) taskId = jobCount s taskId := by
  cases change <;> rfl

theorem Effect.tasks {s s' : Store} {op : Op} {r : Except ApiError (Answer op)}
    (h : Effect s op r s') {t : NotificationTask} (ht : t ∈ s'.tasks) :
    t ∈ s.tasks ∨ t.id ∈ insertedIds ⟨op, r⟩ := by
  cases h with
  | @inserted messageId channelIds rows _ _ =>
      rcases List.mem_append.mp ht with ht | ht
      · exact Or.inl ht
      · refine Or.inr ?_
        simp only [insertedIds, insertedTasks, List.map_map]
        exact List.mem_map_of_mem (f := NotificationTask.id) ht
  | _ => exact Or.inl ht

/-- The jobs of a task are those it had and those the calls were granted. -/
theorem jobCount_of_run (hinit : P₀.calls = []) (hrun : system.Run allowed P₀ P) (taskId : Id) :
    jobCount P.store taskId = (P.collect acceptedIds).count taskId + jobCount P₀.store taskId := by
  refine hrun.collected acceptedIds
    (fun l s => jobCount s taskId = l.count taskId + jobCount P₀.store taskId)
    (by simp [Pool.collect, hinit]) ?_ ?_ ?_
  · intro l l' s hperm h
    rw [← hperm.count_eq]
    exact h
  · intro l choice op s h
    have heffect := (exec_effect choice op s).jobCount_eq taskId
    rw [List.count_append, add_assoc, ← h]
    exact heffect
  · intro l change s h
    rw [← h]
    exact change.jobCount_eq s taskId

theorem tasks_of_run (hrun : system.Run allowed P₀ P) :
    ∀ t ∈ P.store.tasks, t ∈ P₀.store.tasks ∨ t.id ∈ P.collect insertedIds := by
  refine hrun.collected insertedIds
    (fun l s => ∀ t ∈ s.tasks, t ∈ P₀.store.tasks ∨ t.id ∈ l)
    (fun t ht => Or.inl ht) ?_ ?_ ?_
  · intro l l' s hperm h t ht
    exact (h t ht).imp_right hperm.mem_iff.mp
  · intro l choice op s h t ht
    rcases (exec_effect choice op s).tasks ht with ht | hid
    · exact (h t ht).imp_right (List.mem_append_right _)
    · exact Or.inr (List.mem_append_left _ hid)
  · intro l change s h t ht
    cases change <;> exact h t ht

/-- Before the calls every task has its job, and the queue knows no task that
is not there yet. -/
structure Enrolled (s : Store) : Prop where
  tasks : ∀ t ∈ s.tasks, jobCount s t.id = 1
  jobs : ∀ j ∈ s.jobs, j.taskId < s.nextId

def Refused (P : MessagePool) (messageId : Id) : Prop :=
  ∃ t ∈ P.store.tasks, t.messageId = messageId ∧ t.id ∈ P.collect rejectedIds

instance (P : MessagePool) (messageId : Id) : Decidable (Refused P messageId) :=
  inferInstanceAs (Decidable (∃ t ∈ P.store.tasks, _))

theorem enqueuedIds_eq (e : Entry Op Answer ApiError) :
    enqueuedIds e = acceptedIds e ++ rejectedIds e := by
  obtain ⟨op, answer⟩ := e
  cases op with
  | enqueueTask taskId type => cases answer <;> rfl
  | _ => rfl

/-- No task is both accepted and refused, or accepted twice. -/
theorem accepted_once (hinit : P₀.calls = []) (hrun : system.Run allowed P₀ P) :
    (P.collect acceptedIds ++ P.collect rejectedIds).Nodup := by
  have hnodup := enqueuedIds_of_run hinit hrun
  rw [funext enqueuedIds_eq] at hnodup
  exact (Pool.collect_append acceptedIds rejectedIds P).nodup_iff.mp hnodup

theorem enqueued_inserted (hinit : P₀.calls = []) (hrun : system.Run allowed P₀ P) {id : Id}
    (hid : id ∈ P.collect acceptedIds ∨ id ∈ P.collect rejectedIds) :
    P₀.store.nextId ≤ id := by
  have hmem : id ∈ P.collect enqueuedIds := by
    rw [funext enqueuedIds_eq]
    exact (Pool.collect_append acceptedIds rejectedIds P).mem_iff.mpr (List.mem_append.mpr hid)
  obtain ⟨c, hc, e, he, hmem⟩ := Pool.mem_collect.mp hmem
  obtain ⟨e', he', hinserted⟩ := List.mem_flatMap.mp
    ((enqueued_once (calls_conform hinit hrun c hc).1).2 (List.mem_flatMap.mpr ⟨e, he, hmem⟩))
  exact ((insertedIds_of_run hinit hrun).2 id (Pool.mem_collect.mpr ⟨c, hc, e', he', hinserted⟩)).1

theorem Enrolled.jobCount_eq_zero {s : Store} (hs : Enrolled s) {id : Id} (hid : s.nextId ≤ id) :
    jobCount s id = 0 := by
  refine List.countP_eq_zero.mpr fun j hj => ?_
  have hlt := hs.jobs j hj
  simpa using (hlt.trans_le hid).ne

/-- When no call is in flight, the tasks of a message have one job each if and
only if the queue has refused none of them. -/
theorem jobs_complete_iff (hinit : P₀.calls = []) (hkeyed : Keyed P₀.store)
    (henrolled : Enrolled P₀.store) (hrun : system.Run allowed P₀ P) (hquiet : P.Quiescent)
    (messageId : Id) :
    (∀ t ∈ P.store.tasks, t.messageId = messageId → jobCount P.store t.id = 1) ↔
      ¬ Refused P messageId := by
  have honce := List.nodup_append.mp (accepted_once hinit hrun)
  have hcount := jobCount_of_run hinit hrun
  have hrecorded := recorded_of_run hinit hrun
  have hkeyed' := keyed_of_run hkeyed hrun
  have hsettled : ∀ c ∈ P.calls, Settled c.history := by
    intro c hc
    have hdone := (calls_conform hinit hrun c hc).2
    obtain ⟨r, hr⟩ := Option.ne_none_iff_exists'.mp (hquiet c hc)
    rw [Call.outcome?_eq_some.mp hr] at hdone
    exact hdone.ended.settled
  constructor
  · rintro hall ⟨t, ht, hm, hrejected⟩
    have hfresh := enqueued_inserted hinit hrun (Or.inr hrejected)
    have haccepted : t.id ∉ P.collect acceptedIds := fun h => honce.2.2 _ h _ hrejected rfl
    have hone := hall t ht hm
    rw [hcount, List.count_eq_zero_of_not_mem haccepted,
      henrolled.jobCount_eq_zero hfresh] at hone
    exact absurd hone (by decide)
  · intro hrefused t ht hm
    rw [hcount]
    rcases tasks_of_run hrun t ht with hold | hnew
    · have haccepted : t.id ∉ P.collect acceptedIds := fun h =>
        (hkeyed.tasks.below _ (List.mem_map_of_mem hold)).not_ge
          (enqueued_inserted hinit hrun (Or.inl h))
      rw [List.count_eq_zero_of_not_mem haccepted, henrolled.tasks t hold]
    · obtain ⟨c, hc, e, he, hinserted⟩ := Pool.mem_collect.mp hnew
      obtain ⟨p, hp, hid⟩ := List.mem_map.mp hinserted
      obtain ⟨row, hrow, hrowId, hrowMessage, -⟩ := (hrecorded c hc e he).inserted p hp
      obtain rfl : row = t :=
        List.inj_on_of_nodup_map hkeyed'.tasks.nodup hrow ht (hrowId.trans hid)
      have haccepted : row.id ∈ P.collect acceptedIds := by
        rcases hsettled c hc p (List.mem_flatMap.mpr ⟨e, he, hp⟩) with haccepted |
          ⟨q, hq, hqp, hrej⟩
        · obtain ⟨e', he', haccepted⟩ := List.mem_flatMap.mp haccepted
          exact Pool.mem_collect.mpr ⟨c, hc, e', he', hid ▸ haccepted⟩
        · obtain ⟨e', he', hq⟩ := List.mem_flatMap.mp hq
          obtain ⟨e'', he'', hrej⟩ := List.mem_flatMap.mp hrej
          obtain ⟨row', hrow', hrowId', hrowMessage', -⟩ := (hrecorded c hc e' he').inserted q hq
          refine absurd ⟨row', hrow', ?_, ?_⟩ hrefused
          · rw [hrowMessage', hqp, ← hrowMessage, hm]
          · exact Pool.mem_collect.mpr ⟨c, hc, e'', he'', hrowId' ▸ hrej⟩
      rw [List.count_eq_one_of_mem honce.1 haccepted,
        henrolled.jobCount_eq_zero ((insertedIds_of_run hinit hrun).2 _ hnew).1]

theorem oneChannel_enrolled : Enrolled oneChannel := by
  constructor <;> decide

theorem jobs_complete_iff_race :
    ¬ Refused (system.runList ⟨oneChannel, []⟩ race) 3 ∧
      ∀ t ∈ (system.runList ⟨oneChannel, []⟩ race).store.tasks, t.messageId = 3 →
        jobCount (system.runList ⟨oneChannel, []⟩ race).store t.id = 1 := by
  have hrun : system.Run (fun _ _ => True) ⟨oneChannel, []⟩
      (system.runList ⟨oneChannel, []⟩ race) := Machine.Run.refl.list (by decide)
  have hrefused : ¬ Refused (system.runList ⟨oneChannel, []⟩ race) 3 := by decide
  exact ⟨hrefused, (jobs_complete_iff rfl oneChannel_keyed oneChannel_enrolled hrun
    (by decide) 3).mpr hrefused⟩

/-! ## The defect -/

def queueDown : Choice := { calm with queueFault := some (.other "connect ECONNREFUSED") }

/-- The queue refuses the job of the first call; the second call finds the task
and returns. -/
def redelivery : MessagePool :=
  system.runList ⟨oneChannel, []⟩
    [.spawn sampleMessage, .perform 0 calm, .perform 0 calm, .perform 0 calm, .perform 0 calm,
      .perform 0 calm, .perform 0 calm, .perform 0 calm, .perform 0 queueDown,
      .spawn sampleMessage, .perform 1 calm, .perform 1 calm, .perform 1 calm, .perform 1 calm]

theorem redelivery_loses_job :
    system.Run (fun _ _ => True) ⟨oneChannel, []⟩ redelivery ∧ redelivery.Quiescent ∧
      (∃ c ∈ redelivery.calls, ∃ dto, c.Returned dto) ∧
      ∃ t ∈ redelivery.store.tasks, (∃ c ∈ redelivery.store.channels,
        c.id = t.channelId ∧ c.enabled = true) ∧ jobCount redelivery.store t.id = 0 := by
  refine ⟨Machine.Run.refl.list (by decide), by decide, ?_, by decide⟩
  exact ⟨_, List.mem_cons_of_mem _ List.mem_cons_self, _, rfl⟩

end SocialMonitor.Messages

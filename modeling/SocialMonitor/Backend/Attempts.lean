import SocialMonitor.Backend.Attempting

/-!
# What the row of a task counts

`attempts` is increased by the database when a call takes its attempt, but the
number in an event is computed from the row that the call has read before.
-/

namespace SocialMonitor.Backend

open Async

/-! ## The rows -/

section Rows

variable {s s' : Store} {effect : Effect}

/-- A row of the tasks afterwards: it was there, with the attempts taken since,
or it is new. -/
theorem Write.task_from (h : Write s effect s') : ∀ t' ∈ s'.tasks,
    (∃ t ∈ s.tasks, t.id = t'.id ∧ t.channelId = t'.channelId ∧
      t'.attempts = t.attempts + effect.claimed.count t'.id) ∨
    s.nextId ≤ t'.id ∧ t'.attempts = 0 ∧ effect.claimed = [] := by
  have hkept : ∀ {rows : List NotificationTask}, (∀ t ∈ rows, t ∈ s.tasks) → ∀ t' ∈ rows,
      ∃ t ∈ s.tasks, t.id = t'.id ∧ t.channelId = t'.channelId ∧
        t'.attempts = t.attempts + List.count t'.id [] :=
    fun hrows t' ht' => ⟨t', hrows t' ht', rfl, rfl, rfl⟩
  cases h with
  | targetDeleted id =>
      exact fun t' ht' => Or.inl (hkept (fun t ht => (List.mem_filter.mp ht).1) t' ht')
  | channelDeleted id =>
      exact fun t' ht' => Or.inl (hkept (fun t ht => (List.mem_filter.mp ht).1) t' ht')
  | tasksInserted messageId createdAt rows hids hrows hkey =>
      intro t' ht'
      rcases List.mem_append.mp ht' with ht' | ht'
      · exact Or.inl (hkept (fun t ht => ht) t' ht')
      · refine Or.inr ⟨?_, ?_, rfl⟩
        · have hmem : t'.id ∈ List.range' s.nextId rows.length :=
            hids ▸ List.mem_map_of_mem ht'
          exact (List.mem_range'_1.mp hmem).1
        · rw [(hrows t' ht').1]
          rfl
  | taskUpdated id data hid =>
      intro t' ht'
      obtain ⟨t, ht, rfl⟩ := List.mem_map.mp ht'
      refine Or.inl ⟨t, ht, ?_⟩
      split_ifs with heq
      · simp [Notifications.TaskUpdate.apply, heq, List.count_replicate_self]
      · refine ⟨rfl, rfl, ?_⟩
        rw [List.count_replicate, if_neg (by simpa using Ne.symm heq), Nat.add_zero]
  | _ => exact fun t' ht' => Or.inl (hkept (fun t ht => ht) t' ht')

/-- A channel keeps its type. -/
theorem Write.channel_from (h : Write s effect s') : ∀ c' ∈ s'.channels,
    (∃ c ∈ s.channels, c.id = c'.id ∧ c.type = c'.type) ∨ c'.id = s.nextId := by
  cases h with
  | channelCreated row hid =>
      intro c' hc'
      rcases List.mem_append.mp hc' with hc' | hc'
      · exact Or.inl ⟨c', hc', rfl, rfl⟩
      · obtain rfl := List.mem_singleton.mp hc'
        exact Or.inr hid
  | channelUpdated id c row hc hid htype =>
      intro c' hc'
      obtain ⟨c'', hc'', rfl⟩ := List.mem_map.mp hc'
      split_ifs
      · exact Or.inl ⟨c, List.mem_of_find?_eq_some hc, hid.symm, htype.symm⟩
      · exact Or.inl ⟨c'', hc'', rfl, rfl⟩
  | channelDeleted id =>
      exact fun c' hc' => Or.inl ⟨c', (List.mem_filter.mp hc').1, rfl, rfl⟩
  | _ => exact fun c' hc' => Or.inl ⟨c', hc', rfl, rfl⟩

/-- What was read of a task still holds of its row. -/
structure Faithful (task : Notifications.TaskWithRelations) (attempts : ℕ) (s : Store) : Prop where
  drawn : task.task.id < s.nextId ∧ task.channel.id < s.nextId
  row : ∀ t ∈ s.tasks, t.id = task.task.id → t.channelId = task.channel.id ∧ attempts ≤ t.attempts
  channel : ∀ c ∈ s.channels, c.id = task.channel.id → c.type = task.channel.type

variable {task : Notifications.TaskWithRelations} {attempts : ℕ}

theorem Faithful.write (hf : Faithful task attempts s) (h : Write s effect s') :
    Faithful task (attempts + effect.claimed.count task.task.id) s' := by
  refine ⟨?_, fun t' ht' hid => ?_, fun c' hc' hid => ?_⟩
  · exact ⟨hf.drawn.1.trans_le h.nextId, hf.drawn.2.trans_le h.nextId⟩
  · rcases h.task_from t' ht' with ⟨t, ht, htid, htchannel, hattempts⟩ | ⟨hnew, -⟩
    · obtain ⟨hchannel, hle⟩ := hf.row t ht (htid.trans hid)
      rw [← htchannel, hattempts, hid]
      exact ⟨hchannel, Nat.add_le_add_right hle _⟩
    · exact absurd hf.drawn.1 (not_lt.mpr (hid ▸ hnew))
  · rcases h.channel_from c' hc' with ⟨c, hc, hcid, htype⟩ | hnew
    · rw [← htype]
      exact hf.channel c hc (hcid.trans hid)
    · exact absurd hf.drawn.2 (not_lt.mpr (hid ▸ hnew.ge))

theorem Faithful.mono {attempts' : ℕ} (hf : Faithful task attempts s) (hle : attempts' ≤ attempts) :
    Faithful task attempts' s :=
  ⟨hf.drawn, fun t ht hid => ⟨(hf.row t ht hid).1, hle.trans (hf.row t ht hid).2⟩, hf.channel⟩

theorem eq_of_find? {α : Type} {f : α → Id} {rows : List α} {id : Id} {a b : α}
    (hnodup : (rows.map f).Nodup) (ha : rows.find? (fun a => f a = id) = some a) (hb : b ∈ rows)
    (hid : f b = id) : b = a := by
  have hfa : f a = id := by simpa using List.find?_some ha
  exact List.inj_on_of_nodup_map hnodup hb (List.mem_of_find?_eq_some ha) (hid.trans hfa.symm)

theorem Integrity.faithful (hs : Integrity s) {id : Id}
    (h : Notifications.taskWithRelations? s id = some task) :
    Faithful task task.task.attempts s := by
  obtain ⟨hrow, hid, hchannelId, hchannel⟩ := taskWithRelations?_id h
  refine ⟨⟨?_, ?_⟩, fun t ht heq => ?_, fun c hc heq => ?_⟩
  · exact hs.tasks.below _ (List.mem_map_of_mem (List.mem_of_find?_eq_some hrow))
  · exact hs.channels.below _ (List.mem_map_of_mem (List.mem_of_find?_eq_some hchannel))
  · obtain rfl := eq_of_find? hs.tasks.nodup hrow ht (heq.trans hid)
    exact ⟨hchannelId, le_rfl⟩
  · rw [eq_of_find? hs.channels.nodup hchannel hc heq]

end Rows

section Runs

variable {config : Config} {allowed : ApiPool → ApiEvent → Prop} {P : ApiPool}

/-- The row counts the attempts of all calls. -/
structure Counted (claimed : List Id) (s : Store) : Prop where
  integrity : Integrity s
  drawn : ∀ id ∈ claimed, id < s.nextId
  attempts : ∀ t ∈ s.tasks, t.attempts = claimed.count t.id

theorem Write.claimed_mem {s s' : Store} {effect : Effect} (h : Write s effect s') :
    ∀ id ∈ effect.claimed, id ∈ s.tasks.map NotificationTask.id := by
  cases h with
  | taskUpdated id data hid =>
      intro id' hid'
      rw [List.eq_of_mem_replicate hid']
      exact hid
  | _ => exact fun id hid => nomatch hid

theorem Counted.write {claimed : List Id} {s s' : Store} {effect : Effect} (hc : Counted claimed s)
    (h : Write s effect s') : Counted (effect.claimed ++ claimed) s' := by
  refine ⟨h.integrity hc.integrity, fun id hid => ?_, fun t' ht' => ?_⟩
  · rcases List.mem_append.mp hid with hid | hid
    · exact (hc.integrity.tasks.below id (h.claimed_mem id hid)).trans_le h.nextId
    · exact (hc.drawn id hid).trans_le h.nextId
  · rw [List.count_append]
    rcases h.task_from t' ht' with ⟨t, ht, hid, -, hattempts⟩ | ⟨hnew, hzero, hnone⟩
    · rw [hattempts, hc.attempts t ht, hid, Nat.add_comm]
    · have habsent : t'.id ∉ claimed := fun hmem => absurd (hc.drawn _ hmem) (not_lt.mpr hnew)
      rw [hzero, hnone, List.count_eq_zero_of_not_mem habsent, List.count_nil]

theorem counted_of_run (hrun : (system config).Run allowed initial P) :
    Counted (P.collect claims) P.store.store := by
  refine hrun.collected claims (fun l w => Counted l w.store) ?_ ?_ ?_ fun l change => change.elim
  · exact ⟨Integrity.empty, (fun id hid => nomatch hid), fun t ht => nomatch ht⟩
  · rintro l l' w hperm ⟨hintegrity, hdrawn, hattempts⟩
    refine ⟨hintegrity, fun id hid => hdrawn id (hperm.mem_iff.mpr hid), fun t ht => ?_⟩
    rw [← hperm.count_eq]
    exact hattempts t ht
  · intro l choice op w hcounted
    exact hcounted.write (exec_write config.contains choice op w)

theorem lawful_of_run (hrun : (system config).Run allowed initial P) :
    ∀ c ∈ P.calls, Lawful PossibleAnswer (Attempting c.label) c.history := fun c hc =>
  (hrun.conforms rfl Attempting program_conforms
    (fun P _ choice _ op _ _ _ _ => exec_possible choice op P.store) c hc).1

theorem exec_find (contains : String → String → Bool) {c : Channels.Choice} {w : Channels.World}
    {id : Id} {found : Option Notifications.TaskWithRelations}
    (h : (exec contains c (.channel (.task (.findTaskWithRelations id))) w).1 = .ok found) :
    found = Notifications.taskWithRelations? w.store id ∧
      (exec contains c (.channel (.task (.findTaskWithRelations id))) w).2 = w := by
  simp only [exec, Channels.exec, Notifications.exec, Channels.World.on] at h ⊢
  rcases c.query_cases w.store (.ok (Notifications.taskWithRelations? w.store id), w.store) with
    ⟨error, -, heq⟩ | ⟨-, heq⟩ <;> rw [heq] at h ⊢
  · cases h
  · exact ⟨(Except.ok.inj h).symm, rfl⟩

/-- Whatever a call has read of a task. -/
def Trusted (h : History) (w : Channels.World) : Prop :=
  ∀ h', h' <:+ h → ∀ task attempts, known h' = some (task, attempts) →
    Faithful task attempts w.store

theorem trusted_of_run (hrun : (system config).Run allowed initial P) :
    ∀ c ∈ P.calls, Trusted c.history P.store := by
  apply hrun.histories Trusted rfl
  · intro w h' hsuffix task attempts hknown
    rw [List.suffix_nil.mp hsuffix] at hknown
    cases hknown
  · intro P h choice op hrun htrusted h' hsuffix task attempts hknown
    have hw := exec_write config.contains choice op P.store
    rcases List.suffix_cons_iff.mp hsuffix with rfl | hsuffix
    · rcases known_cons ⟨op, _⟩ h with heq | ⟨id, found, heq, hfound⟩
      · rw [heq] at hknown
        obtain ⟨⟨task', n⟩, hread, hclaim⟩ := Option.map_eq_some_iff.mp hknown
        obtain ⟨rfl, rfl⟩ := Prod.mk.inj hclaim
        exact (htrusted h List.suffix_rfl task' n hread).write hw
      · rw [hfound] at hknown
        obtain ⟨task', rfl, hread⟩ := Option.map_eq_some_iff.mp hknown
        obtain ⟨rfl, rfl⟩ := Prod.mk.inj hread
        obtain ⟨rfl, hanswer⟩ := Entry.mk.inj heq
        obtain ⟨hrelations, hstore⟩ := exec_find config.contains (eq_of_heq hanswer)
        have hfaithful := (integrity_of_run hrun).faithful hrelations.symm
        rw [← hstore] at hfaithful
        exact hfaithful
    · exact ((htrusted h' hsuffix task attempts hknown).write hw).mono (Nat.le_add_right _ _)
  · intro P h choice op _ htrusted h' hsuffix task attempts hknown
    have hw := exec_write config.contains choice op P.store
    exact ((htrusted h' hsuffix task attempts hknown).write hw).mono (Nat.le_add_right _ _)
  · exact fun h change => change.elim

theorem report_faithful (hrun : (system config).Run allowed initial P) {event : SseEvent}
    (hevent : event ∈ P.store.store.events) {report : Report}
    (hreport : reportOf event = some report) : ∃ task, Faithful task report.attempts P.store.store ∧
      report = ⟨task.task.id, task.channel.type, report.attempts⟩ ∧ 1 ≤ report.attempts := by
  obtain ⟨c, hc, hmem⟩ := List.mem_flatMap.mp ((events_of_run hrun).mem_iff.mp hevent)
  obtain ⟨e, he, hemitted⟩ := List.mem_flatMap.mp hmem
  have hreports : report ∈ reports e := List.mem_filterMap.mpr ⟨event, hemitted, hreport⟩
  obtain ⟨h', hsuffix, task, attempts, hknown, rfl, hle⟩ :=
    report_known (lawful_of_run hrun c hc) he hreports
  exact ⟨task, trusted_of_run hrun c hc h' hsuffix task attempts hknown, rfl, hle⟩

/-- The tasks that the events of an entry are about. -/
def reported (e : Entry Op Answer ApiError) : List Id := (reports e).map Report.taskId

theorem reported_le (hrun : (system config).Run allowed initial P) {c : RunningCall}
    (hc : c ∈ P.calls) (id : Id) :
    (c.history.flatMap reported).count id ≤ (c.history.flatMap claims).count id := by
  have hlawful := lawful_of_run hrun c hc
  have hmap : c.history.flatMap reported = (c.history.flatMap reports).map Report.taskId :=
    List.map_flatMap.symm
  rw [hmap]
  cases hrequest : c.label.task? with
  | none =>
      rw [(quiet_of_lawful hrequest hlawful).2]
      exact Nat.zero_le _
  | some taskId =>
      rcases (once_of_lawful hrequest hlawful).1 with
        ⟨-, hnone⟩ | ⟨hclaimed, hnone | ⟨r, hone, hid⟩⟩
      · rw [show c.history.flatMap reports = [] from hnone]
        exact Nat.zero_le _
      · rw [show c.history.flatMap reports = [] from hnone]
        exact Nat.zero_le _
      · rw [show c.history.flatMap reports = [r] from hone,
          show c.history.flatMap claims = [taskId] from hclaimed, List.map_singleton, hid]

end Runs

/-! ## The theorem -/

def about (id : Id) (event : SseEvent) : Bool := (reportOf event).any fun r => r.taskId = id

/-- The call attempts the task and has asked the platform. -/
def contacts (id : Id) (c : RunningCall) : Bool :=
  c.label.task? = some id && c.history.any fetches

/-- What the row of a task counts, and what the events tell of it. -/
structure Accounted (P : ApiPool) (t : NotificationTask) : Prop where
  claimed : t.attempts = (P.collect claims).count t.id
  contacted : P.calls.countP (contacts t.id) ≤ t.attempts
  reported : P.store.store.events.countP (about t.id) ≤ t.attempts
  truthful : ∀ event ∈ P.store.store.events, ∀ report, reportOf event = some report →
    report.taskId = t.id → 1 ≤ report.attempts ∧ report.attempts ≤ t.attempts ∧
      ∀ c ∈ P.store.store.channels, c.id = t.channelId → c.type = report.channelType

theorem countP_about (id : Id) (events : List SseEvent) :
    events.countP (about id) = ((events.filterMap reportOf).map Report.taskId).count id := by
  induction events with
  | nil => rfl
  | cons event events ih =>
      cases hreport : reportOf event with
      | none => simp [about, hreport, ih]
      | some report => simp [about, hreport, ih, List.count_cons, List.countP_cons]

/-- In every run of the API a row counts exactly the attempts that calls have
taken of its task.  No more calls have asked the platform and no more events
tell of an end, and an event tells an attempt that the row has reached, with
the type of its own channel. -/
theorem attempts_accounted {config : Config} {allowed : ApiPool → ApiEvent → Prop} {P : ApiPool}
    (hrun : (system config).Run allowed initial P) :
    ∀ t ∈ P.store.store.tasks, Accounted P t := by
  intro t ht
  have hattempts := (counted_of_run hrun).attempts t ht
  refine ⟨hattempts, ?_, ?_, ?_⟩
  · rw [hattempts]
    refine Pool.countP_le_count_collect _ fun c hc hcontacts => ?_
    obtain ⟨hrequest, hfetches⟩ := Bool.and_eq_true_iff.mp hcontacts
    have hclaimed := (once_of_lawful (of_decide_eq_true hrequest) (lawful_of_run hrun c hc)).2
      (List.any_eq_true.mp hfetches)
    rw [hclaimed]
    exact List.mem_singleton_self _
  · have hcollect : (P.collect reported).count t.id ≤ (P.collect claims).count t.id :=
      Pool.count_collect_le fun c hc => reported_le hrun hc t.id
    have hperm := ((events_of_run hrun).filterMap reportOf).map Report.taskId
    rw [Pool.filterMap_collect, Pool.map_collect] at hperm
    rw [countP_about, hperm.count_eq, hattempts]
    exact hcollect
  · intro event hevent report hreport hid
    obtain ⟨task, hfaithful, heq, hle⟩ := report_faithful hrun hevent hreport
    obtain ⟨hchannel, hreached⟩ := hfaithful.row t ht (by rw [heq] at hid; exact hid.symm)
    refine ⟨hle, hreached, fun c hc hcid => ?_⟩
    rw [heq]
    exact hfaithful.channel c hc (hcid.trans hchannel)

def samplePost : Telegram.IngestTelegramMessageDto where
  chatId := "-1001"
  messageId := ⟨7, by decide⟩
  content := some "text"
  date := Js.thousand
  sender := none

/-- A message comes in. -/
def ingestEvents : List ApiEvent :=
  .spawn (.ingest (some "key") samplePost) :: List.replicate 10 (.perform 2 calmChoice)

/-- Its task is processed. -/
def attemptEvents : List ApiEvent :=
  ingestEvents ++ .spawn (.channel (.processTask 3)) :: List.replicate 10 (.perform 3 calmChoice)

theorem attempts_accounted_sample :
    let P := (system sampleConfig).runList samplePool attemptEvents
    ∃ t ∈ P.store.store.tasks, t.attempts = 1 ∧ Accounted P t := by
  intro P
  have hrun : (system sampleConfig).Run (fun _ _ => True) initial P :=
    samplePool_run.list (by simp [Machine.AllowedList, attemptEvents, ingestEvents])
  have hattempts : P.store.store.tasks.map NotificationTask.attempts = [1] := by decide +kernel
  obtain ⟨t, ht, hone⟩ := List.mem_map.mp (hattempts ▸ List.mem_singleton_self 1)
  exact ⟨t, ht, hone, attempts_accounted hrun t ht⟩

end SocialMonitor.Backend

import SocialMonitor.Async.Later
import SocialMonitor.Backend.Outbox

/-!
# Jobs whose task is gone

A task goes with its message or its channel, but its job stays in the queue.
The worker still runs it.
-/

namespace SocialMonitor.Backend

open Async

def readTask (id : Id) (answer : Except ApiError (Option Notifications.TaskWithRelations)) :
    Entry Op Answer ApiError := ⟨.channel (.task (.findTaskWithRelations id)), answer⟩

/-- The first thing that an attempt does is to read its task, and it reports a
task that is not there. -/
def Ends (id : Id) (h : History) (r : Except ApiError Reply) : Prop :=
  ∃ answer, h.getLast? = some (readTask id answer) ∧
    (answer = .ok none → r = .error (Notifications.taskNotFound id))

/-- It does nothing else before it has found its task. -/
def Reads (id : Id) (h : History) (op : Op) : Prop :=
  h = [] ∧ op = .channel (.task (.findTaskWithRelations id)) ∨
    ∃ found, readTask id (.ok (some found)) ∈ h

section Calls

variable {config : Config} {id : Id}

/-- Once the task is found, nothing more is asked of a program. -/
theorem ends_of_found (found : Notifications.TaskWithRelations) (p : Api Reply) {h : History}
    (hlast : h.getLast? = some (readTask id (.ok (some found)))) :
    p.Conforms (fun _ _ => True) (Reads id) (Ends id) h := by
  induction p generalizing h with
  | ret a => exact ⟨_, hlast, by simp⟩
  | raise e => exact ⟨_, hlast, by simp⟩
  | call op next ih =>
      refine ⟨Or.inr ⟨found, List.mem_of_getLast? hlast⟩, ?_⟩
      rintro r h' ⟨-, rfl⟩
      refine ih r ?_
      rw [List.getLast?_cons, hlast]
      rfl

theorem processTask_ends : (program config (.channel (.processTask id))).Conforms
    (fun _ _ => True) (Reads id) (Ends id) [] := by
  refine ⟨Or.inl ⟨rfl, rfl⟩, fun r h hr => ?_⟩
  obtain ⟨-, rfl⟩ := hr
  rcases r with e | _ | task
  · exact ⟨_, rfl, by simp⟩
  · exact ⟨_, rfl, fun _ => rfl⟩
  · exact ends_of_found task _ rfl

/-- An error that the dispatch keeps to itself was met in the read. -/
theorem dispatch_ends : (program config (.channel (.dispatch id))).Conforms
    (fun _ _ => True) (Reads id) (Ends id) [] := by
  refine ⟨Or.inl ⟨rfl, rfl⟩, fun r h hr => ?_⟩
  obtain ⟨-, rfl⟩ := hr
  rcases r with e | _ | task
  · simp only [Except.map, Program.ofExcept, Program.bind, Program.handle]
    split_ifs <;> exact ⟨_, rfl, by simp⟩
  · exact ⟨_, rfl, fun _ => rfl⟩
  · exact ends_of_found task _ rfl

theorem program_ends (request : Request) : (program config request).Conforms
    (fun _ _ => True) (fun h op => ∀ id, request.task? = some id → Reads id h op)
      (fun h r => ∀ id, request.task? = some id → Ends id h r) [] := by
  cases hrequest : request.task? with
  | none =>
      refine (Program.obeys_trivial _ _).mono (fun h op _ id hid => ?_) fun h r _ id hid => ?_ <;>
        cases hid
  | some id =>
      have hends : (program config request).Conforms (fun _ _ => True) (Reads id) (Ends id) [] := by
        cases request with
        | channel request =>
            cases request with
            | processTask taskId =>
                obtain rfl := Option.some_inj.mp hrequest
                exact processTask_ends
            | dispatch taskId =>
                obtain rfl := Option.some_inj.mp hrequest
                exact dispatch_ends
            | _ => cases hrequest
        | _ => cases hrequest
      refine hends.mono (fun h op hreads id' hid => ?_) fun h r hend id' hid => ?_ <;>
        obtain rfl := Option.some_inj.mp hid
      · exact hreads
      · exact hend

end Calls

/-! ## Later calls -/

/-- The task was drawn, and its row is gone. -/
structure Vanished (id : Id) (s : Store) : Prop where
  drawn : id < s.nextId
  absent : ∀ t ∈ s.tasks, t.id ≠ id

theorem Vanished.write {id : Id} {s s' : Store} {effect : Effect} (hv : Vanished id s)
    (h : Write s effect s') : Vanished id s' := by
  refine ⟨hv.drawn.trans_le h.nextId, fun t' ht' hid => ?_⟩
  rcases h.task_from t' ht' with ⟨t, ht, htid, -⟩ | ⟨hnew, -⟩
  · exact hv.absent t ht (htid.trans hid)
  · exact absurd hv.drawn (not_lt.mpr (hid ▸ hnew))

theorem Vanished.relations? {id : Id} {s : Store} (hv : Vanished id s) :
    Notifications.taskWithRelations? s id = none := by
  have hnone : s.task? id = none :=
    List.find?_eq_none.mpr fun t ht => by simpa using hv.absent t ht
  rw [taskWithRelations?_eq, hnone]
  rfl

/-- A read of the task does not find it. -/
def Misses (id : Id) (e : Entry Op Answer ApiError) : Prop :=
  ∀ found, e = readTask id (.ok found) → found = none

/-- A call whose only operation is the read of its task, which it has not found. -/
structure Harmless (id : Id) (c : RunningCall) : Prop where
  reads : c.history = [] ∨ ∃ answer, c.history = [readTask id answer]
  unwritten : ∀ e ∈ c.history, ∀ taskId data, e.op ≠ .channel (.task (.updateTask taskId data))
  unsent : ∀ e ∈ c.history, fetches e = false
  silent : c.history.flatMap emitted = []
  ends : ∀ r, c.outcome? = some r → r = .error (Notifications.taskNotFound id) ∨
    ∃ error, readTask id (.error error) ∈ c.history

section Runs

variable {config : Config} {allowed : ApiPool → ApiEvent → Prop} {P₀ P : ApiPool} {id : Id}

theorem ends_of_run (hrun : (system config).Run allowed initial P) {c : RunningCall}
    (hc : c ∈ P.calls) (hid : c.label.task? = some id) :
    Lawful (fun _ _ => True) (fun h op => ∀ id, c.label.task? = some id → Reads id h op)
        c.history ∧
      ∀ r, c.outcome? = some r → Ends id c.history r := by
  obtain ⟨hlawful, hconforms⟩ := hrun.conforms rfl
    (fun request h op => ∀ id, request.task? = some id → Reads id h op) program_ends
    (fun _ _ _ _ _ _ _ _ _ => trivial) c hc
  refine ⟨hlawful, fun r hr => ?_⟩
  rw [Call.outcome?_eq_some.mp hr] at hconforms
  exact hconforms.ended id hid

theorem vanished_later (hrun : (system config).Run allowed P₀ P)
    (hinit : Vanished id P₀.store.store) : Vanished id P.store.store ∧
      ∀ c ∈ P.since P₀, ∀ e ∈ c.history, Misses id e := by
  refine hrun.later (fun w => Vanished id w.store) (Misses id) hinit ?_ ?_ fun change => change.elim
  · exact fun choice op w h => h.write (exec_write config.contains choice op w)
  · intro choice op w h found heq
    obtain ⟨rfl, hanswer⟩ := Entry.mk.inj heq
    rw [(exec_find config.contains (eq_of_heq hanswer)).1, h.relations?]

/-- Without its task an attempt stays at its beginning. -/
theorem reads_only {before : History → Op → Prop} {h : History}
    (hh : Lawful (fun _ _ => True) before h) (hbefore : ∀ h op, before h op → Reads id h op)
    (hmisses : ∀ e ∈ h, Misses id e) : h = [] ∨ ∃ answer, h = [readTask id answer] := by
  cases hh with
  | nil => exact Or.inl rfl
  | @cons h op r _ hop _ =>
      rcases hbefore h op hop with ⟨rfl, rfl⟩ | ⟨found, hfound⟩
      · exact Or.inr ⟨r, rfl⟩
      · have hmiss := hmisses _ (List.mem_cons_of_mem _ hfound) (some found) rfl
        cases hmiss

end Runs

/-! ## The theorem -/

/-- However the calls interleave: a task that is gone when its job is still
queued never comes back, and whoever attempts it later writes nothing, asks no
platform and emits nothing, and learns that it is not there. -/
theorem orphan_harmless {config : Config} {allowed : ApiPool → ApiEvent → Prop} {P₀ P : ApiPool}
    (hrun₀ : (system config).Run allowed initial P₀) (hrun : (system config).Run allowed P₀ P)
    {job : Job} (hjob : job ∈ P₀.store.store.jobs)
    (habsent : ∀ t ∈ P₀.store.store.tasks, t.id ≠ job.taskId) :
    (∀ t ∈ P.store.store.tasks, t.id ≠ job.taskId) ∧
      ∀ c ∈ P.since P₀, c.label.task? = some job.taskId → Harmless job.taskId c := by
  obtain ⟨hvanished, hmisses⟩ := vanished_later hrun ⟨(job_vouched hrun₀ hjob).1, habsent⟩
  refine ⟨hvanished.absent, fun c hc hrequest => ?_⟩
  have hmem : c ∈ P.calls := List.mem_of_mem_drop hc
  have hrun := hrun₀.trans hrun
  obtain ⟨hlawful, hends⟩ := ends_of_run hrun hmem hrequest
  have hreads := reads_only hlawful (fun h op hbefore => hbefore _ hrequest) (hmisses c hc)
  have hentries : ∀ e ∈ c.history, ∃ answer, e = readTask job.taskId answer := by
    intro e he
    rcases hreads with hnil | ⟨answer, hsingle⟩
    · exact absurd (hnil ▸ he) List.not_mem_nil
    · exact ⟨answer, List.mem_singleton.mp (hsingle ▸ he)⟩
  refine ⟨hreads, ?_, ?_, ?_, fun r hr => ?_⟩
  · rintro e he taskId data
    obtain ⟨answer, rfl⟩ := hentries e he
    simp [readTask]
  · intro e he
    obtain ⟨answer, rfl⟩ := hentries e he
    rfl
  · refine List.flatMap_eq_nil_iff.mpr fun e he => ?_
    obtain ⟨answer, rfl⟩ := hentries e he
    cases answer <;> rfl
  · obtain ⟨answer, hlast, hend⟩ := hends r hr
    have hread := List.mem_of_getLast? hlast
    cases answer with
    | error error => exact Or.inr ⟨error, hread⟩
    | ok found =>
        rw [hmisses c hc _ hread found rfl] at hend
        exact Or.inl (hend rfl)

/-- The channel of the task is removed. -/
def orphanEvents : List ApiEvent :=
  ingestEvents ++ .spawn (.removeChannel 1) :: List.replicate 2 (.perform 3 calmChoice)

theorem orphan_harmless_sample :
    let P₀ := (system sampleConfig).runList samplePool orphanEvents
    let P := (system sampleConfig).runList P₀
      (.spawn (.channel (.processTask 3)) :: List.replicate 3 (.perform 4 calmChoice))
    ∃ c ∈ P.since P₀, Harmless 3 c := by
  intro P₀ P
  have hrun₀ : (system sampleConfig).Run (fun _ _ => True) initial P₀ :=
    samplePool_run.list (by simp [Machine.AllowedList, orphanEvents, ingestEvents])
  have hrun : (system sampleConfig).Run (fun _ _ => True) P₀ P :=
    Machine.Run.refl.list (by simp [Machine.AllowedList])
  have hjob : ⟨"notification-qq", 3, 5⟩ ∈ P₀.store.store.jobs := by decide +kernel
  have habsent : ∀ t ∈ P₀.store.store.tasks, t.id ≠ 3 := by decide +kernel
  have hlabels : (P.since P₀).map (fun c => c.label.task?) = [some 3] := by decide +kernel
  obtain ⟨c, hc, hlabel⟩ := List.mem_map.mp (hlabels ▸ List.mem_singleton_self (some 3))
  exact ⟨c, hc, (orphan_harmless hrun₀ hrun hjob habsent).2 c hc hlabel⟩

end SocialMonitor.Backend

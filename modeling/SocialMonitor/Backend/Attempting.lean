import SocialMonitor.Async.Trace
import SocialMonitor.Backend.Events
import SocialMonitor.Backend.Integrity
import SocialMonitor.Messages.Routing

/-!
# The calls that attempt a task

An attempt reads the row, takes the attempt, asks the platform and reports the
end.  No other call takes or reports an attempt.
-/

namespace SocialMonitor.Backend

open Async

/-! ## What a call has read -/

def fetches : Entry Op Answer ApiError → Bool
  | ⟨.channel (.fetch _), _⟩ => true
  | _ => false

/-- The task that a call has read, and what its attempts have reached since. -/
abbrev Reading := Option (Notifications.TaskWithRelations × ℕ)

def Reading.claim (reading : Reading) (claimed : List Id) : Reading :=
  reading.map fun p => (p.1, p.2 + claimed.count p.1.task.id)

def readingOf (found : Option Notifications.TaskWithRelations) : Reading :=
  found.map fun task => (task, task.task.attempts)

def known : History → Reading
  | [] => none
  | ⟨.channel (.task (.findTaskWithRelations _)), .ok found⟩ :: _ => readingOf found
  | e :: h => (known h).claim (claims e)

theorem known_cons (e : Entry Op Answer ApiError) (h : History) :
    known (e :: h) = (known h).claim (claims e) ∨
      ∃ id found, e = ⟨.channel (.task (.findTaskWithRelations id)), .ok found⟩ ∧
        known (e :: h) = readingOf found := by
  by_cases hfind : ∃ id found,
      e = ⟨.channel (.task (.findTaskWithRelations id)), .ok found⟩
  · obtain ⟨id, found, rfl⟩ := hfind
    exact Or.inr ⟨id, found, rfl, rfl⟩
  · exact Or.inl (known.eq_3 e h fun id found heq => hfind ⟨id, found, heq⟩)

/-! ## The order of an attempt -/

/-- How far a call has come. -/
structure Progress where
  reading : Reading
  claimed : List Id
  reported : List Report

def Progress.of (h : History) : Progress := ⟨known h, h.flatMap claims, h.flatMap reports⟩

def Progress.note (p : Progress) :
    (op : Notifications.Op) → Except ApiError (Notifications.Answer op) → Progress
  | .findTaskWithRelations _, .ok found => { p with reading := readingOf found }
  | .updateTask id data, .ok _ =>
      { p with
        reading := p.reading.claim (List.replicate data.attemptsIncrement id)
        claimed := List.replicate data.attemptsIncrement id ++ p.claimed }
  | .emit event, _ => { p with reported := (reportOf event).toList ++ p.reported }
  | _, _ => p

/-- A task is found under its own identifier, and the event stream takes every event. -/
def Possible : (op : Notifications.Op) → Except ApiError (Notifications.Answer op) → Prop
  | .findTaskWithRelations id, .ok (some task) => task.task.id = id
  | .emit _, .error _ => False
  | _, _ => True

/-- The row is read, then the attempt is taken, then the platform is asked and
the end is reported. -/
def InOrder (id : Id) (p : Progress) : Notifications.Op → Prop
  | .findTaskWithRelations id' => id' = id
  | .updateTask id' data => id' = id ∧ p.reading ≠ none ∧
      (data.attemptsIncrement = 0 ∨ p.claimed = [] ∧ data.attemptsIncrement = 1)
  | .startSend _ _ _ => p.claimed = [id]
  | .emit event => p.claimed = [id] ∧ p.reported = [] ∧ ∃ task attempts,
      p.reading = some (task, attempts) ∧ reportOf event = some ⟨id, task.channel.type, attempts⟩ ∧
        task.task.id = id ∧ 1 ≤ attempts
  | _ => True

/-- The steps of the operations on the progress of a call. -/
abbrev Notes (op : Notifications.Op) (p : Progress)
    (r : Except ApiError (Notifications.Answer op)) (p' : Progress) : Prop :=
  Possible op r ∧ p' = p.note op r

section Attempt

variable {id : Id} {p : Progress} {task : Notifications.TaskWithRelations}

/-- The attempt is taken, and its end is not yet reported. -/
structure Taken (id : Id) (task : Notifications.TaskWithRelations) (p : Progress) : Prop where
  claimed : p.claimed = [id]
  reported : p.reported = []
  reading : p.reading = some (task, task.task.attempts + 1)
  taskId : task.task.id = id

theorem Taken.read (h : Taken id task p) : p.reading ≠ none := by
  rw [h.reading]
  exact Option.some_ne_none _

theorem Taken.emit (h : Taken id task p) {event : SseEvent}
    (hevent : reportOf event = some ⟨id, task.channel.type, task.task.attempts + 1⟩) :
    InOrder id p (.emit event) :=
  ⟨h.claimed, h.reported, task, _, h.reading, hevent, h.taskId, Nat.le_add_left 1 _⟩

theorem Taken.update (h : Taken id task p) (data : Notifications.TaskUpdate)
    (hdata : data.attemptsIncrement = 0) (r : Except ApiError Unit) :
    Taken id task (p.note (.updateTask id data) r) := by
  cases r with
  | error e => exact h
  | ok _ =>
      refine ⟨?_, h.reported, ?_, h.taskId⟩
      · simpa [Progress.note, hdata] using h.claimed
      · simpa [Progress.note, hdata, Reading.claim] using h.reading

theorem failed_inOrder (h : Taken id task p) (error : ApiError) :
    Program.Obeys Notes (InOrder id) (fun _ _ => True) (do
      Notifications.updateTask id (Notifications.setFailed error.message)
      Notifications.emit (.notificationFailed id task.channel.type (task.task.attempts + 1)
        error.message)
      throw error : Notifications.Api Unit) p := by
  refine ⟨⟨rfl, h.read, Or.inl rfl⟩, ?_⟩
  rintro r p' ⟨-, rfl⟩
  have hupdated := h.update (Notifications.setFailed error.message) rfl r
  cases r with
  | error e => exact trivial
  | ok _ => exact ⟨hupdated.emit rfl, fun r p' _ => by cases r <;> exact trivial⟩

/-- The guarded part: until it has reported the end, its failure can be reported. -/
theorem sending_inOrder (h : Taken id task p) :
    Program.Obeys Notes (InOrder id) (Program.Orfail (fun p _ => Taken id task p) fun _ _ => True)
      (do
        let provider ← Notifications.factoryGet task.channel.type
        Notifications.send provider task.channel.config (Notifications.buildPayload task)
        Notifications.updateTask id (Notifications.setSent (← Notifications.now))
        Notifications.emit
          (.notificationSent id task.channel.type (task.task.attempts + 1)) :
          Notifications.Api Unit)
      p := by
  rw [Notifications.factoryGet_eq]
  refine ⟨h.claimed, ?_⟩
  rintro (e | _) p ⟨-, rfl⟩
  · exact h
  refine ⟨trivial, ?_⟩
  rintro (e | _) p ⟨-, rfl⟩
  · exact h
  refine ⟨trivial, ?_⟩
  rintro (e | sentAt) p ⟨-, rfl⟩
  · exact h
  refine ⟨⟨rfl, h.read, Or.inl rfl⟩, ?_⟩
  rintro r p ⟨-, rfl⟩
  have hsent := h.update (Notifications.setSent sentAt) rfl r
  cases r with
  | error e => exact hsent
  | ok _ =>
      refine ⟨hsent.emit rfl, ?_⟩
      rintro (e | _) p ⟨hpossible, -⟩
      · exact hpossible.elim
      · exact trivial

theorem processTask_inOrder (id : Id) :
    (Notifications.processTask id).Obeys Notes (InOrder id) (fun _ _ => True) ⟨none, [], []⟩ := by
  refine ⟨rfl, ?_⟩
  rintro (e | _ | task) p ⟨hfound, rfl⟩
  · exact trivial
  · exact trivial
  refine ⟨⟨rfl, Option.some_ne_none _, Or.inr ⟨rfl, rfl⟩⟩, ?_⟩
  rintro (e | _) p ⟨-, rfl⟩
  · exact trivial
  have htaken : Taken id task (Progress.note (Progress.note ⟨none, [], []⟩
      (.findTaskWithRelations id) (.ok (some task)))
      (.updateTask id Notifications.setProcessing) (.ok ())) := by
    obtain rfl : task.task.id = id := hfound
    refine ⟨rfl, rfl, ?_, rfl⟩
    simp [Progress.note, readingOf, Reading.claim, Notifications.setProcessing]
  generalize Progress.note (Progress.note _ _ _) _ _ = p at htaken
  apply Program.Obeys.handle (fun p _ => Taken id task p)
  · exact sending_inOrder htaken
  · exact fun p error h => failed_inOrder h error

theorem dispatch_inOrder (id : Id) :
    (Notifications.dispatch id).Obeys Notes (InOrder id) (fun _ _ => True) ⟨none, [], []⟩ := by
  apply Program.Obeys.handle (fun _ _ => True)
  · refine (processTask_inOrder id).mono (fun _ _ h => h) fun p r _ => ?_
    cases r <;> exact trivial
  · intro p error _
    split_ifs <;> exact trivial

end Attempt

/-! ## The calls of the API -/

def Progress.noteChannel (p : Progress) :
    (op : Channels.Op) → Except ApiError (Channels.Answer op) → Progress
  | .task op, r => p.note op r
  | _, _ => p

def PossibleAnswer : (op : Op) → Except ApiError (Answer op) → Prop
  | .message op, r => Messages.Possible op r
  | .channel (.task op), r => Possible op r
  | _, _ => True

def InOrderChannel (id : Id) (p : Progress) : Channels.Op → Prop
  | .task op => InOrder id p op
  | .fetch _ => p.claimed = [id]
  | _ => True

/-- What a call of the API may await next. -/
def Attempting (request : Request) (h : History) (op : Op) : Prop :=
  match request.task?, op with
  | some id, .channel op => InOrderChannel id (Progress.of h) op
  | some _, _ => False
  | none, op => op.Emits (fun event => reportOf event = none) False True

abbrev NotesChannel (op : Channels.Op) (p : Progress)
    (r : Except ApiError (Channels.Answer op)) (p' : Progress) : Prop :=
  PossibleAnswer (.channel op) r ∧ p' = p.noteChannel op r

section Calls

variable {config : Config} {id : Id}

@[simp] theorem Reading.claim_nil (reading : Reading) : reading.claim [] = reading := by
  cases reading <;> rfl

theorem progress_of_quiet {e : Entry Op Answer ApiError} {h : History}
    (hknown : known (e :: h) = (known h).claim (claims e)) (heffect : effectOf e = .none) :
    Progress.of (e :: h) = Progress.of h := by
  simp [Progress.of, hknown, claims, reports, emitted, heffect]

theorem progress_cons (op : Channels.Op) (r : Except ApiError (Channels.Answer op)) (h : History) :
    Progress.of (⟨.channel op, r⟩ :: h) = (Progress.of h).noteChannel op r := by
  cases op with
  | task op =>
      cases op with
      | findTaskWithRelations id =>
          cases r with
          | error e => exact progress_of_quiet rfl rfl
          | ok found => rfl
      | updateTask id data =>
          cases r with
          | error e => exact progress_of_quiet rfl rfl
          | ok _ => rfl
      | emit event =>
          have hknown : known (⟨.channel (.task (.emit event)), r⟩ :: h) = known h :=
            Reading.claim_nil _
          cases hreport : reportOf event <;>
            simp [Progress.noteChannel, Progress.note, Progress.of, hknown, claims, emitted,
              effectOf, reports, hreport]
      | _ => exact progress_of_quiet rfl rfl
  | _ => exact progress_of_quiet rfl rfl

theorem perform_inOrder (op : Notifications.Op) (p : Progress) (hbefore : InOrder id p op) :
    (Channels.perform config.qq op).Obeys NotesChannel (InOrderChannel id)
      (fun p' r => Notes op p r p') p := by
  cases op with
  | startSend provider settings payload =>
      have hplain : (Channels.sendBy config.qq provider settings payload).Awaits Channels.Plain :=
        Channels.sendBy_plain provider settings payload
      refine hplain.obeys_kept ?_ ?_ fun r => ⟨trivial, ?_⟩
      · intro op hop
        cases op with
        | fetch request => exact hbefore
        | task op => exact hop.elim
        | _ => exact trivial
      · rintro op r p' hop ⟨-, rfl⟩
        cases op with
        | task op => exact hop.elim
        | _ => rfl
      · cases r <;> rfl
  | finishSend => exact ⟨trivial, rfl⟩
  | _ => exact ⟨hbefore, fun r p' h => by cases r <;> exact h⟩

/-- An attempt, as a call of the API. -/
theorem attempt_conforms {p : Notifications.Api Unit}
    (hp : p.Obeys Notes (InOrder id) (fun _ _ => True) ⟨none, [], []⟩) {request : Request}
    (hrequest : request.task? = some id) :
    ((ofChannels ((p.interp (Channels.perform config.qq)).bind fun _ =>
      .ret Channels.Reply.processed)).bind fun a => .ret (Reply.channel a)).Conforms PossibleAnswer
        (Attempting request) (fun _ _ => True) [] := by
  have hinterp : (p.interp (Channels.perform config.qq)).Obeys NotesChannel (InOrderChannel id)
      (fun _ _ => True) (Progress.of []) :=
    Program.Obeys.interp (fun p => p) hp (fun op p => perform_inOrder op p) fun _ _ h => h
  have hchannel : ((p.interp (Channels.perform config.qq)).bind fun _ =>
      .ret Channels.Reply.processed).Obeys NotesChannel (InOrderChannel id) (fun _ _ => True)
        (Progress.of []) := by
    refine Program.Obeys.bind (fun _ _ => True) ?_ fun _ _ _ => trivial
    exact hinterp.mono (fun _ _ h => h) fun p r _ => by cases r <;> exact trivial
  have hwithin : (ofChannels ((p.interp (Channels.perform config.qq)).bind fun _ =>
      .ret Channels.Reply.processed)).Conforms PossibleAnswer (Attempting request)
        (fun _ _ => True) [] := by
    refine hchannel.within Progress.of ?_ ?_ fun _ _ h => h
    · rintro op h r h' ⟨hpossible, rfl⟩
      rw [Program.map_answer]
      exact ⟨hpossible, progress_cons op r h⟩
    · intro h op hbefore
      simp only [Attempting, hrequest]
      exact hbefore
  refine Program.Obeys.bind (fun _ _ => True) ?_ fun _ _ _ => trivial
  exact hwithin.mono (fun _ _ h => h) fun h r _ => by cases r <;> exact trivial

theorem program_conforms (request : Request) : (program config request).Conforms PossibleAnswer
    (Attempting request) (fun _ _ => True) [] := by
  cases hrequest : request.task? with
  | none =>
      have hawaits : (program config request).Awaits
          (Op.Emits (fun event => reportOf event = none) False True) :=
        program_emits (fun _ _ _ => ⟨trivial, fun _ _ _ => rfl⟩) (fun _ _ _ => rfl) hrequest
      refine hawaits.obeys (fun h op hop => ?_) []
      simp only [Attempting, hrequest]
      exact hop
  | some id =>
      cases request with
      | channel request =>
          cases request with
          | processTask taskId => exact attempt_conforms (processTask_inOrder taskId) rfl
          | dispatch taskId => exact attempt_conforms (dispatch_inOrder taskId) rfl
          | _ => cases hrequest
      | _ => cases hrequest

theorem taskWithRelations?_id {s : Store} {task : Notifications.TaskWithRelations}
    (h : Notifications.taskWithRelations? s id = some task) :
    s.task? id = some task.task ∧ task.task.id = id ∧ task.task.channelId = task.channel.id ∧
      s.channel? task.channel.id = some task.channel := by
  simp only [Notifications.taskWithRelations?, Option.bind_eq_bind, Option.bind_eq_some_iff] at h
  obtain ⟨row, hrow, message, -, target, -, channel, hchannel, heq⟩ := h
  obtain rfl := Option.some_inj.mp heq
  have hid : channel.id = row.channelId := by simpa using List.find?_some hchannel
  refine ⟨hrow, by simpa using List.find?_some hrow, hid.symm, ?_⟩
  rw [hid]
  exact hchannel

theorem exec_possible (c : Channels.Choice) (op : Op) (w : Channels.World) :
    PossibleAnswer op (exec config.contains c op w).1 := by
  cases op with
  | message op => exact (Messages.exec_effect c.toChoice op w.store).possible
  | channel op =>
      cases op with
      | task op =>
          cases op with
          | findTaskWithRelations id =>
              rcases c.query_cases w.store (.ok (Notifications.taskWithRelations? w.store id),
                w.store) with ⟨error, -, heq⟩ | ⟨-, heq⟩ <;>
                simp only [PossibleAnswer, exec, Channels.exec, Notifications.exec,
                  Channels.World.on, heq]
              · exact trivial
              · cases hfind : Notifications.taskWithRelations? w.store id with
                | none => exact trivial
                | some task => exact (taskWithRelations?_id hfind).2.1
          | emit event => exact trivial
          | _ => exact trivial
      | _ => exact trivial
  | _ => exact trivial

end Calls

/-! ## Histories -/

section Histories

variable {request : Request} {h : History}

/-- A call takes its attempt at most once, and reports its end at most once and
only then. -/
def Progress.Once (id : Id) (p : Progress) : Prop :=
  p.claimed = [] ∧ p.reported = [] ∨
    p.claimed = [id] ∧ (p.reported = [] ∨ ∃ report, p.reported = [report] ∧ report.taskId = id)

theorem Progress.Once.note {id : Id} {p : Progress} (hp : p.Once id) {op : Channels.Op}
    (hbefore : InOrderChannel id p op) (r : Except ApiError (Channels.Answer op)) :
    (p.noteChannel op r).Once id ∧
      (p.claimed = [id] → (p.noteChannel op r).claimed = [id]) := by
  cases op with
  | task op =>
      cases op with
      | findTaskWithRelations id' => cases r <;> exact ⟨hp, fun h => h⟩
      | updateTask id' data =>
          cases r with
          | error e => exact ⟨hp, fun h => h⟩
          | ok _ =>
              obtain ⟨rfl, -, hzero | ⟨hnone, hone⟩⟩ := hbefore
              · have hsame : (p.noteChannel (.task (.updateTask id' data)) (.ok ())).claimed =
                    p.claimed := by
                  simp [Progress.noteChannel, Progress.note, hzero]
                refine ⟨?_, hsame.trans⟩
                unfold Progress.Once
                rw [hsame]
                exact hp
              · obtain ⟨-, hreported⟩ | ⟨hclaimed, -⟩ := hp
                · refine ⟨Or.inr ⟨?_, Or.inl hreported⟩, fun h => ?_⟩
                  · simp [Progress.noteChannel, Progress.note, hone, hnone]
                  · simp [hnone] at h
                · simp [hnone] at hclaimed
      | emit event =>
          obtain ⟨hclaimed, hreported, task, attempts, -, hreport, -⟩ := hbefore
          refine ⟨Or.inr ⟨hclaimed, Or.inr ⟨⟨id, task.channel.type, attempts⟩, ?_, rfl⟩⟩,
            fun h => h⟩
          simp [Progress.noteChannel, Progress.note, hreported, hreport]
      | _ => exact ⟨hp, fun h => h⟩
  | _ => exact ⟨hp, fun h => h⟩

theorem effect_of_emits {op : Op} (hop : op.Emits (fun event => reportOf event = none) False True)
    (r : Except ApiError (Answer op)) : claims ⟨op, r⟩ = [] ∧ reports ⟨op, r⟩ = [] := by
  have hevent : ∀ event : SseEvent, reportOf event = none → [event].filterMap reportOf = [] := by
    intro event hnone
    simp [hnone]
  cases op with
  | message op =>
      cases op with
      | emit event => exact ⟨rfl, hevent event hop.2⟩
      | enqueueTask taskId type => cases r <;> exact ⟨rfl, rfl⟩
      | createNotificationTasks messageId channelIds => cases r <;> exact ⟨rfl, rfl⟩
      | _ => exact ⟨rfl, rfl⟩
  | monitor op =>
      cases op with
      | emit event => exact ⟨rfl, hevent event hop⟩
      | _ => exact ⟨rfl, rfl⟩
  | channel op =>
      cases op with
      | task op =>
          cases op with
          | updateTask id data => exact hop.elim
          | emit event => exact ⟨rfl, hevent event hop⟩
          | _ => exact ⟨rfl, rfl⟩
      | _ => exact ⟨rfl, rfl⟩
  | _ => exact ⟨rfl, rfl⟩

theorem quiet_of_lawful (hrequest : request.task? = none)
    (hh : Lawful PossibleAnswer (Attempting request) h) :
    h.flatMap claims = [] ∧ h.flatMap reports = [] := by
  induction hh with
  | nil => exact ⟨rfl, rfl⟩
  | @cons h op r _ hbefore _ ih =>
      simp only [Attempting, hrequest] at hbefore
      obtain ⟨hclaims, hreports⟩ := effect_of_emits hbefore r
      rw [List.flatMap_cons, List.flatMap_cons, hclaims, hreports]
      exact ih

/-- The history of an attempt, and that the platform is asked after it is taken. -/
theorem once_of_lawful {id : Id} (hrequest : request.task? = some id)
    (hh : Lawful PossibleAnswer (Attempting request) h) : (Progress.of h).Once id ∧
      ((∃ e ∈ h, fetches e = true) → h.flatMap claims = [id]) := by
  induction hh with
  | nil => exact ⟨Or.inl ⟨rfl, rfl⟩, fun ⟨e, he, _⟩ => nomatch he⟩
  | @cons h op r _ hbefore _ ih =>
      simp only [Attempting, hrequest] at hbefore
      cases op with
      | channel op =>
          obtain ⟨honce, hkept⟩ := ih.1.note hbefore r
          rw [← progress_cons] at honce hkept
          refine ⟨honce, ?_⟩
          rintro ⟨e, he, hfetches⟩
          rcases List.mem_cons.mp he with rfl | he
          · cases op with
            | fetch request => exact hkept hbefore
            | _ => cases hfetches
          · exact hkept (ih.2 ⟨e, he, hfetches⟩)
      | _ => exact hbefore.elim

/-- What an event tells was read by the call that emitted it. -/
theorem report_known (hh : Lawful PossibleAnswer (Attempting request) h)
    {e : Entry Op Answer ApiError} (he : e ∈ h) {report : Report} (hreport : report ∈ reports e) :
    ∃ h', h' <:+ h ∧ ∃ task attempts, known h' = some (task, attempts) ∧
      report = ⟨task.task.id, task.channel.type, attempts⟩ ∧ 1 ≤ attempts := by
  obtain ⟨h', hsuffix, hbefore⟩ := hh.admitted he
  obtain ⟨op, r⟩ := e
  cases hrequest : request.task? with
  | none =>
      simp only [Attempting, hrequest] at hbefore
      rw [(effect_of_emits hbefore r).2] at hreport
      cases hreport
  | some id =>
      simp only [Attempting, hrequest] at hbefore
      cases op with
      | channel op =>
          cases op with
          | task op =>
              cases op with
              | emit event =>
                  obtain ⟨-, -, task, attempts, hknown, hevent, rfl, hle⟩ := hbefore
                  refine ⟨h', hsuffix, task, attempts, hknown, ?_, hle⟩
                  simpa [reports, emitted, effectOf, hevent] using hreport
              | updateTask id data => cases r <;> cases hreport
              | _ => cases hreport
          | _ => cases hreport
      | _ => exact hbefore.elim

end Histories

end SocialMonitor.Backend

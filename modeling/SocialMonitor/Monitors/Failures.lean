import SocialMonitor.Monitors.Calls

/-!
# How calls of the monitor service fail

A call looks before it writes.  What it finds at the look is refused as a
conflict or as not found; what it meets at the write is an error of the
database client.
-/

namespace SocialMonitor.Monitors

open Async

/-- The entry of a history of a call. -/
abbrev MonitorEntry := Entry Op Answer ApiError

/-- Another row has the key of this one. -/
def taken (s : Store) (row : MonitorTarget) : Bool :=
  s.targets.any fun t => t.id ≠ row.id && t.type = row.type && t.externalId = row.externalId

/-- The error that an operation ought to end its call with in a store: the row
of the id is missing, or the key is that of another row. -/
def refusal (s : Store) : Op → Option ApiError
  | .findUnique id => if (s.target? id).isNone then some (notFound id) else none
  | .findUniqueByTypeExternalId type externalId =>
      if (targetByKey? s type externalId).isSome then some monitorExists else none
  | .create data =>
      if (targetByKey? s data.type data.externalId).isSome then some monitorExists else none
  | .update id data =>
      match s.target? id with
      | none => some (notFound id)
      | some t => if (updatedRow data t).toOption.any (taken s) then some monitorExists else none
  | .delete id => if (s.target? id).isNone then some (notFound id) else none
  | .emit _ => none

def IsWrite : Op → Prop
  | .create _ => True
  | .update _ _ => True
  | .delete _ => True
  | _ => False

instance (op : Op) : Decidable (IsWrite op) :=
  match op with
  | .create _ => .isTrue trivial
  | .update _ _ => .isTrue trivial
  | .delete _ => .isTrue trivial
  | .findUnique _ => .isFalse id
  | .findUniqueByTypeExternalId _ _ => .isFalse id
  | .emit _ => .isFalse id

/-- The step that the call at `index` takes. -/
abbrev after (P : MonitorPool) (index : ℕ) (choice : Choice) : MonitorPool :=
  system.step P (.perform index choice)

/-- Where the next operation of the call is to be refused, the call has failed
so when it was awaited. -/
def FailsCleanly (P : MonitorPool) (index : ℕ) (choice : Choice) : Prop :=
  ∀ op ∈ P.awaited? index, choice.fault = none → ∀ e ∈ refusal P.store op,
    ∃ c, (after P index choice).calls[index]? = some c ∧ c.Raised e

/-- The next operation of the call is a write that the database refuses. -/
def RefusedWrite (P : MonitorPool) (index : ℕ) (choice : Choice) : Prop :=
  choice.fault = none ∧ ∃ op ∈ P.awaited? index, IsWrite op ∧ (refusal P.store op).isSome = true

instance (P : MonitorPool) (index : ℕ) (choice : Choice) :
    Decidable (RefusedWrite P index choice) :=
  inferInstanceAs (Decidable (choice.fault = none ∧ ∃ op ∈ P.awaited? index, IsWrite op ∧
    (refusal P.store op).isSome = true))

/-- The write that is next meets no conflict, and the database answers with the
errors of a conflict at nothing else. -/
def Unrefused (P : MonitorPool) : MonitorEvent → Prop
  | .perform index choice => ¬ RefusedWrite P index choice ∧
      choice.fault ≠ some uniqueViolation ∧ choice.fault ≠ some recordNotFound
  | _ => True

instance (P : MonitorPool) (e : MonitorEvent) : Decidable (Unrefused P e) :=
  match e with
  | .perform index choice => inferInstanceAs (Decidable (¬ RefusedWrite P index choice ∧
      choice.fault ≠ some uniqueViolation ∧ choice.fault ≠ some recordNotFound))
  | .spawn _ => .isTrue trivial
  | .env _ => .isTrue trivial

/-! ## What an operation is answered -/

def ChangesStore : Op → Prop
  | .emit _ => True
  | op => IsWrite op

/-- The operation has changed the store. -/
def Effective (entry : MonitorEntry) : Prop := ChangesStore entry.op ∧ entry.answer.isOk = true

/-- The error that a value found ends the call with. -/
def refused : (op : Op) → Answer op → Option ApiError
  | .findUnique id, none => some (notFound id)
  | .findUniqueByTypeExternalId _ _, some _ => some monitorExists
  | _, _ => none

/-- The error that an answer ends the call with. -/
def ending (entry : MonitorEntry) : Option ApiError :=
  match entry.answer with
  | .error e => some e
  | .ok a => refused entry.op a

/-- An event is always emitted. -/
def Possible : (op : Op) → Except ApiError (Answer op) → Prop
  | .emit _, r => r = .ok ()
  | _, _ => True

theorem exec_possible (c : Choice) (op : Op) (s : Store) : Possible op (exec c op s).1 := by
  cases op with
  | emit event => exact rfl
  | _ => exact trivial

theorem query_unchanged {α : Type} {c : Choice} {s : Store} {applied : Except ApiError α × Store}
    (happlied : ∀ e, applied.1 = .error e → applied.2 = s) {e : ApiError}
    (h : (c.query s applied).1 = .error e) : (c.query s applied).2 = s := by
  rcases c.query_cases s applied with ⟨e', -, heq⟩ | ⟨-, heq⟩ <;> rw [heq] at h ⊢
  exact happlied e h

theorem createTarget_error {data : MonitorData} {createdAt : Time} {s : Store} {e : ApiError}
    (h : (createTarget data createdAt s).1 = .error e) : (createTarget data createdAt s).2 = s := by
  unfold createTarget at h ⊢
  split_ifs at h ⊢
  rfl

theorem updateTarget_error {id : Id} {data : UpdateMonitorDto} {s : Store} {e : ApiError}
    (h : (updateTarget id data s).1 = .error e) : (updateTarget id data s).2 = s := by
  unfold updateTarget at h ⊢
  cases hrow : s.target? id with
  | none => rfl
  | some t =>
      simp only [hrow] at h ⊢
      cases hnew : updatedRow data t with
      | error e => rfl
      | ok row =>
          simp only [hnew] at h ⊢
          split_ifs at h ⊢
          rfl

theorem deleteTarget_error {id : Id} {s : Store} {e : ApiError}
    (h : (deleteTarget id s).1 = .error e) : (deleteTarget id s).2 = s := by
  unfold deleteTarget at h ⊢
  cases hrow : s.target? id with
  | none => rfl
  | some t =>
      rw [hrow] at h
      cases h

/-- What is not effective leaves the store as it was. -/
theorem exec_unchanged (c : Choice) {op : Op} {s : Store}
    (h : ¬ Effective ⟨op, (exec c op s).1⟩) : (exec c op s).2 = s := by
  have hwrite : ChangesStore op → ∃ e, (exec c op s).1 = .error e := by
    intro hchanges
    cases hanswer : (exec c op s).1 with
    | error e => exact ⟨e, rfl⟩
    | ok a => exact absurd ⟨hchanges, by rw [hanswer]; rfl⟩ h
  have hlook : ∀ {α : Type} (r : Except ApiError α), (c.query s (r, s)).2 = s := by
    intro α r
    rcases c.query_cases s (r, s) with ⟨e, -, heq⟩ | ⟨-, heq⟩ <;> rw [heq]
  cases op with
  | findUnique id => exact hlook _
  | findUniqueByTypeExternalId type externalId => exact hlook _
  | emit event => exact absurd ⟨trivial, rfl⟩ h
  | create data =>
      obtain ⟨e, he⟩ := hwrite trivial
      exact query_unchanged (fun _ => createTarget_error) he
  | update id data =>
      obtain ⟨e, he⟩ := hwrite trivial
      exact query_unchanged (fun _ => updateTarget_error) he
  | delete id =>
      obtain ⟨e, he⟩ := hwrite trivial
      exact query_unchanged (fun _ => deleteTarget_error) he

/-! ## How a call goes on -/

def Invalid (e : ApiError) : Prop := ∃ message, e = .http .badRequest message "INVALID_MONITOR"

/-- No answer so far ends the call. -/
def Continues (h : List MonitorEntry) (_ : Op) : Prop := ∀ entry ∈ h.head?, ending entry = none

/-- A call ends with the error that its last answer ends it with, and a call
that fails has changed nothing. -/
structure EndsWell (h : List MonitorEntry) (r : Except ApiError Reply) : Prop where
  refused : ∀ entry ∈ h.head?, ∀ e, ending entry = some e → r = .error e
  reason : ∀ e, r = .error e → Invalid e ∨ ∃ entry ∈ h.head?, ending entry = some e
  unchanged : ∀ e, r = .error e → ∀ entry ∈ h, ¬ Effective entry

/-- What is left of a call conforms to its history. -/
abbrev Left (p : Api Reply) (h : List MonitorEntry) : Prop :=
  p.Conforms Possible Continues EndsWell h

theorem left_error {h : List MonitorEntry} (hh : ∀ entry ∈ h, ¬ Effective entry) (op : Op)
    (e : ApiError) : Left (.raise e) (⟨op, .error e⟩ :: h) where
  refused entry hentry e' he' := by
    obtain rfl := Option.some.inj hentry
    rw [← Option.some.inj he']
  reason e' he' := Or.inr ⟨_, rfl, congrArg some (Except.error.inj he')⟩
  unchanged e' he' entry hentry := by
    rcases List.mem_cons.mp hentry with rfl | hentry
    · exact fun heffective => absurd heffective.2 (by simp [Except.isOk, Except.toBool])
    · exact hh entry hentry

theorem left_refused {h : List MonitorEntry} (hh : ∀ entry ∈ h, ¬ Effective entry) {op : Op}
    {a : Answer op} {e : ApiError} (hop : ¬ ChangesStore op) (ha : refused op a = some e) :
    Left (.raise e) (⟨op, .ok a⟩ :: h) where
  refused entry hentry e' he' := by
    obtain rfl := Option.some.inj hentry
    rw [Option.some.inj (ha.symm.trans he')]
  reason e' he' := Or.inr ⟨_, rfl, ha.trans (congrArg some (Except.error.inj he'))⟩
  unchanged e' he' entry hentry := by
    rcases List.mem_cons.mp hentry with rfl | hentry
    · exact fun heffective => hop heffective.1
    · exact hh entry hentry

theorem left_ret {h : List MonitorEntry} (hh : ∀ entry ∈ h.head?, ending entry = none)
    (reply : Reply) : Left (.ret reply) h where
  refused entry hentry e he := by
    rw [hh entry hentry] at he
    cases he
  reason e he := by cases he
  unchanged e he := by cases he

theorem ensureExists_left {id : Id} {next : MonitorTarget → Api Reply}
    (hnext : ∀ t, Left (next t) [⟨.findUnique id, .ok (some t)⟩]) :
    Left ((ensureExists id).bind next) [] := by
  have hnone : ∀ entry ∈ ([] : List MonitorEntry), ¬ Effective entry := by simp
  refine (Program.conforms_call ..).mpr ⟨by simp [Continues], fun e _ => ?_, fun found _ => ?_⟩
  · exact left_error hnone _ e
  · cases found with
    | none => exact left_refused hnone (fun h => h) rfl
    | some t => exact hnext t

theorem normalizeCreate_invalid {dto : CreateMonitorDto} {e : ApiError}
    (h : normalizeCreate dto = .error e) : Invalid e := by
  simp only [normalizeCreate] at h
  split at h
  · cases h
  · exact ⟨_, (Except.error.inj h).symm⟩
  · cases h
  · exact ⟨_, (Except.error.inj h).symm⟩

theorem ineffective_look (op : Op) {a : Answer op} (hop : ¬ ChangesStore op) :
    ∀ entry ∈ ([⟨op, .ok a⟩] : List MonitorEntry), ¬ Effective entry := by
  intro entry hentry
  obtain rfl := List.mem_singleton.mp hentry
  exact fun heffective => hop heffective.1

theorem continues_cons {h : List MonitorEntry} {op : Op} {a : Answer op} (ha : refused op a = none)
    (next : Op) : Continues (⟨op, .ok a⟩ :: h) next := by
  intro entry hentry
  obtain rfl := Option.some.inj hentry
  exact ha

theorem create_left (dto : CreateMonitorDto) : Left (program (.create dto)) [] := by
  have hnone : ∀ entry ∈ ([] : List MonitorEntry), ¬ Effective entry := by simp
  change Left ((Program.bind _ _).bind _) []
  rw [Program.bind_assoc]
  cases hdata : normalizeCreate dto with
  | error e =>
      refine ⟨by simp, fun e' he' => ?_, fun _ _ => hnone⟩
      obtain rfl := Except.error.inj he'
      exact Or.inl (normalizeCreate_invalid hdata)
  | ok data =>
      refine (Program.conforms_call ..).mpr ⟨by simp [Continues], fun e _ => ?_, fun found _ => ?_⟩
      · exact left_error hnone _ e
      · cases found with
        | some t => exact left_refused hnone (fun h => h) rfl
        | none =>
            refine (Program.conforms_call ..).mpr ⟨continues_cons rfl _, fun e _ => ?_,
              fun created _ => ?_⟩
            · exact left_error (ineffective_look (.findUniqueByTypeExternalId _ _) fun h => h) _ e
            · exact left_ret (continues_cons rfl (.create data)) _

theorem program_left (r : Request) : Left (program r) [] := by
  cases r with
  | create dto => exact create_left dto
  | update id dto =>
      change Left ((Program.bind _ _).bind _) []
      rw [Program.bind_assoc]
      refine ensureExists_left fun t => ?_
      refine (Program.conforms_call ..).mpr ⟨continues_cons rfl _, fun e _ => ?_,
        fun updated _ => ?_⟩
      · exact left_error (ineffective_look (.findUnique id) fun h => h) _ e
      · exact left_ret (continues_cons rfl (.update id dto)) _
  | setEnabled id enabled =>
      change Left ((Program.bind _ _).bind _) []
      rw [Program.bind_assoc]
      refine ensureExists_left fun t => ?_
      refine (Program.conforms_call ..).mpr ⟨continues_cons rfl _, fun e _ => ?_,
        fun updated _ => ?_⟩
      · exact left_error (ineffective_look (.findUnique id) fun h => h) _ e
      · -- The event is emitted after the update, and that does not fail.
        refine (Program.conforms_call ..).mpr ⟨continues_cons rfl _, fun e he => ?_,
          fun _ _ => ?_⟩
        · cases he
        · exact left_ret (continues_cons rfl (.findUnique id)) _
  | remove id =>
      change Left ((Program.bind _ _).bind _) []
      rw [Program.bind_assoc]
      refine ensureExists_left fun t => ?_
      refine (Program.conforms_call ..).mpr ⟨continues_cons rfl _, fun e _ => ?_,
        fun removed _ => ?_⟩
      · exact left_error (ineffective_look (.findUnique id) fun h => h) _ e
      · exact left_ret (continues_cons rfl (.delete id)) _

/-! ## Refusals -/

theorem refused_http {op : Op} {a : Answer op} {e : ApiError} (h : refused op a = some e) :
    e ≠ uniqueViolation ∧ e ≠ recordNotFound := by
  unfold refused at h
  split at h
  · obtain rfl := Option.some.inj h
    exact ⟨by simp [notFound, uniqueViolation], by simp [notFound, recordNotFound]⟩
  · obtain rfl := Option.some.inj h
    exact ⟨by simp [monitorExists, uniqueViolation], by simp [monitorExists, recordNotFound]⟩
  · cases h

theorem refusal_http {s : Store} {op : Op} {e : ApiError} (h : refusal s op = some e) :
    e ≠ uniqueViolation ∧ e ≠ recordNotFound := by
  have hcases : e = monitorExists ∨ ∃ id, e = notFound id := by
    unfold refusal at h
    split at h
    · split_ifs at h
      exact Or.inr ⟨_, (Option.some.inj h).symm⟩
    · split_ifs at h
      exact Or.inl (Option.some.inj h).symm
    · split_ifs at h
      exact Or.inl (Option.some.inj h).symm
    · split at h
      · exact Or.inr ⟨_, (Option.some.inj h).symm⟩
      · split_ifs at h
        exact Or.inl (Option.some.inj h).symm
    · split_ifs at h
      exact Or.inr ⟨_, (Option.some.inj h).symm⟩
    · cases h
  rcases hcases with rfl | ⟨id, rfl⟩
  · exact ⟨by simp [monitorExists, uniqueViolation], by simp [monitorExists, recordNotFound]⟩
  · exact ⟨by simp [notFound, uniqueViolation], by simp [notFound, recordNotFound]⟩

/-- What a look is refused for ends the call. -/
theorem exec_look {c : Choice} {op : Op} {s : Store} {e : ApiError} (hcalm : c.fault = none)
    (hop : ¬ IsWrite op) (h : refusal s op = some e) : ending ⟨op, (exec c op s).1⟩ = some e := by
  cases op with
  | findUnique id =>
      rw [refusal] at h
      split_ifs at h with hnone
      rw [Option.isNone_iff_eq_none] at hnone
      rw [exec, Choice.query_of_fault_none hcalm, hnone]
      exact h
  | findUniqueByTypeExternalId type externalId =>
      rw [refusal] at h
      split_ifs at h with hsome
      obtain ⟨t, ht⟩ := Option.isSome_iff_exists.mp hsome
      rw [exec, Choice.query_of_fault_none hcalm, ht]
      exact h
  | emit event => cases h
  | _ => exact absurd trivial hop

theorem updatedRow_error {data : UpdateMonitorDto} {t : MonitorTarget} {e : ApiError}
    (h : updatedRow data t = .error e) : e = nullViolation := by
  have hcolumn : ∀ {α : Type} (old : α) (f : Field α) {e}, setColumn old f = .error e →
      e = nullViolation := by
    intro α old f e hf
    cases f with
    | null => exact (Except.error.inj hf).symm
    | _ => cases hf
  unfold updatedRow at h
  cases hname : setColumn t.name data.name with
  | error e' =>
      obtain rfl : e' = e := by simpa [hname, bind, Except.bind] using h
      exact hcolumn _ _ hname
  | ok name =>
      cases hext : setColumn t.externalId data.externalId with
      | error e' =>
          obtain rfl : e' = e := by simpa [hname, hext, bind, Except.bind] using h
          exact hcolumn _ _ hext
      | ok externalId =>
          cases henabled : setColumn t.enabled data.enabled with
          | error e' =>
              obtain rfl : e' = e := by simpa [hname, hext, henabled, bind, Except.bind] using h
              exact hcolumn _ _ henabled
          | ok enabled =>
              simp [hname, hext, henabled, bind, Except.bind, pure, Except.pure] at h

/-- An error of the database client that tells of a conflict. -/
def Conflicts {α : Type} (r : Except ApiError α) : Prop :=
  r = .error uniqueViolation ∨ r = .error recordNotFound

theorem createTarget_conflicts (data : MonitorData) (createdAt : Time) (s : Store) :
    Conflicts (createTarget data createdAt s).1 ↔ (refusal s (.create data)).isSome = true := by
  rw [createTarget, refusal]
  by_cases hsome : (targetByKey? s data.type data.externalId).isSome = true
  · rw [if_pos hsome, if_pos hsome]
    exact iff_of_true (Or.inl rfl) rfl
  · rw [if_neg hsome, if_neg hsome]
    simp [Conflicts]

theorem updateTarget_conflicts (id : Id) (data : UpdateMonitorDto) (s : Store) :
    Conflicts (updateTarget id data s).1 ↔ (refusal s (.update id data)).isSome = true := by
  rw [updateTarget, refusal]
  cases hrow : s.target? id with
  | none => exact iff_of_true (Or.inr rfl) rfl
  | some t =>
      cases hnew : updatedRow data t with
      | error e =>
          obtain rfl := updatedRow_error hnew
          simp [Conflicts, hnew, Except.toOption, nullViolation, uniqueViolation, recordNotFound]
      | ok row =>
          have hid : row.id = id := by
            rw [updatedRow_ok hnew]
            simpa using List.find?_some hrow
          simp only [hnew, Except.toOption, Option.any_some, taken, hid]
          split_ifs
          · exact iff_of_true (Or.inl rfl) rfl
          · simp [Conflicts]

theorem deleteTarget_conflicts (id : Id) (s : Store) :
    Conflicts (deleteTarget id s).1 ↔ (refusal s (.delete id)).isSome = true := by
  rw [deleteTarget, refusal]
  cases hrow : s.target? id with
  | none => exact iff_of_true (Or.inr rfl) rfl
  | some t => simp [Conflicts]

/-- A write that is to be refused fails with an error of the database client. -/
theorem exec_refused {c : Choice} {op : Op} {s : Store} (hcalm : c.fault = none)
    (hop : IsWrite op) (h : (refusal s op).isSome = true) : Conflicts (exec c op s).1 := by
  cases op with
  | create data =>
      rw [exec, Choice.query_of_fault_none hcalm]
      exact (createTarget_conflicts data c.now s).mpr h
  | update id data =>
      rw [exec, Choice.query_of_fault_none hcalm]
      exact (updateTarget_conflicts id data s).mpr h
  | delete id =>
      rw [exec, Choice.query_of_fault_none hcalm]
      exact (deleteTarget_conflicts id s).mpr h
  | _ => exact hop.elim

/-- The errors of a conflict come from the outside, or from a write that is to be
refused. -/
theorem exec_conflict {c : Choice} {op : Op} {s : Store} {e : ApiError}
    (he : e = uniqueViolation ∨ e = recordNotFound) (h : (exec c op s).1 = .error e) :
    c.fault = some e ∨ c.fault = none ∧ IsWrite op ∧ (refusal s op).isSome = true := by
  have hquery : ∀ {α : Type} {applied : Except ApiError α × Store},
      (Conflicts applied.1 → IsWrite op ∧ (refusal s op).isSome = true) →
      (c.query s applied).1 = .error e →
        c.fault = some e ∨ c.fault = none ∧ IsWrite op ∧ (refusal s op).isSome = true := by
    intro α applied happlied hfailed
    rcases c.query_cases s applied with ⟨e', hfault, heq⟩ | ⟨hcalm, heq⟩ <;> rw [heq] at hfailed
    · obtain rfl := Except.error.inj hfailed
      exact Or.inl hfault
    · exact Or.inr ⟨hcalm, happlied (by rcases he with rfl | rfl <;> simp [Conflicts, hfailed])⟩
  cases op with
  | findUnique id => exact hquery (fun hconflict => by simp [Conflicts] at hconflict) h
  | findUniqueByTypeExternalId type externalId =>
      exact hquery (fun hconflict => by simp [Conflicts] at hconflict) h
  | emit event => cases h
  | create data =>
      exact hquery (fun hconflict => ⟨trivial, (createTarget_conflicts data _ s).mp hconflict⟩) h
  | update id data =>
      exact hquery (fun hconflict => ⟨trivial, (updateTarget_conflicts id data s).mp hconflict⟩) h
  | delete id =>
      exact hquery (fun hconflict => ⟨trivial, (deleteTarget_conflicts id s).mp hconflict⟩) h

/-! ## Runs -/

section Runs

variable {P : MonitorPool}

def Any (_ : MonitorPool) (_ : MonitorEvent) : Prop := True

theorem left_of_run {allowed : MonitorPool → MonitorEvent → Prop}
    (hrun : system.Run allowed initial P) : ∀ c ∈ P.calls, Left c.rest c.history := by
  have hconforms := hrun.conforms rfl (fun _ => Continues) program_left
    fun P _ choice _ op _ _ _ _ => exec_possible choice op P.store
  exact fun c hc => (hconforms c hc).2

theorem endsWell_of_raised {allowed : MonitorPool → MonitorEvent → Prop}
    (hrun : system.Run allowed initial P) {c : Call Request Op Answer ApiError Reply}
    (hc : c ∈ P.calls) {e : ApiError} (hraised : c.Raised e) :
    EndsWell c.history (.error e) := by
  have hleft := left_of_run hrun c hc
  rw [Call.outcome?_eq_some.mp hraised] at hleft
  exact hleft

/-- An answer that ends a call has ended it. -/
theorem raised_of_left {entry : MonitorEntry} {h : List MonitorEntry} {label : Request}
    {rest : Api Reply} (hleft : Left rest (entry :: h))
    {e : ApiError} (hending : ending entry = some e) :
    (⟨label, entry :: h, rest⟩ : Call Request Op Answer ApiError Reply).Raised e := by
  apply Call.outcome?_eq_some.mpr
  cases rest with
  | ret reply => cases EndsWell.refused hleft entry rfl e hending
  | raise e' =>
      obtain rfl := Except.error.inj (EndsWell.refused hleft entry rfl e hending)
      rfl
  | call op next =>
      have hnone := hleft.1 entry rfl
      rw [hending] at hnone
      cases hnone

/-- The call after a step that is answered with the end of the call. -/
theorem raised_of_ending (hrun : system.Run Any initial P) {index : ℕ} {choice : Choice} {op : Op}
    (hop : P.awaited? index = some op) {e : ApiError}
    (hending : ending ⟨op, (exec choice op P.store).1⟩ = some e) :
    ∃ c, (after P index choice).calls[index]? = some c ∧ c.Raised e := by
  obtain ⟨call, next, hget, -, hafter⟩ := system.step_of_awaited hop choice
  have hcalls := system.getElem?_resumed choice next hget
  rw [← hafter] at hcalls
  have hleft := left_of_run (hrun.step (e := .perform index choice) trivial) _
    (List.mem_of_getElem? hcalls)
  exact ⟨_, hcalls, raised_of_left hleft hending⟩

theorem failsCleanly_iff (hrun : system.Run Any initial P) (index : ℕ) (choice : Choice) :
    FailsCleanly P index choice ↔ ¬ RefusedWrite P index choice := by
  constructor
  · rintro hclean ⟨hcalm, op, hop, hwrite, hrefused⟩
    obtain ⟨e, he⟩ := Option.isSome_iff_exists.mp hrefused
    obtain ⟨c, hget, hraised⟩ := hclean op hop hcalm e he
    have hhttp := refusal_http he
    -- The call has failed with the error of the database client instead.
    have hother : ∀ {e' : ApiError}, (exec choice op P.store).1 = .error e' → e = e' := by
      intro e' hanswer
      have hending : ending ⟨op, (exec choice op P.store).1⟩ = some e' := by
        rw [hanswer]
        rfl
      obtain ⟨c', hget', hraised'⟩ := raised_of_ending hrun hop hending
      obtain rfl : c = c' := Option.some.inj (hget.symm.trans hget')
      exact Except.error.inj (Option.some.inj (hraised.symm.trans hraised'))
    rcases exec_refused hcalm hwrite hrefused with hunique | hmissing
    · exact hhttp.1 (hother hunique)
    · exact hhttp.2 (hother hmissing)
  · intro hnot op hop hcalm e he
    apply raised_of_ending hrun hop
    apply exec_look hcalm _ he
    intro hwrite
    exact hnot ⟨hcalm, op, hop, hwrite, Option.isSome_iff_exists.mpr ⟨e, he⟩⟩

/-- A call that has changed the store does not fail. -/
theorem changed_not_raised (hrun : system.Run Any initial P) {index : ℕ} {choice : Choice}
    (hchanged : (after P index choice).store ≠ P.store) {P' : MonitorPool}
    (hrest : system.Run Any (after P index choice) P') :
    ∀ c ∈ P'.calls[index]?, ∀ e, ¬ c.Raised e := by
  intro c hc e hraised
  rcases system.step_perform P index choice with hsame | ⟨call, op, next, hget, hrest', hafter⟩
  · exact hchanged (congrArg Pool.store hsame)
  · have heffective : Effective ⟨op, (exec choice op P.store).1⟩ := by
      by_contra hnot
      apply hchanged
      rw [after, hafter]
      exact exec_unchanged choice hnot
    have hcalls := system.getElem?_resumed choice next hget
    rw [← hafter] at hcalls
    obtain ⟨c', hget', hsuffix⟩ := hrest.history hcalls
    obtain rfl : c' = c := Option.some.inj (hget'.symm.trans hc)
    have hends := endsWell_of_raised ((hrun.step (e := .perform index choice) trivial).trans hrest)
      (List.mem_of_getElem? hget') hraised
    exact hends.unchanged e rfl _ (hsuffix.subset (List.mem_cons_self ..)) heffective

/-- No answer is an error of a conflict. -/
def Peaceful (op : Op) (r : Except ApiError (Answer op)) : Prop :=
  r ≠ .error uniqueViolation ∧ r ≠ .error recordNotFound ∧ Possible op r

theorem unrefused_not_raised (hrun : system.Run Unrefused initial P) :
    ∀ c ∈ P.calls, ¬ c.Raised uniqueViolation ∧ ¬ c.Raised recordNotFound := by
  have hends : ∀ {h : List MonitorEntry}, Lawful Peaceful (fun _ _ => True) h → ∀ {e : ApiError},
      e = uniqueViolation ∨ e = recordNotFound → ¬ EndsWell h (.error e) := by
    intro h hlawful e he hends
    rcases hends.reason e rfl with ⟨message, hinvalid⟩ | ⟨entry, hentry, hending⟩
    · rcases he with rfl | rfl <;> cases hinvalid
    · cases hlawful with
      | nil => cases hentry
      | @cons h op r _ _ hpeaceful =>
          obtain rfl := Option.some.inj hentry
          cases r with
          | error e' =>
              obtain rfl := Option.some.inj hending
              rcases he with rfl | rfl
              · exact hpeaceful.1 rfl
              · exact hpeaceful.2.1 rfl
          | ok a =>
              have hhttp := refused_http hending
              rcases he with rfl | rfl
              · exact hhttp.1 rfl
              · exact hhttp.2 rfl
  have hstart : ∀ r, (program r).Conforms Peaceful (fun _ _ => True) (fun _ _ => True) [] :=
    fun r => Program.obeys_of_stable (program r) (fun _ _ _ _ _ _ => trivial) trivial
  have hlawful := hrun.conforms rfl (fun _ _ _ => True) hstart <| by
    rintro P index choice call op next ⟨hrefused, hunique, hmissing⟩ hget hrest
    have hno : ∀ {e : ApiError}, e = uniqueViolation ∨ e = recordNotFound →
        choice.fault ≠ some e → (exec choice op P.store).1 ≠ .error e := by
      intro e he hfault hanswer
      rcases exec_conflict he hanswer with hsome | ⟨hcalm, hwrite, hsome⟩
      · exact hfault hsome
      · exact hrefused ⟨hcalm, op, Pool.awaited?_eq hget hrest, hwrite, hsome⟩
    exact ⟨hno (Or.inl rfl) hunique, hno (Or.inr rfl) hmissing, exec_possible choice op P.store⟩
  intro c hc
  have hfailed := fun e => endsWell_of_raised (e := e) hrun hc
  exact ⟨fun hraised => hends (hlawful c hc).1 (Or.inl rfl) (hfailed _ hraised),
    fun hraised => hends (hlawful c hc).1 (Or.inr rfl) (hfailed _ hraised)⟩

/-- In any run, a step fails cleanly unless it is a write that the database
refuses, and a call that has changed the store does not fail.  In a run without
such writes no call fails with an error of a conflict from the database client. -/
theorem monitors_fail_cleanly (hrun : system.Run Any initial P) (index : ℕ) (choice : Choice) :
    (FailsCleanly P index choice ↔ ¬ RefusedWrite P index choice) ∧
      ((after P index choice).store ≠ P.store →
        ∀ P', system.Run Any (after P index choice) P' →
          ∀ c ∈ P'.calls[index]?, ∀ e, ¬ c.Raised e) ∧
      (system.Run Unrefused initial P →
        ∀ c ∈ P.calls, ¬ c.Raised uniqueViolation ∧ ¬ c.Raised recordNotFound) := by
  refine ⟨failsCleanly_iff hrun index choice, ?_, fun hrun => unrefused_not_raised hrun⟩
  exact fun hchanged P' hrest => changed_not_raised hrun hchanged hrest

end Runs

/-! ## Calls that race -/

def createChat : Request := .create ⟨.tgChannel, "channel", .undefined, .value "-1001"⟩

def rename : Request := .update 0 ⟨.value "renamed", .undefined, .undefined, .undefined⟩

/-- A target is created, and another call finds its key taken. -/
def oneAfterAnother : MonitorPool := system.runList initial
  [.spawn createChat, .perform 0 calm, .perform 0 calm, .spawn createChat]

theorem monitors_fail_cleanly_create :
    FailsCleanly oneAfterAnother 1 calm ∧
      ∀ c ∈ oneAfterAnother.calls, ¬ c.Raised uniqueViolation ∧ ¬ c.Raised recordNotFound := by
  have hrun : system.Run Unrefused initial oneAfterAnother :=
    Machine.Run.refl.list (by decide +kernel)
  have hany : system.Run Any initial oneAfterAnother := hrun.mono fun _ _ _ => trivial
  obtain ⟨hclean, -, hraised⟩ := monitors_fail_cleanly hany 1 calm
  exact ⟨hclean.mpr (by decide +kernel), hraised hrun⟩

/-- Both calls have looked, and the first has written. -/
def bothLooked : MonitorPool := system.runList initial
  [.spawn createChat, .spawn createChat, .perform 0 calm, .perform 1 calm, .perform 0 calm]

/-- The row that a call has found is removed. -/
def removedMeanwhile : MonitorPool := system.runList initial
  [.spawn createChat, .perform 0 calm, .perform 0 calm, .spawn rename, .perform 1 calm,
    .spawn (.remove 0), .perform 2 calm, .perform 2 calm]

theorem races_leak :
    (system.Run Any initial bothLooked ∧ ¬ FailsCleanly bothLooked 1 calm ∧
      (after bothLooked 1 calm).calls[1]?.bind Call.outcome? = some (.error uniqueViolation)) ∧
      system.Run Any initial removedMeanwhile ∧ ¬ FailsCleanly removedMeanwhile 1 calm ∧
        (after removedMeanwhile 1 calm).calls[1]?.bind Call.outcome? =
          some (.error recordNotFound) := by
  have hlooked : system.Run Any initial bothLooked :=
    Machine.Run.refl.list (by simp [Machine.AllowedList, Any])
  have hremoved : system.Run Any initial removedMeanwhile :=
    Machine.Run.refl.list (by simp [Machine.AllowedList, Any])
  refine ⟨⟨hlooked, ?_, rfl⟩, hremoved, ?_, rfl⟩
  · rw [failsCleanly_iff hlooked, not_not]
    decide +kernel
  · rw [failsCleanly_iff hremoved, not_not]
    decide +kernel

end SocialMonitor.Monitors

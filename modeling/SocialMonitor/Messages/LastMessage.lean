import SocialMonitor.Messages.PostState

/-!
# The date of the last message

`updateTargetLastMessageAt` writes the date of its own message over whatever the
target holds.  The date that remains is the latest one exactly as long as no
call is overtaken: the writes come in the order of the dates.
-/

namespace SocialMonitor.Messages

open Async

/-- The dates of the stored messages of a target. -/
def datesOf (s : Store) (targetId : Id) : List Time :=
  (s.messages.filter fun m => m.targetId = targetId).map Message.publishedAt

/-- Every target holds the latest date of its messages. -/
def Current (s : Store) : Prop := ∀ t ∈ s.targets, t.lastMessageAt = (datesOf s t.id).max?

/-- No target holds an earlier date than before. -/
def Forward (s s' : Store) : Prop :=
  ∀ t ∈ s.targets, ∃ t' ∈ s'.targets, t'.id = t.id ∧
    ∀ d ∈ t.lastMessageAt, ∃ d' ∈ t'.lastMessageAt, d ≤ d'

/-! ## What the calls contribute -/

def createdDates (targetId : Id) : Entry Op Answer ApiError → List Time
  | ⟨.createMessage _, .ok m⟩ =>
      if m.message.targetId = targetId then [m.message.publishedAt] else []
  | _ => []

def recordedDates (targetId : Id) : Entry Op Answer ApiError → List Time
  | ⟨.updateTargetLastMessageAt id (some time), .ok _⟩ => if id = targetId then [time] else []
  | _ => []

/-- The dates written for a target, and those of the messages it started with. -/
def recorded (start : Store) (P : MessagePool) (targetId : Id) : List Time :=
  P.collect (recordedDates targetId) ++ datesOf start targetId

def update? : Op → Option (Id × Time)
  | .updateTargetLastMessageAt targetId (some time) => some (targetId, time)
  | _ => none

/-- No date is written after a later one of the same target. -/
def InOrder (start : Store) (P : MessagePool) : MessageEvent → Prop
  | .perform index choice => choice.fault = none →
      ∀ op ∈ P.awaited? index, ∀ u ∈ update? op, (∃ t ∈ P.store.targets, t.id = u.1) →
        ∀ d ∈ recorded start P u.1, d ≤ u.2
  | _ => True

instance (start : Store) (P : MessagePool) (e : MessageEvent) : Decidable (InOrder start P e) :=
  match e with
  | .perform index choice => inferInstanceAs (Decidable (choice.fault = none →
      ∀ op ∈ P.awaited? index, ∀ u ∈ update? op, (∃ t ∈ P.store.targets, t.id = u.1) →
        ∀ d ∈ recorded start P u.1, d ≤ u.2))
  | .spawn _ => .isTrue trivial
  | .env _ => .isTrue trivial

instance (s : Store) : Decidable (Current s) :=
  inferInstanceAs (Decidable (∀ t ∈ s.targets, t.lastMessageAt = (datesOf s t.id).max?))

instance (s s' : Store) : Decidable (Forward s s') :=
  inferInstanceAs (Decidable (∀ t ∈ s.targets, ∃ t' ∈ s'.targets, t'.id = t.id ∧
    ∀ d ∈ t.lastMessageAt, ∃ d' ∈ t'.lastMessageAt, d ≤ d'))

/-- Every call has returned its message. -/
def AllReturned (P : MessagePool) : Prop := ∀ c ∈ P.calls, ∃ dto, c.Returned dto

theorem returned_iff {c : RunningCall} :
    (∃ dto, c.Returned dto) ↔ ∃ r ∈ c.outcome?, r.isOk = true := by
  constructor
  · rintro ⟨dto, hdto⟩
    exact ⟨_, hdto, rfl⟩
  · rintro ⟨error | dto, hr, hok⟩
    · cases hok
    · exact ⟨dto, hr⟩

instance (P : MessagePool) : Decidable (AllReturned P) :=
  decidable_of_iff (∀ c ∈ P.calls, ∃ r ∈ c.outcome?, r.isOk = true)
    (forall₂_congr fun _ _ => returned_iff.symm)

/-! ## Messages that are stored -/

theorem Effect.datesOf {s s' : Store} {op : Op} {r : Except ApiError (Answer op)}
    (h : Effect s op r s') (targetId : Id) :
    (datesOf s' targetId).Perm (createdDates targetId ⟨op, r⟩ ++ datesOf s targetId) := by
  cases h with
  | @created data publishedAt target =>
      by_cases hid : data.targetId = targetId
      · simp [Messages.datesOf, createdDates, messageRow, hid]
      · simp [Messages.datesOf, createdDates, messageRow, hid]
  | failed => cases op <;> exact .refl _
  | _ => exact .refl _

theorem Change.datesOf (change : Change) (s : Store) (targetId : Id) :
    datesOf (change.apply s) targetId = datesOf s targetId := by
  cases change <;> rfl

variable {P₀ P : MessagePool} {allowed : MessagePool → MessageEvent → Prop}

/-- The stored messages are those of the start and those the calls have created. -/
theorem datesOf_run (hinit : P₀.calls = []) (hrun : system.Run allowed P₀ P) (targetId : Id) :
    (datesOf P.store targetId).Perm
      (P.collect (createdDates targetId) ++ datesOf P₀.store targetId) := by
  refine hrun.collected (createdDates targetId)
    (fun l s => (datesOf s targetId).Perm (l ++ datesOf P₀.store targetId)) ?_ ?_ ?_ ?_
  · simp [Pool.collect, hinit]
  · intro l l' s hperm h
    exact h.trans (hperm.append_right _)
  · intro l choice op s h
    rw [List.append_assoc]
    exact ((exec_effect choice op s).datesOf targetId).trans (h.append_left _)
  · intro l change s h
    exact (change.datesOf s targetId).symm ▸ h

/-! ## Dates that are written -/

theorem Effect.recorded_nil {s s' : Store} {op : Op} {r : Except ApiError (Answer op)}
    (h : Effect s op r s') (hop : update? op = none) :
    s'.targets = s.targets ∧ ∀ targetId, recordedDates targetId ⟨op, r⟩ = [] := by
  cases h with
  | touched => simp [update?] at hop
  | failed => exact ⟨rfl, fun targetId => by cases op <;> simp [recordedDates]⟩
  | _ => exact ⟨rfl, fun _ => rfl⟩

theorem updateTargetLastMessageAt_cases (targetId : Id) (time : Time) (s : Store) :
    (∃ t ∈ s.targets, t.id = targetId) ∧ updateTargetLastMessageAt targetId (some time) s =
        (.ok (), { s with targets := touched targetId time s.targets }) ∨
      (¬ ∃ t ∈ s.targets, t.id = targetId) ∧
        updateTargetLastMessageAt targetId (some time) s = (.error recordNotFound, s) := by
  cases htarget : s.target? targetId with
  | some t =>
      refine Or.inl ⟨⟨t, List.mem_of_find?_eq_some htarget, ?_⟩,
        updateTargetLastMessageAt_eq htarget⟩
      simpa using List.find?_some htarget
  | none =>
      refine Or.inr ⟨?_, by simp [updateTargetLastMessageAt, htarget]⟩
      rintro ⟨t, ht, hid⟩
      exact absurd hid (by simpa using List.find?_eq_none.mp htarget t ht)

/-- An operation writes a date, or leaves the targets alone. -/
theorem exec_targets (choice : Choice) (op : Op) (s : Store) :
    (∃ targetId time, op = .updateTargetLastMessageAt targetId (some time) ∧
      choice.fault = none ∧ (∃ t ∈ s.targets, t.id = targetId) ∧
      (exec choice op s).2.targets = touched targetId time s.targets ∧
      ∀ id, recordedDates id ⟨op, (exec choice op s).1⟩ = if targetId = id then [time] else []) ∨
    ((choice.fault = none → ∀ u ∈ update? op, ¬ ∃ t ∈ s.targets, t.id = u.1) ∧
      (exec choice op s).2.targets = s.targets ∧
      ∀ id, recordedDates id ⟨op, (exec choice op s).1⟩ = []) := by
  cases hop : update? op with
  | none => exact Or.inr ⟨by simp, (exec_effect choice op s).recorded_nil hop⟩
  | some u =>
      cases op with
      | updateTargetLastMessageAt targetId publishedAt =>
          cases publishedAt with
          | none => simp [update?] at hop
          | some time =>
              obtain rfl : (targetId, time) = u := Option.some.inj hop
              have hnil : ∀ error id, recordedDates id
                  ⟨.updateTargetLastMessageAt targetId (some time), .error error⟩ = [] := by
                simp [recordedDates]
              rcases choice.query_cases s (updateTargetLastMessageAt targetId (some time) s) with
                ⟨error, hfault, heq⟩ | ⟨hfault, heq⟩
              · rw [exec, heq]
                exact Or.inr ⟨by simp [hfault], rfl, hnil error⟩
              rw [exec, heq]
              rcases updateTargetLastMessageAt_cases targetId time s with
                ⟨hexists, hupdate⟩ | ⟨hmissing, hupdate⟩ <;> rw [hupdate]
              · exact Or.inl ⟨targetId, time, rfl, hfault, hexists, rfl, fun _ => rfl⟩
              · refine Or.inr ⟨fun _ u hu => ?_, rfl, hnil _⟩
                obtain rfl : (targetId, time) = u := Option.some.inj hu
                exact hmissing
      | _ => simp [update?] at hop

/-! ## A call that returns has written its date -/

def Dated : (op : Op) → Except ApiError (Answer op) → Prop
  | .createMessage data, .ok m =>
      m.message.targetId = data.targetId ∧ data.publishedAt = some m.message.publishedAt
  | _, _ => True

theorem Effect.dated {s s' : Store} {op : Op} {r : Except ApiError (Answer op)}
    (h : Effect s op r s') : Dated op r := by
  cases h with
  | created hdate _ _ => exact ⟨rfl, hdate⟩
  | failed => cases op <;> trivial
  | _ => trivial

/-- The dates written are those of the messages created. -/
def Balanced (h : History) : Prop :=
  ∀ targetId, h.flatMap (recordedDates targetId) = h.flatMap (createdDates targetId)

/-- The operation neither creates a message nor writes a date. -/
def Quiet : Op → Prop
  | .createMessage _ => False
  | .updateTargetLastMessageAt _ _ => False
  | _ => True

theorem Balanced.cons {h : History} (hh : Balanced h) (op : Op)
    {r : Except ApiError (Answer op)} (hop : Quiet op ∨ ∃ error, r = .error error) :
    Balanced (⟨op, r⟩ :: h) := by
  have hnil : ∀ id, recordedDates id ⟨op, r⟩ = [] ∧ createdDates id ⟨op, r⟩ = [] := by
    intro id
    rcases hop with hquiet | ⟨error, rfl⟩
    · cases op with
      | createMessage data => exact hquiet.elim
      | updateTargetLastMessageAt targetId publishedAt => exact hquiet.elim
      | _ => exact ⟨rfl, rfl⟩
    · cases op <;> simp [recordedDates, createdDates]
  intro id
  rw [List.flatMap_cons, List.flatMap_cons, (hnil id).1, (hnil id).2]
  exact hh id

theorem quiet_balanced {α : Type} {p : Api α} (hp : p.Awaits Quiet) {h : History}
    (hh : Balanced h) : p.Conforms Dated (fun _ _ => True) (fun h' _ => Balanced h') h := by
  refine hp.stable ?_ hh
  rintro op h r h' hop ⟨-, rfl⟩ hh
  exact hh.cons op (Or.inl hop)

theorem routeToEnabledChannels_quiet (messageId : Id) :
    (routeToEnabledChannels messageId).Awaits Quiet := by
  refine Program.Awaits.bind (Program.awaits_await trivial) fun channels => ?_
  split_ifs
  · exact trivial
  refine Program.Awaits.bind (Program.awaits_await trivial) fun created => ?_
  refine Program.Awaits.forM (fun t => ?_) created
  unfold enqueueCreated
  split
  · exact Program.awaits_await trivial
  · exact trivial

/-- How far the call is: an old message needs nothing, a new one its date. -/
def Owes (input : NormalizedMessage) (target : MonitorTarget) (h : History)
    (found : MessageWithTarget × Bool) : Prop :=
  if found.2 then ∃ time, input.publishedAt = some time ∧ ∀ targetId,
    h.flatMap (createdDates targetId) =
      (if target.id = targetId then [time] else []) ++ h.flatMap (recordedDates targetId)
  else Balanced h

def Paid (h : History) (r : Except ApiError MessageDto) : Prop := ∀ dto, r = .ok dto → Balanced h

/-- A call that fails owes nothing. -/
theorem paid_error (h : History) (error : ApiError) : Paid h (.error error) :=
  fun _ hdto => nomatch hdto

theorem findOrCreate_owes {h : History} (hh : Balanced h) (input : NormalizedMessage)
    (target : MonitorTarget) : (findOrCreate input target).Conforms Dated (fun _ _ => True)
      (Program.Handson (Owes input target) Paid) h := by
  refine ⟨trivial, ?_⟩
  rintro r _ ⟨-, rfl⟩
  have hfind := hh.cons (.findUniqueBySourceExternalId input.source input.externalId)
    (r := r) (Or.inl trivial)
  rcases r with error | (_ | existing)
  · exact paid_error _ _
  · refine ⟨trivial, ?_⟩
    rintro r _ ⟨hdated, rfl⟩
    rcases r with error | message
    · have hcreate := hfind.cons (.createMessage (messageData input target))
        (Or.inr ⟨error, rfl⟩)
      change (if _ then _ else _ : Api _).Conforms _ _ _ _
      split_ifs
      · exact paid_error _ _
      refine ⟨trivial, ?_⟩
      rintro r _ ⟨-, rfl⟩
      rcases r with error' | (_ | deduped)
      · exact paid_error _ _
      · exact paid_error _ _
      · exact hcreate.cons _ (Or.inl trivial)
    · obtain ⟨htarget, hdate⟩ := hdated
      refine ⟨message.message.publishedAt, hdate, fun targetId => ?_⟩
      have hsame := hfind targetId
      rw [List.flatMap_cons, ← hsame, createdDates, htarget]
      rfl
  · exact hfind

theorem create_paid (input : NormalizedMessage) :
    (create input).Conforms Dated (fun _ _ => True) Paid [] := by
  refine ⟨trivial, ?_⟩
  rintro r _ ⟨-, rfl⟩
  have hempty : Balanced [] := fun _ => rfl
  have hfind := hempty.cons (.findTargetByTypeExternalId input.targetType
    input.targetExternalId) (r := r) (Or.inl trivial)
  rcases r with error | (_ | target)
  · exact paid_error _ _
  · exact paid_error _ _
  refine Program.Obeys.bind (Owes input target) (findOrCreate_owes hfind input target) ?_
  rintro h ⟨m, isNew⟩ howes
  have hfinish : ∀ h, Balanced h → ((routeToEnabledChannels m.message.id).bind fun _ =>
      .ret (toDto m)).Conforms Dated (fun _ _ => True) Paid h := fun h hh =>
    (quiet_balanced ((routeToEnabledChannels_quiet _).bind fun _ =>
      Program.awaits_ret _) hh).mono
      (fun _ _ h => h) fun _ _ hbalanced _ _ => hbalanced
  cases isNew with
  | false => exact hfinish h howes
  | true =>
      obtain ⟨time, htime, howes⟩ := howes
      refine ⟨trivial, ?_⟩
      rintro r _ ⟨-, rfl⟩
      rcases r with error | _
      · exact paid_error _ _
      have htouched : Balanced
          (⟨.updateTargetLastMessageAt target.id input.publishedAt, .ok ()⟩ :: h) := by
        intro targetId
        rw [List.flatMap_cons, List.flatMap_cons, howes targetId, htime]
        rfl
      refine ⟨trivial, ?_⟩
      rintro r _ ⟨-, rfl⟩
      rcases r with error | _
      · exact paid_error _ _
      exact hfinish _ (htouched.cons _ (Or.inl trivial))

/-- Once all calls have returned, the dates of all stored messages are written. -/
theorem recorded_perm (hinit : P₀.calls = []) (hrun : system.Run allowed P₀ P)
    (hreturned : AllReturned P) (targetId : Id) :
    (recorded P₀.store P targetId).Perm (datesOf P.store targetId) := by
  have hpaid : ∀ c ∈ P.calls, Balanced c.history := by
    intro c hc
    obtain ⟨dto, hdto⟩ := hreturned c hc
    have hconforms := (hrun.conforms hinit (fun _ _ _ => True) (fun _ => create_paid _)
      (fun P _ choice _ op _ _ _ _ => (exec_effect choice op P.store).dated) c hc).2
    rw [Call.outcome?_eq_some.mp hdto] at hconforms
    exact hconforms.ended dto rfl
  have hcollect : P.collect (recordedDates targetId) = P.collect (createdDates targetId) :=
    List.flatMap_congr fun c hc => hpaid c hc targetId
  rw [recorded, hcollect]
  exact (datesOf_run hinit hrun targetId).symm

/-! ## The latest date -/

theorem max?_perm {l l' : List Time} (h : l.Perm l') : l.max? = l'.max? := by
  cases hmax : l'.max? with
  | none =>
      rw [List.max?_eq_none_iff] at hmax ⊢
      exact (hmax ▸ h).eq_nil
  | some d =>
      rw [List.max?_eq_some_iff] at hmax ⊢
      exact ⟨h.mem_iff.mpr hmax.1, fun d' hd' => hmax.2 d' (h.mem_iff.mp hd')⟩

theorem max?_cons_of_le {l : List Time} {time : Time} (h : ∀ d ∈ l, d ≤ time) :
    (time :: l).max? = some time := by
  rw [List.max?_eq_some_iff]
  refine ⟨List.mem_cons_self, fun d hd => ?_⟩
  rcases List.mem_cons.mp hd with rfl | hd
  · exact le_rfl
  · exact h d hd

theorem forall_max?_le {l : List Time} {time : Time} :
    (∀ d ∈ l.max?, d ≤ time) ↔ ∀ d ∈ l, d ≤ time := by
  cases hmax : l.max? with
  | none => simp [List.max?_eq_none_iff.mp hmax]
  | some m => simpa using List.max?_le_iff hmax

/-- As long as the dates come in order, a target holds the latest one written. -/
theorem lastMessageAt_of_run (hinit : P₀.calls = []) (hcurrent : Current P₀.store)
    (hrun : system.Run (InOrder P₀.store) P₀ P) :
    ∀ t ∈ P.store.targets, t.lastMessageAt = (recorded P₀.store P t.id).max? := by
  refine hrun.invariant (fun P => ∀ t ∈ P.store.targets,
    t.lastMessageAt = (recorded P₀.store P t.id).max?) ?_ ?_ ?_ ?_
  · intro t ht
    rw [recorded, Pool.collect, hinit]
    exact hcurrent t ht
  · intro P label _ ih _ t ht
    rw [recorded, System.collect_spawn]
    exact ih t ht
  · intro P index choice call op next _ ih horder hget hrest t ht
    have hperm : ∀ id, (recorded P₀.store (system.resumed P index choice call op next) id).Perm
        (recordedDates id ⟨op, (exec choice op P.store).1⟩ ++ recorded P₀.store P id) := by
      intro id
      rw [recorded, recorded, ← List.append_assoc]
      exact (system.collect_resumed (recordedDates id) hget).append_right _
    rw [max?_perm (hperm t.id)]
    change t ∈ (exec choice op P.store).2.targets at ht
    rcases exec_targets choice op P.store with
      ⟨targetId, time, rfl, hfault, hexists, htargets, hdates⟩ | ⟨-, htargets, hdates⟩
    · rw [htargets] at ht
      obtain ⟨row, hrow, rfl⟩ := List.mem_map.mp ht
      rw [hdates]
      by_cases hid : row.id = targetId
      · subst hid
        rw [if_pos rfl, if_pos rfl]
        exact (max?_cons_of_le
          (horder hfault _ (Pool.awaited?_eq hget hrest) _ rfl hexists)).symm
      · rw [if_neg hid, if_neg (Ne.symm hid), List.nil_append]
        exact ih row hrow
    · rw [hdates, List.nil_append]
      exact ih t (htargets ▸ ht)
  · intro P change _ ih _ t ht
    cases change <;> exact ih t ht

/-! ## Dates never move backwards -/

theorem Forward.refl (s : Store) : Forward s s :=
  fun t ht => ⟨t, ht, rfl, fun d hd => ⟨d, hd, le_rfl⟩⟩

theorem Forward.of_targets {s s' : Store} (h : s'.targets = s.targets) : Forward s s' :=
  fun t ht => ⟨t, h ▸ ht, rfl, fun d hd => ⟨d, hd, le_rfl⟩⟩

theorem Forward.trans {s s' s'' : Store} (h : Forward s s') (h' : Forward s' s'') :
    Forward s s'' := by
  intro t ht
  obtain ⟨t', ht', hid, hdate⟩ := h t ht
  obtain ⟨t'', ht'', hid', hdate'⟩ := h' t' ht'
  refine ⟨t'', ht'', hid'.trans hid, fun d hd => ?_⟩
  obtain ⟨d', hd', hle⟩ := hdate d hd
  obtain ⟨d'', hd'', hle'⟩ := hdate' d' hd'
  exact ⟨d'', hd'', hle.trans hle'⟩

theorem forward_touched {s s' : Store} {targetId : Id} {time : Time}
    (h : s'.targets = touched targetId time s.targets) :
    Forward s s' ↔ ∀ t ∈ s.targets, t.id = targetId → ∀ d ∈ t.lastMessageAt, d ≤ time := by
  constructor
  · intro hforward t ht hid d hd
    obtain ⟨t', ht', hid', hdate⟩ := hforward t ht
    obtain ⟨d', hd', hle⟩ := hdate d hd
    rw [h] at ht'
    obtain ⟨row, hrow, rfl⟩ := List.mem_map.mp ht'
    split_ifs at hid' hd' with hrowId
    · obtain rfl := Option.some.inj hd'
      exact hle
    · exact absurd (hid'.trans hid) hrowId
  · intro hlater t ht
    refine ⟨if t.id = targetId then { t with lastMessageAt := some time } else t, ?_,
      touched_id targetId time t, fun d hd => ?_⟩
    · rw [h]
      exact List.mem_map_of_mem ht
    · split_ifs with hid
      · exact ⟨time, rfl, hlater t ht hid d hd⟩
      · exact ⟨d, hd, le_rfl⟩

/-- In a state reached in order, a step leaves every date or moves it forward
exactly if it is in order itself. -/
theorem forward_iff (hinit : P₀.calls = []) (hcurrent : Current P₀.store)
    (hrun : system.Run (InOrder P₀.store) P₀ P) (e : MessageEvent) :
    Forward P.store (system.step P e).store ↔ InOrder P₀.store P e := by
  have hlatest := lastMessageAt_of_run hinit hcurrent hrun
  cases e with
  | spawn label => exact iff_of_true (.refl _) trivial
  | env change =>
      refine iff_of_true (.of_targets ?_) trivial
      cases change <;> rfl
  | perform index choice =>
      cases hawaited : P.awaited? index with
      | none =>
          rw [system.step_of_not_awaited hawaited]
          exact iff_of_true (.refl _) fun _ op hop => by simp [hawaited] at hop
      | some op =>
          obtain ⟨call, next, -, -, hstep⟩ := system.step_of_awaited hawaited choice
          have hstore : (system.step P (.perform index choice)).store =
              (exec choice op P.store).2 := by
            rw [hstep]
            rfl
          rw [hstore]
          rcases exec_targets choice op P.store with
            ⟨targetId, time, rfl, hfault, ⟨t, ht, hid⟩, htargets, -⟩ | ⟨hrefused, htargets, -⟩
          · rw [forward_touched htargets]
            constructor
            · rintro hlater - op' hop' u hu -
              obtain rfl := Option.some.inj (hawaited.symm.trans hop')
              obtain rfl := Option.some.inj hu
              have hbound := hlater t ht hid
              rw [hlatest t ht, hid] at hbound
              exact forall_max?_le.mp hbound
            · intro horder t' ht' hid'
              rw [hlatest t' ht', hid']
              exact forall_max?_le.mpr
                (horder hfault _ hawaited (targetId, time) rfl ⟨t, ht, hid⟩)
          · refine iff_of_true (.of_targets htargets) fun hfault op' hop' u hu hexists => ?_
            obtain rfl := Option.some.inj (hawaited.symm.trans hop')
            exact absurd hexists (hrefused hfault u hu)

/-- While the dates are written in order no target loses a later date, and once
all calls have returned every target holds the latest one. -/
theorem lastMessageAt_latest (hinit : P₀.calls = []) (hcurrent : Current P₀.store)
    (hrun : system.Run (InOrder P₀.store) P₀ P) :
    Forward P₀.store P.store ∧
    (∀ e, Forward P.store (system.step P e).store ↔ InOrder P₀.store P e) ∧
    (AllReturned P → Current P.store) := by
  refine ⟨?_, forward_iff hinit hcurrent hrun, fun hreturned t ht => ?_⟩
  · refine Machine.Run.invariant hrun (fun P => Forward P₀.store P.store) (.refl _) ?_
    intro P e hrun hforward he
    exact hforward.trans ((forward_iff hinit hcurrent hrun e).mpr he)
  · rw [lastMessageAt_of_run hinit hcurrent hrun t ht]
    exact max?_perm (recorded_perm hinit hrun hreturned t.id)

def oneTarget : Store := { oneChannel with channels := [] }

def older : NormalizedMessage := { sampleMessage with publishedAt := some 10 }

def newer : NormalizedMessage :=
  { sampleMessage with externalId := "-1001:8", publishedAt := some 20 }

/-- A call that finds no channel awaits six operations. -/
def wholeCall (index : ℕ) : List MessageEvent := List.replicate 6 (.perform index calm)

def inTurn : List MessageEvent := .spawn older :: wholeCall 0 ++ .spawn newer :: wholeCall 1

theorem lastMessageAt_latest_inTurn :
    AllReturned (system.runList ⟨oneTarget, []⟩ inTurn) ∧
      Current (system.runList ⟨oneTarget, []⟩ inTurn).store := by
  have hrun : system.Run (InOrder oneTarget) ⟨oneTarget, []⟩
      (system.runList ⟨oneTarget, []⟩ inTurn) := Machine.Run.refl.list (by decide)
  have hreturned : AllReturned (system.runList ⟨oneTarget, []⟩ inTurn) := by decide
  have hcurrent : Current oneTarget := by decide
  have hlatest := @lastMessageAt_latest ⟨oneTarget, []⟩ _ rfl hcurrent hrun
  exact ⟨hreturned, hlatest.2.2 hreturned⟩

/-! ## The defect -/

/-- The later message arrives first. -/
def newerFirst : MessagePool := system.runList ⟨oneTarget, []⟩ (.spawn newer :: wholeCall 0)

def overtaken : MessagePool := system.runList newerFirst (.spawn older :: wholeCall 1)

theorem overtaken_not_current :
    system.Run (fun _ _ => True) ⟨oneTarget, []⟩ overtaken ∧ Current oneTarget ∧
      AllReturned overtaken ∧ ¬ Forward newerFirst.store overtaken.store ∧
      ¬ Current overtaken.store := by
  have hfirst : system.Run (fun _ _ => True) ⟨oneTarget, []⟩ newerFirst :=
    Machine.Run.refl.list (by decide)
  exact ⟨hfirst.list (by decide), by decide, by decide, by decide, by decide⟩

end SocialMonitor.Messages

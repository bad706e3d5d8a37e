import SocialMonitor.Async.Trace
import SocialMonitor.Messages.Routing

/-!
# What a call that returns has done

A call of `create` returns exactly when none of its operations fails, and its
journal ends with the whole routing then.
-/

namespace SocialMonitor.Messages

open Async

/-- The queue has taken a job for every task that was inserted. -/
def enqueueEntries (channels : List NotificationChannel) (created : List CreatedTask) : History :=
  created.filterMap fun t =>
    (typeByChannelId channels t.channelId).map fun type => ⟨.enqueueTask t.id type, .ok ()⟩

/-- The operations of a routing that ran to completion, with their answers. -/
def routingEntries (messageId : Id) (channels : List NotificationChannel)
    (created : List CreatedTask) : History :=
  ⟨.findEnabledNotificationChannels, .ok channels⟩ ::
    if channels = [] then []
    else ⟨.createNotificationTasks messageId (channels.map NotificationChannel.id), .ok created⟩ ::
      enqueueEntries channels created

/-- A trace that ends with the whole routing of a message. -/
def Routed (messageId : Id) (trace : History) : Prop :=
  ∃ before channels created, trace = before ++ routingEntries messageId channels created

/-- The entry is one of a routing that completes. -/
def completes : Entry Op Answer ApiError → Bool
  | ⟨.findEnabledNotificationChannels, r⟩ => r.isOk
  | ⟨.createNotificationTasks _ _, r⟩ => r.isOk
  | ⟨.enqueueTask _ _, r⟩ => r.isOk
  | _ => false

theorem completes_of_mem_routingEntries {messageId : Id} {channels : List NotificationChannel}
    {created : List CreatedTask} {e : Entry Op Answer ApiError}
    (he : e ∈ routingEntries messageId channels created) :
    completes e = true ∧ e.answered = true := by
  unfold routingEntries at he
  rcases List.mem_cons.mp he with rfl | he
  · exact ⟨rfl, rfl⟩
  · split_ifs at he
    · simp at he
    · rcases List.mem_cons.mp he with rfl | he
      · exact ⟨rfl, rfl⟩
      · obtain ⟨t, -, ht⟩ := List.mem_filterMap.mp he
        obtain ⟨type, -, rfl⟩ := Option.map_eq_some_iff.mp ht
        exact ⟨rfl, rfl⟩

theorem Routed.getLast {messageId : Id} {trace : History} (h : Routed messageId trace) :
    ∃ e ∈ trace.getLast?, completes e = true := by
  obtain ⟨before, channels, created, rfl⟩ := h
  have hne : routingEntries messageId channels created ≠ [] := by simp [routingEntries]
  refine ⟨(routingEntries messageId channels created).getLast hne, ?_, ?_⟩
  · rw [List.getLast?_append, List.getLast?_eq_some_getLast hne]
    rfl
  · exact (completes_of_mem_routingEntries (List.getLast_mem hne)).1

/-! ## Journals -/

/-- The call has added these entries to the journal it started with. -/
def Answered (h h' : History) : Prop := ∃ new, h' = new ++ h ∧ ∀ e ∈ new, e.answered = true

/-- An operation has failed, and the journal does not end with a routing. -/
def Broken (h h' : History) : Prop :=
  (∃ new, h' = new ++ h ∧ ∃ e ∈ new, e.answered = false) ∧ ∀ e ∈ h'.head?, completes e = false

theorem Answered.refl (h : History) : Answered h h := ⟨[], rfl, by simp⟩

theorem Answered.cons {h h' : History} (ha : Answered h h') (op : Op) (a : Answer op) :
    Answered h (⟨op, .ok a⟩ :: h') := by
  obtain ⟨new, rfl, hnew⟩ := ha
  refine ⟨_ :: new, rfl, fun e he => ?_⟩
  rcases List.mem_cons.mp he with rfl | he
  · rfl
  · exact hnew e he

theorem Answered.trans {h h' h'' : History} (ha : Answered h h') (ha' : Answered h' h'') :
    Answered h h'' := by
  obtain ⟨new, rfl, hnew⟩ := ha
  obtain ⟨new', rfl, hnew'⟩ := ha'
  refine ⟨new' ++ new, (List.append_assoc _ _ _).symm, fun e he => ?_⟩
  rcases List.mem_append.mp he with he | he
  · exact hnew' e he
  · exact hnew e he

theorem Answered.broken {h h' : History} (ha : Answered h h') (op : Op) (error : ApiError) :
    Broken h (⟨op, .error error⟩ :: h') := by
  obtain ⟨new, rfl, -⟩ := ha
  refine ⟨⟨_ :: new, rfl, _, List.mem_cons_self, rfl⟩, ?_⟩
  intro e he
  obtain rfl := Option.some_inj.mp he
  cases op <;> rfl

theorem Broken.trans {h h' h'' : History} (ha : Answered h h') (hb : Broken h' h'') :
    Broken h h'' := by
  obtain ⟨new, rfl, -⟩ := ha
  obtain ⟨⟨new', rfl, e, he, hfailed⟩, hhead⟩ := hb
  exact ⟨⟨new' ++ new, (List.append_assoc _ _ _).symm, e, List.mem_append_left _ he, hfailed⟩,
    hhead⟩

theorem Broken.cons {h h' : History} (hb : Broken h h') {e : Entry Op Answer ApiError}
    (he : completes e = false) : Broken h (e :: h') := by
  obtain ⟨⟨new, rfl, e', he', hfailed⟩, -⟩ := hb
  refine ⟨⟨e :: new, rfl, e', List.mem_cons_of_mem _ he', hfailed⟩, fun x hx => ?_⟩
  obtain rfl := Option.some_inj.mp hx
  exact he

theorem Broken.not_routed {h h' : History} (hb : Broken h h') (messageId : Id) :
    ¬ Routed messageId h'.reverse := by
  intro hrouted
  obtain ⟨e, he, hcompletes⟩ := hrouted.getLast
  rw [List.getLast?_reverse] at he
  exact absurd (hb.2 e he) (by simp [hcompletes])

/-! ## The routing -/

/-- The part of the call has added its entries, and no message is lost. -/
def Adds (s : Store) (h : History) (entries : List NotificationChannel → List CreatedTask → History)
    (s' : Store) (h' : History) : Except ApiError Unit → Prop
  | .ok _ => s.messages ⊆ s'.messages ∧
      ∃ channels created, h' = (entries channels created).reverse ++ h
  | .error _ => s.messages ⊆ s'.messages ∧ Broken h h'

theorem enqueueAll_logs (channels : List NotificationChannel)
    (created : List CreatedTask) (s : Store)
    (h : History) : (created.forM (enqueueCreated channels)).Logs Effect
      (Adds s h fun _ _ => enqueueEntries channels created) s h := by
  induction created generalizing s h with
  | nil => exact ⟨fun _ hm => hm, [], [], rfl⟩
  | cons t rest ih =>
      change ((enqueueCreated channels t).bind fun _ =>
        rest.forM (enqueueCreated channels)).Logs _ _ _ _
      unfold enqueueCreated
      cases htype : typeByChannelId channels t.channelId with
      | none =>
          have hentries : enqueueEntries channels (t :: rest) = enqueueEntries channels rest := by
            simp [enqueueEntries, htype]
          rw [hentries]
          exact ih s h
      | some type =>
          have hentries : enqueueEntries channels (t :: rest) =
              ⟨.enqueueTask t.id type, .ok ()⟩ :: enqueueEntries channels rest := by
            simp [enqueueEntries, htype]
          refine (Program.logs_call Effect _ _ _ s h).mpr fun r s' heffect => ?_
          have hmessages : s.messages ⊆ s'.messages := heffect.grows.messages
          cases r with
          | error e => exact ⟨hmessages, (Answered.refl h).broken _ e⟩
          | ok a =>
              refine (ih s' (⟨.enqueueTask t.id type, .ok a⟩ :: h)).mono (fun _ _ h => h) ?_
              rintro ⟨s'', h''⟩ (e | _) ⟨hmessages', hadds⟩
              · exact ⟨List.Subset.trans hmessages hmessages',
                  hadds.trans ((Answered.refl h).cons _ a)⟩
              · obtain ⟨_, _, rfl⟩ := hadds
                refine ⟨List.Subset.trans hmessages hmessages', [], [], ?_⟩
                rw [hentries, List.reverse_cons, List.append_assoc]
                rfl

theorem routeToEnabledChannels_logs (messageId : Id) (s : Store) (h : History) :
    (routeToEnabledChannels messageId).Logs Effect (Adds s h (routingEntries messageId)) s h := by
  refine (Program.logs_call Effect _ _ _ s h).mpr fun r s₁ heffect => ?_
  have hmessages₁ : s.messages ⊆ s₁.messages := heffect.grows.messages
  cases r with
  | error e => exact ⟨hmessages₁, (Answered.refl h).broken _ e⟩
  | ok channels =>
      have hfound := (Answered.refl h).cons .findEnabledNotificationChannels channels
      change (if channels = [] then _ else _ : Api Unit).Logs _ _ _ _
      split_ifs with hnone
      · exact ⟨hmessages₁, channels, [], by simp [routingEntries, hnone]⟩
      refine (Program.logs_call Effect _ _ _ s₁ _).mpr fun r s₂ heffect => ?_
      have hmessages₂ := List.Subset.trans hmessages₁ heffect.grows.messages
      cases r with
      | error e => exact ⟨hmessages₂, hfound.broken _ e⟩
      | ok created =>
          have hinserted := hfound.cons (.createNotificationTasks messageId
            (channels.map NotificationChannel.id)) created
          refine (enqueueAll_logs channels created s₂ _).mono (fun _ _ h => h) ?_
          rintro ⟨s₃, h₃⟩ (e | _) ⟨hmessages₃, hadds⟩
          · exact ⟨List.Subset.trans hmessages₂ hmessages₃, hadds.trans hinserted⟩
          · obtain ⟨_, _, rfl⟩ := hadds
            refine ⟨List.Subset.trans hmessages₂ hmessages₃, channels, created, ?_⟩
            simp [routingEntries, hnone]

/-! ## The whole call -/

def HasMessage (input : NormalizedMessage) (s : Store) (m : Message) : Prop :=
  m ∈ s.messages ∧ messageKey m = (input.source, input.externalId)

def Found (input : NormalizedMessage) (h : History) (s' : Store) (h' : History)
    (found : MessageWithTarget × Bool) : Prop :=
  HasMessage input s' found.1.message ∧ Answered h h'

/-- A call returns with its message stored and routed, and is broken off otherwise. -/
def Ended (input : NormalizedMessage) (h : History) (s' : Store) (h' : History) :
    Except ApiError MessageDto → Prop
  | .ok dto => (∃ m, HasMessage input s' m ∧ m.id = dto.id) ∧ Answered h h' ∧
      Routed dto.id h'.reverse
  | .error _ => Broken h h'

theorem hasMessage_of_find {input : NormalizedMessage} {s : Store} {m : MessageWithTarget}
    (h : (messageByKey? s input.source input.externalId).bind (withTarget? s) = some m) :
    HasMessage input s m.message := by
  obtain ⟨row, hrow, htarget⟩ := Option.bind_eq_some_iff.mp h
  obtain ⟨target, -, rfl⟩ := Option.map_eq_some_iff.mp htarget
  exact ⟨List.mem_of_find?_eq_some hrow, by simpa [messageKey] using List.find?_some hrow⟩

/-- A creation that fails leaves the key as it was found: free. -/
theorem findOrCreate_logs (input : NormalizedMessage) (target : MonitorTarget) {s₀ : Store}
    {h₀ h : History} (ha : Answered h₀ h) : (findOrCreate input target).Logs Effect
      (Program.Leads (Found input h₀) (Ended input h₀)) s₀ h := by
  refine (Program.logs_call Effect _ _ _ s₀ h).mpr fun r s heffect => ?_
  cases heffect with
  | failed => exact ha.broken _ _
  | message =>
      cases hfind : (messageByKey? s₀ input.source input.externalId).bind (withTarget? s₀) with
      | some existing => exact ⟨hasMessage_of_find hfind, ha.cons _ _⟩
      | none =>
          have hnone := ha.cons (.findUniqueBySourceExternalId input.source input.externalId) none
          refine (Program.logs_call Effect _ _ _ s₀ _).mpr fun r s heffect => ?_
          cases heffect with
          | @created _ publishedAt owner _ _ _ =>
              exact ⟨⟨List.mem_append_right _ List.mem_cons_self, rfl⟩, hnone.cons _ _⟩
          | @failed _ error _ =>
              have hbroken := hnone.broken (.createMessage (messageData input target)) error
              change (if _ then _ else _ : Api _).Logs _ _ _ _
              split_ifs
              · exact hbroken
              refine (Program.logs_call Effect _ _ _ s₀ _).mpr fun r s heffect => ?_
              cases heffect with
              | failed => exact hbroken.cons rfl
              | message =>
                  rw [hfind]
                  exact hbroken.cons rfl

theorem finish_logs {input : NormalizedMessage} {m : MessageWithTarget} {s : Store} {h₀ h : History}
    (hm : HasMessage input s m.message) (ha : Answered h₀ h) :
    ((routeToEnabledChannels m.message.id).bind fun _ => .ret (toDto m)).Logs Effect
      (Ended input h₀) s h := by
  refine Program.Logs.bind (fun s' h' _ => HasMessage input s' m.message ∧
    Answered h₀ h' ∧ Routed m.message.id h'.reverse) ?_ fun s' h' _ hend => ?_
  · refine (routeToEnabledChannels_logs m.message.id s h).mono (fun _ _ h => h) ?_
    rintro ⟨s', h'⟩ (e | _) ⟨hmessages, hadds⟩
    · exact hadds.trans ha
    · obtain ⟨channels, created, rfl⟩ := hadds
      refine ⟨⟨hmessages hm.1, hm.2⟩, ha.trans ⟨_, rfl, fun e he => ?_⟩, h.reverse,
        channels, created, ?_⟩
      · exact (completes_of_mem_routingEntries (List.mem_reverse.mp he)).2
      · rw [List.reverse_append, List.reverse_reverse]
  · obtain ⟨hm', ha', hrouted⟩ := hend
    exact ⟨⟨m.message, hm', rfl⟩, ha', hrouted⟩

/-- A call whose target exists returns exactly when nothing fails. -/
theorem create_logs (input : NormalizedMessage) {s : Store} {t : MonitorTarget} (h : History)
    (htarget : s.targets.find? (fun t' => t'.type = input.targetType &&
      t'.externalId = input.targetExternalId) = some t) :
    (create input).Logs Effect (Ended input h) s h := by
  have ha := Answered.refl h
  refine (Program.logs_call Effect _ _ _ s h).mpr fun r s' heffect => ?_
  cases heffect with
  | failed => exact ha.broken _ _
  | target =>
      rw [htarget]
      replace ha := ha.cons (.findTargetByTypeExternalId input.targetType input.targetExternalId)
        (some t)
      change ((findOrCreate input t).bind _).Logs _ _ _ _
      refine Program.Logs.bind _ (findOrCreate_logs input t ha) ?_
      rintro s₁ h₁ ⟨m, isNew⟩ ⟨hm, ha₁⟩
      cases isNew with
      | false => exact finish_logs hm ha₁
      | true =>
          refine (Program.logs_call Effect _ _ _ s₁ h₁).mpr fun r s₂ heffect => ?_
          have hm₂ : HasMessage input s₂ m.message := ⟨heffect.grows.messages hm.1, hm.2⟩
          cases r with
          | error e => exact ha₁.broken _ e
          | ok a =>
              have ha₂ := ha₁.cons (.updateTargetLastMessageAt t.id input.publishedAt) a
              refine (Program.logs_call Effect _ _ _ s₂ _).mpr fun r s₃ heffect => ?_
              have hm₃ : HasMessage input s₃ m.message := ⟨heffect.grows.messages hm₂.1, hm₂.2⟩
              cases r with
              | error e => exact ha₂.broken _ e
              | ok a => exact finish_logs hm₃ (ha₂.cons (.emit _) a)

end SocialMonitor.Messages

import SocialMonitor.Async.Facts
import SocialMonitor.Messages.Routing

/-!
# Deduplication under concurrency

However the operations of concurrent calls of `create` interleave and whichever
of them fail, calls for one key return one message, a message is announced at
most once, and a task is handed to the queue at most once.
-/

namespace SocialMonitor.Messages

open Async

/-! ## Facts about entries -/

/-- What an entry tells is in the tables. -/
structure Recorded (e : Entry Op Answer ApiError) (s : Store) : Prop where
  message : ∀ source externalId, ∀ m ∈ messageOf? source externalId e,
    m.message ∈ s.messages ∧ m.message.source = source ∧ m.message.externalId = externalId
  created : ∀ id ∈ createdIds e, ∃ m ∈ s.messages, m.id = id
  inserted : ∀ p ∈ insertedTasks e, ∃ row ∈ s.tasks,
    row.id = p.2.id ∧ row.messageId = p.1 ∧ row.channelId = p.2.channelId
  channels : ∀ c ∈ foundChannels e, ∃ c' ∈ s.channels, c'.id = c.id ∧ c'.type = c.type

theorem Recorded.grows {e : Entry Op Answer ApiError} {s s' : Store} (he : Recorded e s)
    (hs : Grows s s') : Recorded e s' := by
  constructor
  · intro source externalId m hm
    obtain ⟨hmem, hkey⟩ := he.message source externalId m hm
    exact ⟨hs.messages hmem, hkey⟩
  · intro id hid
    obtain ⟨m, hm, heq⟩ := he.created id hid
    exact ⟨m, hs.messages hm, heq⟩
  · intro p hp
    obtain ⟨row, hrow, hfields⟩ := he.inserted p hp
    exact ⟨row, hs.tasks hrow, hfields⟩
  · intro c hc
    obtain ⟨c', hc', hid, htype⟩ := he.channels c hc
    obtain ⟨c'', hc'', hid', htype'⟩ := hs.channels c' hc'
    exact ⟨c'', hc'', hid'.trans hid, htype'.trans htype⟩

theorem Effect.recorded {s s' : Store} {op : Op} {r : Except ApiError (Answer op)}
    (h : Effect s op r s') : Recorded ⟨op, r⟩ s' := by
  cases h with
  | @message source externalId =>
      refine ⟨?_, by simp [createdIds], by simp [insertedTasks], by simp [foundChannels]⟩
      intro source' externalId' m hm
      simp only [messageOf?, Option.mem_def, Option.ite_none_right_eq_some] at hm
      obtain ⟨⟨rfl, rfl⟩, hfound⟩ := hm
      obtain ⟨row, hrow, htarget⟩ := Option.bind_eq_some_iff.mp hfound
      obtain ⟨target, -, rfl⟩ := Option.map_eq_some_iff.mp htarget
      exact ⟨List.mem_of_find?_eq_some hrow, by simpa using List.find?_some hrow⟩
  | @created data publishedAt target =>
      refine ⟨?_, ?_, by simp [insertedTasks], by simp [foundChannels]⟩
      · intro source externalId m hm
        simp only [messageOf?, Option.mem_def, Option.ite_none_right_eq_some,
          Option.some.injEq] at hm
        obtain ⟨⟨rfl, rfl⟩, rfl⟩ := hm
        exact ⟨by simp, rfl, rfl⟩
      · simp [createdIds]
  | @inserted messageId channelIds rows _ hrows =>
      refine ⟨by simp [messageOf?], by simp [createdIds], ?_, by simp [foundChannels]⟩
      intro p hp
      simp only [insertedTasks, List.map_map, List.mem_map, Function.comp_apply] at hp
      obtain ⟨row, hrow, rfl⟩ := hp
      exact ⟨row, List.mem_append_right _ hrow, rfl, (hrows row hrow).1, rfl⟩
  | channels =>
      refine ⟨by simp [messageOf?], by simp [createdIds], by simp [insertedTasks], ?_⟩
      intro c hc
      exact ⟨c, (List.mem_filter.mp hc).1, rfl, rfl⟩
  | _ => exact ⟨by simp [messageOf?], by simp [createdIds], by simp [insertedTasks],
      by simp [foundChannels]⟩

/-! ## Facts about runs -/

variable {P₀ P : MessagePool} {allowed : MessagePool → MessageEvent → Prop}

theorem calls_conform (hinit : P₀.calls = []) (hrun : system.Run allowed P₀ P) :
    ∀ c ∈ P.calls, Lawful Possible Protocol c.history ∧
      c.rest.Conforms Possible Protocol (Done c.label) c.history :=
  hrun.conforms hinit (fun _ => Protocol) create_conforms
    fun P _ choice _ op _ _ _ _ => (exec_effect choice op P.store).possible

theorem keyed_of_run (hkeyed : Keyed P₀.store) (hrun : system.Run allowed P₀ P) :
    Keyed P.store :=
  hrun.store hkeyed (fun choice op s hs => (exec_effect choice op s).keyed hs)
    fun change _ hs => change.keyed hs

theorem recorded_of_run (hinit : P₀.calls = []) (hrun : system.Run allowed P₀ P) :
    ∀ c ∈ P.calls, ∀ e ∈ c.history, Recorded e P.store :=
  hrun.facts hinit (fun P choice op _ => (exec_effect choice op P.store).recorded)
    (fun _ choice op s he => he.grows (exec_effect choice op s).grows)
    fun _ change s he => he.grows (change.grows s)

theorem Effect.created_fresh {s s' : Store} {op : Op} {r : Except ApiError (Answer op)}
    (h : Effect s op r s') : (createdIds ⟨op, r⟩).Nodup ∧
      ∀ n ∈ createdIds ⟨op, r⟩, s.nextId ≤ n ∧ n < s'.nextId := by
  cases h <;> simp [createdIds, messageRow]

theorem Effect.inserted_fresh {s s' : Store} {op : Op} {r : Except ApiError (Answer op)}
    (h : Effect s op r s') : (insertedIds ⟨op, r⟩).Nodup ∧
      ∀ n ∈ insertedIds ⟨op, r⟩, s.nextId ≤ n ∧ n < s'.nextId := by
  cases h with
  | @inserted messageId channelIds rows hids _ =>
      have heq : insertedIds ⟨.createNotificationTasks messageId channelIds,
          .ok (rows.map fun t => ⟨t.id, t.channelId⟩)⟩ = List.range' s.nextId rows.length := by
        rw [← hids]
        simp [insertedIds, insertedTasks]
      rw [heq]
      exact ⟨List.nodup_range', fun n hn => List.mem_range'_1.mp hn⟩
  | _ => simp [insertedIds, insertedTasks]

theorem createdIds_of_run (hinit : P₀.calls = []) (hrun : system.Run allowed P₀ P) :
    (P.collect createdIds).Nodup ∧
      ∀ n ∈ P.collect createdIds, P₀.store.nextId ≤ n ∧ n < P.store.nextId :=
  hrun.collect_fresh Store.nextId hinit
    (fun choice op s => (exec_effect choice op s).created_fresh)
    (fun choice op s => (exec_effect choice op s).grows.nextId)
    fun change s => (change.grows s).nextId

theorem insertedIds_of_run (hinit : P₀.calls = []) (hrun : system.Run allowed P₀ P) :
    (P.collect insertedIds).Nodup ∧
      ∀ n ∈ P.collect insertedIds, P₀.store.nextId ≤ n ∧ n < P.store.nextId :=
  hrun.collect_fresh Store.nextId hinit
    (fun choice op s => (exec_effect choice op s).inserted_fresh)
    (fun choice op s => (exec_effect choice op s).grows.nextId)
    fun change s => (change.grows s).nextId

theorem emitted_once {h : History} (hh : Lawful Possible Protocol h) :
    (h.flatMap emittedIds).Nodup ∧ h.flatMap emittedIds ⊆ h.flatMap createdIds := by
  refine hh.used_once fun h op r hbefore _ => ?_
  cases op with
  | emit event =>
      obtain ⟨id, source, targetName, rfl, hcreated, hnew⟩ := hbefore
      refine ⟨List.nodup_singleton _, fun b hb => ?_⟩
      obtain rfl := List.mem_singleton.mp hb
      exact ⟨hcreated, hnew⟩
  | _ => simp [emittedIds]

theorem enqueued_once {h : History} (hh : Lawful Possible Protocol h) :
    (h.flatMap enqueuedIds).Nodup ∧ h.flatMap enqueuedIds ⊆ h.flatMap insertedIds := by
  refine hh.used_once fun h op r hbefore _ => ?_
  cases op with
  | enqueueTask taskId type =>
      obtain ⟨hinserted, hnew, -⟩ := hbefore
      refine ⟨List.nodup_singleton _, fun b hb => ?_⟩
      obtain rfl := List.mem_singleton.mp hb
      exact ⟨hinserted, hnew⟩
  | _ => simp [enqueuedIds, enqueueCalls]

theorem enqueuedIds_of_run (hinit : P₀.calls = []) (hrun : system.Run allowed P₀ P) :
    (P.collect enqueuedIds).Nodup :=
  Pool.collect_nodup_of_subset (insertedIds_of_run hinit hrun).1 fun c hc =>
    enqueued_once (calls_conform hinit hrun c hc).1

/-! ## The theorem -/

structure Deduplicated (P : MessagePool) : Prop where
  sameMessage : ∀ c ∈ P.calls, ∀ c' ∈ P.calls, ∀ dto dto', c.Returned dto → c'.Returned dto' →
    c.label.source = c'.label.source → c.label.externalId = c'.label.externalId →
      dto.id = dto'.id
  announcedOnce : (P.collect emittedIds).Nodup
  announcedStored : ∀ id ∈ P.collect emittedIds, ∃ m ∈ P.store.messages, m.id = id
  enqueuedOnce : ((P.collect enqueueCalls).map Prod.fst).Nodup
  enqueuedType : ∀ p ∈ P.collect enqueueCalls, channelTypeOf? P.store p.1 = some p.2

theorem create_deduplicates (hinit : P₀.calls = []) (hkeyed : Keyed P₀.store)
    (hrun : system.Run allowed P₀ P) : Deduplicated P := by
  have hkeyed := keyed_of_run hkeyed hrun
  have hrecorded := recorded_of_run hinit hrun
  have hcalls := calls_conform hinit hrun
  have hemitted := fun c hc => emitted_once (hcalls c hc).1
  constructor
  · have hreturned : ∀ c ∈ P.calls, ∀ dto, c.Returned dto → ∃ m ∈ P.store.messages,
        m.id = dto.id ∧ m.source = c.label.source ∧ m.externalId = c.label.externalId := by
      intro c hc dto hdto
      have hdone := (hcalls c hc).2
      rw [Call.outcome?_eq_some.mp hdto] at hdone
      obtain ⟨m, hid, e, he, hm⟩ := hdone.ended.returned dto rfl
      obtain ⟨hmem, hkey⟩ := (hrecorded c hc e he).message _ _ m hm
      exact ⟨m.message, hmem, hid, hkey⟩
    intro c hc c' hc' dto dto' hdto hdto' hsource hext
    obtain ⟨m, hm, hid, hs, he⟩ := hreturned c hc dto hdto
    obtain ⟨m', hm', hid', hs', he'⟩ := hreturned c' hc' dto' hdto'
    rw [← hid, ← hid', hkeyed.messages m hm m' hm'
      (by simp [messageKey, hs, hs', he, he', hsource, hext])]
  · exact Pool.collect_nodup_of_subset (createdIds_of_run hinit hrun).1 hemitted
  · intro id hid
    obtain ⟨c, hc, e, he, hid⟩ := Pool.mem_collect.mp hid
    obtain ⟨e', he', hid'⟩ := List.mem_flatMap.mp
      ((hemitted c hc).2 (List.mem_flatMap.mpr ⟨e, he, hid⟩))
    exact (hrecorded c hc e' he').created id hid'
  · have hsame : (P.collect enqueueCalls).map Prod.fst = P.collect enqueuedIds := by
      simp only [Pool.collect, List.map_flatMap]
      rfl
    rw [hsame]
    exact enqueuedIds_of_run hinit hrun
  · rintro ⟨taskId, type⟩ hp
    obtain ⟨c, hc, ⟨op, answer⟩, he, hp⟩ := Pool.mem_collect.mp hp
    obtain ⟨h, hsuffix, hbefore⟩ := (hcalls c hc).1.admitted he
    cases op with
    | enqueueTask taskId' type' =>
        obtain ⟨rfl, rfl⟩ : taskId = taskId' ∧ type = type' := by simpa [enqueueCalls] using hp
        obtain ⟨-, -, p, hinserted, rfl, channel, hchannel, hid, rfl⟩ := hbefore
        obtain ⟨e, he, hinserted⟩ := List.mem_flatMap.mp hinserted
        obtain ⟨e', he', hchannel⟩ := List.mem_flatMap.mp hchannel
        obtain ⟨row, hrow, hrowId, -, hrowChannel⟩ :=
          (hrecorded c hc e (hsuffix.subset he)).inserted p hinserted
        obtain ⟨c', hc', hid', htype'⟩ :=
          (hrecorded c hc e' (hsuffix.subset he')).channels channel hchannel
        rw [← hrowId, ← htype']
        exact hkeyed.channelTypeOf?_eq hrow hc' (hid'.trans (hid.trans hrowChannel.symm))
    | _ => simp [enqueueCalls] at hp

/-! ## A race -/

def oneChannel : Store where
  targets := [⟨1, .tgChannel, "channel", none, "-1001", true, none, 0⟩]
  messages := []
  channels := [⟨2, "bot", .telegram, true, .null, 0⟩]
  tasks := []
  jobs := []
  events := []
  nextId := 3

def sampleMessage : NormalizedMessage where
  source := .telegram
  externalId := "-1001:7"
  targetExternalId := "-1001"
  targetType := .tgChannel
  targetName := "channel"
  author := none
  content := "text"
  url := none
  publishedAt := some 0

/-- Both calls miss the message; the second one loses the race. -/
def race : List MessageEvent :=
  [.spawn sampleMessage, .spawn sampleMessage, .perform 0 calm, .perform 1 calm,
    .perform 0 calm, .perform 1 calm, .perform 0 calm, .perform 1 calm, .perform 1 calm,
    .perform 1 calm, .perform 0 calm, .perform 0 calm, .perform 0 calm, .perform 0 calm,
    .perform 1 calm, .perform 0 calm]

theorem oneChannel_keyed : Keyed oneChannel :=
  ⟨by simp [oneChannel, Table.Unique], ⟨by decide, by decide⟩, ⟨by decide, by decide⟩⟩

theorem create_deduplicates_race :
    Deduplicated (system.runList ⟨oneChannel, []⟩ race) := by
  have hrun : system.Run (fun _ _ => True) ⟨oneChannel, []⟩
      (system.runList ⟨oneChannel, []⟩ race) := Machine.Run.refl.list (by decide)
  exact create_deduplicates rfl oneChannel_keyed hrun

/-- Both have returned the one stored message, and its task is in the queue. -/
example :
    let P := system.runList ⟨oneChannel, []⟩ race
    P.calls.map (fun c => (c.outcome?).isSome) = [true, true] ∧
      P.store.messages.length = 1 ∧ P.store.jobs.length = 1 := by
  decide

end SocialMonitor.Messages

import SocialMonitor.Js.Decimal
import SocialMonitor.Messages.Dedup
import SocialMonitor.Telegram.Ingest
import SocialMonitor.Telegram.Reachable

/-!
# What ingesting a message does

One run of `ingest` from a reachable store, and two runs for different
messages.  The key of a message is read from its last colon, so that no two
messages share one even if the identifier of a chat contains colons.
-/

namespace SocialMonitor.Telegram

open Async Messages

/-! ## Keys -/

/-- The last occurrence of `a` splits a list in one way. -/
theorem append_cons_inj {α : Type} {a : α} {xs xs' ys ys' : List α} (hys : a ∉ ys)
    (hys' : a ∉ ys') (h : xs ++ a :: ys = xs' ++ a :: ys') : xs = xs' ∧ ys = ys' := by
  rcases List.append_eq_append_iff.mp h with ⟨gap, hxs, hrest⟩ | ⟨gap, hxs, hrest⟩
  · cases gap with
    | nil => exact ⟨by simpa using hxs.symm, (List.cons.inj hrest).2⟩
    | cons b gap =>
        refine absurd ?_ hys
        rw [(List.cons.inj hrest).2]
        simp
  · cases gap with
    | nil => exact ⟨by simpa using hxs, ((List.cons.inj hrest).2).symm⟩
    | cons b gap =>
        refine absurd ?_ hys'
        rw [(List.cons.inj hrest).2]
        simp

theorem buildExternalId_toList (chatId : String) (messageId : SafeInteger) :
    (buildExternalId chatId messageId).toList = chatId.toList ++
      ':' :: Js.decimal messageId.val := by
  have htext : buildExternalId chatId messageId =
      chatId ++ ":" ++ String.ofList (Js.decimal messageId.val) := by
    rw [← Js.toString_int]
    rfl
  simp [htext]

theorem colon_notMem_decimal (n : ℤ) : ':' ∉ Js.decimal n := fun h => by
  rcases Js.mem_decimal h with h | h <;> exact absurd h (by decide)

theorem buildExternalId_injective {chatId chatId' : String} {messageId messageId' : SafeInteger}
    (h : buildExternalId chatId messageId = buildExternalId chatId' messageId') :
    chatId = chatId' ∧ messageId.val = messageId'.val := by
  have hlist := congrArg String.toList h
  rw [buildExternalId_toList, buildExternalId_toList] at hlist
  obtain ⟨hchat, hid⟩ := append_cons_inj (colon_notMem_decimal _) (colon_notMem_decimal _) hlist
  exact ⟨String.toList_inj.mp hchat, Js.decimal_injective hid⟩

/-! ## One run -/

def messageKeyOf (payload : IngestTelegramMessageDto) : MessageSource × String :=
  (.telegram, buildExternalId payload.chatId payload.messageId)

def Monitored (s : Store) (chatId : String) : Prop :=
  ∃ t ∈ s.targets, isTelegram t.type = true ∧ t.externalId = chatId ∧ t.enabled = true

theorem mem_telegramTargets {s : Store} {chatId : String} {t : MonitorTarget} :
    t ∈ telegramTargets s chatId ↔
      t ∈ s.targets ∧ isTelegram t.type = true ∧ t.externalId = chatId ∧ t.enabled = true := by
  simp [telegramTargets, and_assoc]

/-- The row of a message that came with the payload. -/
structure Carries (s : Store) (payload : IngestTelegramMessageDto) (m : Message) : Prop where
  target : ∃ t ∈ s.targets, t.id = m.targetId ∧ isTelegram t.type = true ∧
    t.externalId = payload.chatId ∧ t.enabled = true
  content : m.content = payload.content.getD ""
  authorExternalId : m.authorExternalId = payload.sender.bind RawTelegramSender.id
  authorUsername : m.authorUsername = payload.sender.bind RawTelegramSender.username
  authorName : m.authorName = payload.sender.bind displayName
  date : publishedAt payload.date = some m.publishedAt

/-- A whole number of seconds is stored as its milliseconds. -/
theorem Carries.seconds {s : Store} {payload : IngestTelegramMessageDto} {m : Message}
    (h : Carries s payload m) {n : ℤ} (hdate : payload.date.val = n)
    (hn : |n * 1000| ≤ Js.maxTime) : m.publishedAt = n * 1000 := by
  have htime : publishedAt payload.date = some (n * 1000) :=
    Js.timeClip_mul_thousand hdate (by norm_num [Js.thousand, Js.Double.ofInt]) hn
  exact Option.some_inj.mp (h.date.symm.trans htime)

/-- The message of the key is stored, and carries the payload if it is new. -/
def Stored (s₀ : Store) (payload : IngestTelegramMessageDto) (s : Store) : Prop :=
  ∃ m ∈ s.messages, messageKey m = messageKeyOf payload ∧
    ((∀ m₀ ∈ s₀.messages, messageKey m₀ ≠ messageKeyOf payload) → Carries s₀ payload m)

theorem Stored.grows {s₀ s s' : Store} {payload : IngestTelegramMessageDto}
    (h : Stored s₀ payload s) (hs : Grows s s') : Stored s₀ payload s' := by
  obtain ⟨m, hm, hkey⟩ := h
  exact ⟨m, hs.messages hm, hkey⟩

def FaultFree (op : Op) (s : Store) (r : Except ApiError (Answer op)) (s' : Store) : Prop :=
  ∃ c : Choice, c.fault = none ∧ (r, s') = exec c op s

theorem FaultFree.grows {op : Op} {s s' : Store} {r : Except ApiError (Answer op)}
    (h : FaultFree op s r s') : Grows s s' := by
  obtain ⟨c, -, heq⟩ := h
  have hgrows := (exec_effect c op s).grows
  rwa [← heq] at hgrows

theorem FaultFree.telegramTarget {externalId : String} {s s' : Store}
    {r : Except ApiError (Option MonitorTarget)}
    (h : FaultFree (.findTelegramTargetByExternalId externalId) s r s') :
    (∃ pick, r = .ok (telegramTargets s externalId)[
      pick % (telegramTargets s externalId).length]?) ∧ s' = s := by
  obtain ⟨c, hc, heq⟩ := h
  obtain ⟨rfl, rfl⟩ := Prod.mk.inj (heq.trans (Choice.query_of_fault_none hc s _))
  exact ⟨⟨c.pick, rfl⟩, rfl⟩

theorem FaultFree.target {type : MonitorType} {externalId : String} {s s' : Store}
    {r : Except ApiError (Option MonitorTarget)}
    (h : FaultFree (.findTargetByTypeExternalId type externalId) s r s') :
    r = .ok (s.targets.find? fun t => t.type = type && t.externalId = externalId) ∧ s' = s := by
  obtain ⟨c, hc, heq⟩ := h
  exact Prod.mk.inj (heq.trans (Choice.query_of_fault_none hc s _))

theorem FaultFree.message {source : MessageSource} {externalId : String} {s s' : Store}
    {r : Except ApiError (Option MessageWithTarget)}
    (h : FaultFree (.findUniqueBySourceExternalId source externalId) s r s') :
    r = .ok ((messageByKey? s source externalId).bind (withTarget? s)) ∧ s' = s := by
  obtain ⟨c, hc, heq⟩ := h
  exact Prod.mk.inj (heq.trans (Choice.query_of_fault_none hc s _))

theorem FaultFree.create {data : MessageCreateInput} {s s' : Store}
    {r : Except ApiError MessageWithTarget} (h : FaultFree (.createMessage data) s r s') :
    (r, s') = createMessage data s := by
  obtain ⟨c, hc, heq⟩ := h
  exact heq.trans (Choice.query_of_fault_none hc s _)

theorem Stored.rest {α : Type} {s₀ s : Store} {payload : IngestTelegramMessageDto} (p : Api α)
    (h : Stored s₀ payload s) :
    p.Obeys FaultFree (fun _ _ => True) (fun s' _ => Stored s₀ payload s') s :=
  Program.obeys_of_stable p (fun _ _ _ _ hstep hs => hs.grows hstep.grows) h

theorem create_stores {s : Store} (hs : Sound s) {payload : IngestTelegramMessageDto}
    {t : MonitorTarget} (ht : t ∈ telegramTargets s payload.chatId) {time : Time}
    (htime : publishedAt payload.date = some time) :
    (create (toNormalizedMessage t
      ⟨payload.chatId, payload.messageId, payload.content, payload.date, payload.sender⟩
      (buildExternalId payload.chatId payload.messageId))).Obeys
      FaultFree (fun _ _ => True) (fun s' _ => Stored s payload s') s := by
  obtain ⟨hmem, htype, hchat, henabled⟩ := mem_telegramTargets.mp ht
  have htarget : s.targets.find? (fun t' => t'.type = t.type && t'.externalId = t.externalId) =
      some t := hs.targetKeys.find? hmem fun t' => by simp [targetKey]
  have htargetId : s.target? t.id = some t := Table.find?_of_nodup hs.targets.nodup hmem
  have hstored : ∀ m ∈ s.messages, messageKey m = messageKeyOf payload → Stored s payload s :=
    fun m hm hkey => ⟨m, hm, hkey, fun hnew => absurd hkey (hnew m hm)⟩
  refine ⟨trivial, fun r s₁ h => ?_⟩
  obtain ⟨hr, rfl⟩ := h.target
  obtain rfl : r = .ok (some t) := hr.trans (congrArg Except.ok htarget)
  cases hkey : messageByKey? s₁ .telegram
      (buildExternalId payload.chatId payload.messageId) with
  | some m =>
      have hm : messageKey m = messageKeyOf payload := by
        simpa [messageKey, messageKeyOf] using List.find?_some hkey
      exact (hstored m (List.mem_of_find?_eq_some hkey) hm).rest _
  | none =>
      refine ⟨trivial, fun r s₂ h => ?_⟩
      obtain ⟨hr, rfl⟩ := h.message
      have hnone : (messageByKey? s₂ .telegram (buildExternalId payload.chatId
          payload.messageId)).bind (withTarget? s₂) = none := by rw [hkey]; rfl
      obtain rfl : r = .ok none := hr.trans (congrArg Except.ok hnone)
      refine ⟨trivial, fun r s₃ h => Stored.rest _ ?_⟩
      obtain ⟨-, rfl⟩ := Prod.mk.inj
        (h.create.trans (createMessage_eq htime hkey htargetId))
      refine ⟨_, List.mem_append_right _ List.mem_cons_self, rfl, fun _ => ?_⟩
      refine ⟨⟨t, hmem, rfl, htype, hchat, henabled⟩, rfl, ?_, ?_, ?_, htime⟩ <;>
        simp [messageRow, messageData, toNormalizedMessage, Option.bind_map]

theorem ingest_stores {s : Store} (hs : Sound s) {expected : String} (hexpected : expected ≠ "")
    {payload : IngestTelegramMessageDto} (hmonitored : Monitored s payload.chatId) {time : Time}
    (htime : publishedAt payload.date = some time) :
    (ingest expected (some expected) payload).Obeys FaultFree (fun _ _ => True)
      (fun s' _ => Stored s payload s') s := by
  obtain ⟨t, ht⟩ := hmonitored
  have hpos : 0 < (telegramTargets s payload.chatId).length :=
    List.length_pos_of_mem (mem_telegramTargets.mpr ht)
  have hauth : ¬ (expected = "" ∨ some expected ≠ some expected) := by simp [hexpected]
  unfold ingest
  rw [if_neg hauth]
  refine ⟨trivial, fun r s₁ h => ?_⟩
  obtain ⟨⟨pick, hr⟩, rfl⟩ := h.telegramTarget
  have hlt := Nat.mod_lt pick hpos
  obtain rfl : r = .ok (some (telegramTargets s₁ payload.chatId)[
      pick % (telegramTargets s₁ payload.chatId).length]) :=
    hr.trans (congrArg Except.ok (List.getElem?_eq_getElem hlt))
  have hcreate := create_stores hs (List.getElem_mem hlt) htime
  refine (Program.obeys_handle _ _ _ _ _ _).mpr ((Program.obeys_bind _ _ _ _ _ _).mpr
    (hcreate.mono (fun _ _ h => h) ?_))
  rintro s₂ (error | saved) hstored
  · exact hstored
  · exact hstored

theorem ingest_unmonitored {s : Store} {expected : String} (hexpected : expected ≠ "")
    {payload : IngestTelegramMessageDto} (hmonitored : ¬ Monitored s payload.chatId) :
    (ingest expected (some expected) payload).Obeys FaultFree (fun _ _ => True)
      (fun s' r => s' = s ∧ r = .ok ⟨false, none, some "target_not_monitored"⟩) s := by
  have hnone : telegramTargets s payload.chatId = [] :=
    List.eq_nil_iff_forall_not_mem.mpr fun t ht => hmonitored ⟨t, mem_telegramTargets.mp ht⟩
  have hauth : ¬ (expected = "" ∨ some expected ≠ some expected) := by simp [hexpected]
  unfold ingest
  rw [if_neg hauth]
  refine ⟨trivial, fun r s₁ h => ?_⟩
  obtain ⟨⟨pick, hr⟩, rfl⟩ := h.telegramTarget
  obtain rfl : r = .ok none := by simpa [hnone] using hr
  exact ⟨rfl, rfl⟩

def Answered (payload : IngestTelegramMessageDto) (h : History)
    (r : Except ApiError IngestAnswer) : Prop :=
  ∀ answer id, r = .ok answer → answer.messageId = some id → ∃ m, m.message.id = id ∧
    ∃ e ∈ h, messageOf? .telegram (buildExternalId payload.chatId payload.messageId) e = some m

theorem ingest_conforms (expected : String) (secret : Option String)
    (payload : IngestTelegramMessageDto) :
    (ingest expected secret payload).Conforms Possible Protocol (Answered payload) [] := by
  have hnone : ∀ h reason, Answered payload h (.ok ⟨false, none, some reason⟩) := by
    rintro h reason answer id hanswer hid
    obtain rfl : (⟨false, none, some reason⟩ : IngestAnswer) = answer := by simpa using hanswer
    simp at hid
  unfold ingest
  split_ifs
  · simp [Answered]
  simp only [Program.bind_def, Program.await, Program.obeys_bind, Program.conforms_call,
    Program.ofExcept_error, Program.ofExcept_ok, Program.obeys_ret, Program.obeys_raise,
    Program.Andthen]
  refine ⟨trivial, by simp [Answered], ?_⟩
  rintro (_ | target) -
  · exact hnone _ _
  · have hfind : Unrouted [⟨.findTelegramTargetByExternalId payload.chatId,
        .ok (some target)⟩] := by simp [Unrouted, routes]
    simp only [Program.tryCatch_def, Program.obeys_handle, Program.obeys_bind]
    refine (create_conforms_from hfind rfl _).mono (fun _ _ h => h) ?_
    rintro h (error | saved) hdone
    · exact hnone _ _
    · rintro answer id hanswer hid
      obtain rfl : (⟨true, some saved.id, none⟩ : IngestAnswer) = answer := by simpa using hanswer
      obtain rfl : saved.id = id := by simpa using hid
      exact hdone.returned saved rfl

/-- What a run has answered with is stored under the key of its payload. -/
theorem ingest_answer {expected : String} {secret : Option String}
    {payload : IngestTelegramMessageDto} {choices : ℕ → Choice} {s : Store} {answer : IngestAnswer}
    {id : Id} (h : ((ingest expected secret payload).run exec choices s).1 = .ok answer)
    (hid : answer.messageId = some id) :
    ∃ m ∈ ((ingest expected secret payload).run exec choices s).2.messages,
      m.id = id ∧ messageKey m = messageKeyOf payload := by
  obtain ⟨h', hanswered, hfacts⟩ := (ingest_conforms expected secret payload).run Recorded
    (fun c op s => (exec_effect c op s).possible) (fun c op s => (exec_effect c op s).recorded)
    (fun e c op s he => he.grows (exec_effect c op s).grows) (by simp)
  obtain ⟨m, rfl, e, he, hm⟩ := hanswered answer id h hid
  obtain ⟨hmem, hsource, hext⟩ := (hfacts e he).message _ _ m hm
  exact ⟨m.message, hmem, rfl, by simp [messageKey, messageKeyOf, hsource, hext]⟩

/-! ## The rows of other messages -/

def Creates (key : MessageSource × String) : Op → Prop
  | .createMessage data => (data.source, data.externalId) = key
  | _ => True

/-- Nor is the target of the chat looked for again. -/
def Stores (key : MessageSource × String) : Op → Prop
  | .findTelegramTargetByExternalId _ => False
  | op => Creates key op

theorem Stores.creates {key : MessageSource × String} {op : Op} (h : Stores key op) :
    Creates key op := by
  cases op <;> first | exact h | exact trivial

theorem create_awaits (input : NormalizedMessage) :
    (create input).Awaits (Stores (input.source, input.externalId)) := by
  have hroute : ∀ id, (routeToEnabledChannels id).Awaits
      (Stores (input.source, input.externalId)) := by
    intro id
    refine (Program.awaits_await trivial).bind fun channels => ?_
    split_ifs
    · exact trivial
    · refine (Program.awaits_await trivial).bind fun created => .forM (fun task => ?_) created
      unfold enqueueCreated
      split
      · exact Program.awaits_await trivial
      · exact trivial
  refine Program.Awaits.bind ?_ fun target => Program.Awaits.bind ?_ fun found => ?_
  · refine (Program.awaits_await trivial).bind fun target => ?_
    cases target <;> exact trivial
  · refine (Program.awaits_await trivial).bind fun existing => ?_
    cases existing with
    | some existing => exact trivial
    | none =>
        have hcreates : Stores (input.source, input.externalId)
          (.createMessage (messageData input target)) := rfl
        refine Program.Awaits.handle
          ((Program.awaits_await hcreates).bind fun message => Program.awaits_ret _) fun error => ?_
        dsimp only
        split_ifs
        · exact trivial
        · refine (Program.awaits_await trivial).bind fun deduped => ?_
          cases deduped <;> exact trivial
  · obtain ⟨message, isNew⟩ := found
    cases isNew with
    | true =>
        refine (Program.awaits_await trivial).bind fun _ =>
          (Program.awaits_await trivial).bind fun _ => (hroute _).bind fun _ => trivial
    | false => exact (hroute _).bind fun _ => trivial

theorem ingest_awaits (expected : String) (secret : Option String)
    (payload : IngestTelegramMessageDto) :
    (ingest expected secret payload).Awaits (Creates (messageKeyOf payload)) := by
  unfold ingest
  split_ifs
  · exact trivial
  · refine (Program.awaits_await trivial).bind fun target => ?_
    cases target with
    | none => exact trivial
    | some target =>
        exact (((create_awaits _).mono fun _ => Stores.creates).bind
          fun saved => Program.awaits_ret _).handle
          fun error => Program.awaits_ret _

/-- The rows of all other keys. -/
def others (key : MessageSource × String) (s : Store) : List Message :=
  s.messages.filter fun m => messageKey m ≠ key

theorem others_of_effect {s s' : Store} {op : Op} {r : Except ApiError (Answer op)}
    (h : Effect s op r s') {key : MessageSource × String} (hop : Creates key op) :
    others key s' = others key s := by
  cases h with
  | @created data publishedAt target _ _ _ =>
      have hkey : messageKey (messageRow data s.nextId publishedAt) = key := hop
      simp [others, List.filter_append, hkey]
  | _ => rfl

theorem ingest_others (expected : String) (secret : Option String)
    (payload : IngestTelegramMessageDto) (choices : ℕ → Choice) (s : Store) :
    others (messageKeyOf payload) ((ingest expected secret payload).run exec choices s).2 =
      others (messageKeyOf payload) s :=
  (ingest_awaits expected secret payload).run
    (fun s' => others (messageKeyOf payload) s' = others (messageKeyOf payload) s)
    (fun c op s' hop hs' => (others_of_effect (exec_effect c op s') hop).trans hs') rfl choices

/-! ## The theorem -/

/-- What one run does that is authorised, meets no failure of the repository and
carries a valid date. -/
structure IngestEnds (s : Store) (payload : IngestTelegramMessageDto) (s' : Store)
    (r : Except ApiError IngestAnswer) : Prop where
  unmonitored : ¬ Monitored s payload.chatId →
    s' = s ∧ r = .ok ⟨false, none, some "target_not_monitored"⟩
  stored : Monitored s payload.chatId →
    (s'.messages.filter fun m => messageKey m = messageKeyOf payload).length = 1
  carries : Monitored s payload.chatId →
    (∀ m ∈ s.messages, messageKey m ≠ messageKeyOf payload) →
      ∀ m ∈ s'.messages, messageKey m = messageKeyOf payload → Carries s payload m
  others : others (messageKeyOf payload) s' = others (messageKeyOf payload) s

theorem ingest_ends {expected : String} (hexpected : expected ≠ "") {s : Store}
    (hs : Reachable s) {payload : IngestTelegramMessageDto} {choices : ℕ → Choice}
    (hfault : ∀ n, (choices n).fault = none) {time : Time}
    (htime : publishedAt payload.date = some time) :
    IngestEnds s payload ((ingest expected (some expected) payload).run exec choices s).2
      ((ingest expected (some expected) payload).run exec choices s).1 := by
  have hexec : ∀ n op s,
      FaultFree op s (exec (choices n) op s).1 (exec (choices n) op s).2 :=
    fun n op s => ⟨choices n, hfault n, rfl⟩
  have hsound := ((reaches_run (ingest expected (some expected) payload) choices s).sound
    hs.sound).1
  have hstored : Monitored s payload.chatId →
      Stored s payload ((ingest expected (some expected) payload).run exec choices s).2 :=
    fun hmonitored => (ingest_stores hs.sound hexpected hmonitored htime).run hexec
  constructor
  · intro hmonitored
    exact (ingest_unmonitored hexpected hmonitored).run hexec
  · intro hmonitored
    obtain ⟨m, hm, hkey, -⟩ := hstored hmonitored
    have hone := hsound.messageKeys.filter_length (hsound.messages.nodup.of_map _) hm
    rwa [hkey] at hone
  · intro hmonitored hnew m hm hkey
    obtain ⟨m', hm', hkey', hcarries⟩ := hstored hmonitored
    rw [hsound.messageKeys m hm m' hm' (hkey.trans hkey'.symm)]
    exact hcarries hnew
  · exact ingest_others expected _ payload choices s

theorem messageKeyOf_ne {payload payload' : IngestTelegramMessageDto}
    (h : (payload.chatId, payload.messageId.val) ≠ (payload'.chatId, payload'.messageId.val)) :
    messageKeyOf payload ≠ messageKeyOf payload' := fun hkey => by
  obtain ⟨hchat, hid⟩ := buildExternalId_injective (Prod.mk.inj hkey).2
  exact h (by rw [hchat, hid])

/-- Two messages of different keys do not answer with one identifier, whatever
happens between them. -/
theorem ingest_apart {expected : String} {s s' : Store}
    {payload payload' : IngestTelegramMessageDto} {choices choices' : ℕ → Choice}
    {answer answer' : IngestAnswer} {id : Id} (hs : Reachable s)
    (hreach : Reaches ((ingest expected (some expected) payload).run exec choices s).2 s')
    (hkey : messageKeyOf payload ≠ messageKeyOf payload')
    (h : ((ingest expected (some expected) payload).run exec choices s).1 = .ok answer)
    (h' : ((ingest expected (some expected) payload').run exec choices' s').1 = .ok answer')
    (hid : answer.messageId = some id) : answer'.messageId ≠ some id := by
  intro hid'
  obtain ⟨m, hm, rfl, hmkey⟩ := ingest_answer h hid
  obtain ⟨m', hm', hsame, hmkey'⟩ := ingest_answer h' hid'
  have hfirst := ((reaches_run (ingest expected (some expected) payload) choices s).sound
    hs.sound).1
  have hlater := (Reaches.sound (hreach.trans
    (reaches_run (ingest expected (some expected) payload') choices' s')) hfirst).2
  -- The row of the second answer was there after the first run.
  rcases hlater.messages m' hm' with hold | hdrawn
  · have heq := List.inj_on_of_nodup_map hfirst.messages.nodup hold hm hsame
    rw [heq] at hmkey'
    exact hkey (hmkey.symm.trans hmkey')
  · have hbelow := hfirst.messages.below m.id (List.mem_map_of_mem hm)
    rw [hsame] at hdrawn
    exact absurd hdrawn hbelow.not_ge

/-- Ingesting stores the message of the payload once, and two payloads for
different messages never meet in one row. -/
theorem ingest_correct {expected : String} (hexpected : expected ≠ "") :
    (∀ s payload choices time, Reachable s → (∀ n, (choices n).fault = none) →
      publishedAt payload.date = some time →
      IngestEnds s payload ((ingest expected (some expected) payload).run exec choices s).2
        ((ingest expected (some expected) payload).run exec choices s).1) ∧
    ∀ s s' payload payload' choices choices' answer answer' id, Reachable s →
      Reaches ((ingest expected (some expected) payload).run exec choices s).2 s' →
      (payload.chatId, payload.messageId.val) ≠ (payload'.chatId, payload'.messageId.val) →
      ((ingest expected (some expected) payload).run exec choices s).1 = .ok answer →
      ((ingest expected (some expected) payload').run exec choices' s').1 = .ok answer' →
      answer.messageId = some id →
        messageKeyOf payload ≠ messageKeyOf payload' ∧ answer'.messageId ≠ some id := by
  constructor
  · intro s payload choices time hs hfault htime
    exact ingest_ends hexpected hs hfault htime
  · intro s s' payload payload' choices choices' answer answer' id hs hreach hne h h' hid
    have hkey := messageKeyOf_ne hne
    exact ⟨hkey, ingest_apart hs hreach hkey h h' hid⟩

/-! ## Two chats -/

/-- A store with a target for each of two chats, one with a colon in its name. -/
def twoChats : Store :=
  (Monitors.exec calm (.create ⟨.tgGroup, "group", none, "-100:1"⟩)
    (Monitors.exec calm (.create ⟨.tgChannel, "channel", none, "-100"⟩) Store.empty).2).2

theorem twoChats_reachable : Reachable twoChats :=
  (Relation.ReflTransGen.single (.monitor _ _)).tail (.monitor _ _)

def sampleMessageId : SafeInteger := ⟨12, by decide⟩

def textOf (chatId : String) : IngestTelegramMessageDto where
  chatId := chatId
  messageId := sampleMessageId
  content := some "text"
  date := .ofInt 1700000000 (by norm_num)
  sender := none

theorem publishedAt_textOf (chatId : String) :
    publishedAt (textOf chatId).date = some 1700000000000 :=
  Js.timeClip_mul_thousand (n := 1700000000) (by norm_num [textOf, Js.Double.ofInt])
    (by norm_num [Js.thousand, Js.Double.ofInt]) (by norm_num [Js.maxTime])

def ingestText (chatId : String) (s : Store) : Except ApiError IngestAnswer × Store :=
  (ingest "secret" (some "secret") (textOf chatId)).run exec (fun _ => calm) s

theorem ingestText_twoChats :
    (ingestText "-100:1" twoChats).1 = .ok ⟨true, some 2, none⟩ ∧
    (ingestText "-100" (ingestText "-100:1" twoChats).2).1 = .ok ⟨true, some 3, none⟩ := by
  have htime : ∀ chatId, publishedAt (textOf chatId).date = some 1700000000000 :=
    publishedAt_textOf
  constructor
  · simp only [ingestText, ingest, toNormalizedMessage, htime]
    rfl
  · simp only [ingestText, ingest, toNormalizedMessage, htime]
    rfl

theorem ingest_correct_twoChats :
    IngestEnds twoChats (textOf "-100:1") (ingestText "-100:1" twoChats).2
      (ingestText "-100:1" twoChats).1 ∧
    messageKeyOf (textOf "-100:1") ≠ messageKeyOf (textOf "-100") ∧
    (⟨true, some 3, none⟩ : IngestAnswer).messageId ≠ some 2 := by
  obtain ⟨hends, hapart⟩ := ingest_correct (show "secret" ≠ "" by decide)
  obtain ⟨hfirst, hsecond⟩ := ingestText_twoChats
  refine ⟨hends _ _ _ _ twoChats_reachable (fun _ => rfl) (publishedAt_textOf "-100:1"), ?_⟩
  exact hapart _ _ _ _ _ _ _ _ 2 twoChats_reachable .refl (by decide) hfirst hsecond rfl

end SocialMonitor.Telegram

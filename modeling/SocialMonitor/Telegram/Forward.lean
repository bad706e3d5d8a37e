import SocialMonitor.Messages.Journal
import SocialMonitor.Telegram.IngestRun

/-!
# Forwarding a message

`on_new_message` and `forward` of the sidecar, which tell from the status of
the response whether the message was ingested, and the route that answers them.
-/

namespace SocialMonitor.Telegram

open Async Messages

/-! ## The sidecar -/

/-- The fields of a Telethon `User`. -/
structure User where
  id : Option ℤ
  username : Option String
  firstName : Option String
  lastName : Option String

/-- The message of a `NewMessage` event, and its sender if that is a user.
Numbers and dates of Telegram have 32 bits. -/
structure NewMessage where
  id : SafeInteger
  message : Option String
  chatId : Option ℤ
  date : Option SafeInteger
  sender : Option User

def SafeInteger.toDouble (n : SafeInteger) : Js.Double := .ofInt n.val (n.safe.trans (by norm_num))

/-- What `on_new_message` hands to `forward`. -/
def payload? (now : SafeInteger) (m : NewMessage) : Option IngestTelegramMessageDto := do
  let content ← m.message
  if content = "" then none
  let chatId ← m.chatId
  return {
    chatId := toString chatId
    messageId := m.id
    content := some content
    date := (m.date.getD now).toDouble
    sender := m.sender.map fun user =>
      ⟨user.id.map toString, user.username, user.firstName, user.lastName⟩ }

/-- How `forward` ends: with nothing done, with `message.ingested` in the log, or
with an error in it. -/
inductive Branch where
  | skipped
  | ingested
  | refused (status : ℕ)
  | failed (error : String)
deriving DecidableEq

def Branch.isError : Branch → Bool
  | .refused _ => true
  | .failed _ => true
  | _ => false

/-- The success branch is taken of what has been ingested, and an error branch otherwise. -/
def Branch.Honest (branch : Branch) (ingested : Prop) : Prop :=
  branch = .ingested ∧ ingested ∨ branch.isError = true

/-- `http` tells whether there is a client session. -/
def forward (http : Bool) (response : Except String ℕ) : Branch :=
  if !http then .skipped
  else
    match response with
    | .ok status => if 400 ≤ status then .refused status else .ingested
    | .error error => .failed error

def onNewMessage (http : Bool) (now : SafeInteger) (m : NewMessage)
    (post : IngestTelegramMessageDto → Except String ℕ) : Branch :=
  match payload? now m with
  | some payload => forward http (post payload)
  | none => .skipped

/-! ## The route -/

/-- The decorators of the DTO, where `length` is what `@MaxLength` counts of a text. -/
def IngestTelegramMessageDto.Accepted (length : String → ℕ) (payload : IngestTelegramMessageDto) :
    Prop :=
  length payload.chatId ≤ 64 ∧ (∀ content ∈ payload.content, length content ≤ 100000) ∧
    ∀ sender ∈ payload.sender, (∀ id ∈ sender.id, length id ≤ 64) ∧
      (∀ username ∈ sender.username, length username ≤ 64) ∧
      (∀ firstName ∈ sender.firstName, length firstName ≤ 64) ∧
      ∀ lastName ∈ sender.lastName, length lastName ≤ 64

instance (length : String → ℕ) (payload : IngestTelegramMessageDto) :
    Decidable (payload.Accepted length) := by
  unfold IngestTelegramMessageDto.Accepted
  infer_instance

def statusOf : ApiError → ℕ
  | .http .badRequest _ _ => 400
  | .http .unauthorized _ _ => 401
  | .http .notFound _ _ => 404
  | .http .conflict _ _ => 409
  | .http .serviceUnavailable _ _ => 503
  | _ => 500

theorem le_statusOf (error : ApiError) : 400 ≤ statusOf error := by
  unfold statusOf
  split <;> norm_num

/-- The way of a request: its response arrives, is lost, or the API is not reached. -/
inductive Link where
  | answered
  | lost (error : String)
  | unreachable (error : String)
deriving DecidableEq

section Route

variable (length : String → ℕ) (expected : String) (secret : Option String)
  (payload : IngestTelegramMessageDto) (choices : ℕ → Choice) (s : Store)

/-- The status of the response, and the store afterwards. -/
def route : ℕ × Store :=
  if payload.Accepted length then
    let ended := (ingest expected secret payload).run exec choices s
    match ended.1 with
    | .ok _ => (201, ended.2)
    | .error error => (statusOf error, ended.2)
  else (400, s)

def routeTrace : History :=
  if payload.Accepted length then (ingest expected secret payload).trace exec choices s else []

/-- What the sidecar learns, the store, and the operations of the API. -/
def post : Link → Except String ℕ × Store × History
  | .answered =>
      (.ok (route length expected secret payload choices s).1,
        (route length expected secret payload choices s).2,
        routeTrace length expected secret payload choices s)
  | .lost error =>
      (.error error, (route length expected secret payload choices s).2,
        routeTrace length expected secret payload choices s)
  | .unreachable error => (.error error, s, [])

end Route

/-- The message is stored, and its tasks are inserted and enqueued. -/
def Ingested (payload : IngestTelegramMessageDto) (s : Store) (trace : History) : Prop :=
  ∃ m ∈ s.messages, messageKey m = messageKeyOf payload ∧ Routed m.id trace

/-! ## What a run of the controller has done -/

/-- The controller throws before it creates the message, or it answers: with
the message ingested, or after an operation of `create` has failed. -/
def Ends (payload : IngestTelegramMessageDto) (s : Store) (h : History) :
    Except ApiError IngestAnswer → Prop
  | .error _ => h.length ≤ 1
  | .ok _ => ∃ new first, h = new ++ [first] ∧
      ((Ingested payload s h.reverse ∧ ∀ e ∈ new, e.answered = true) ∨
        (∀ id, ¬ Routed id h.reverse) ∧ ∃ e ∈ new, e.answered = false)

def Executed (s : Store) (op : Op) (r : Except ApiError (Answer op)) (s' : Store) : Prop :=
  ∃ c : Choice, exec c op s = (r, s')

theorem exec_executed (c : Choice) (op : Op) (s : Store) :
    Executed s op (exec c op s).1 (exec c op s).2 := ⟨c, rfl⟩

theorem Executed.effect {s s' : Store} {op : Op} {r : Except ApiError (Answer op)}
    (h : Executed s op r s') : Effect s op r s' := by
  obtain ⟨c, hc⟩ := h
  have heffect := exec_effect c op s
  rwa [hc] at heffect

theorem Executed.telegramTarget {s s' : Store} {chatId : String}
    {r : Except ApiError (Option MonitorTarget)} (hmonitored : Monitored s chatId)
    (h : Executed s (.findTelegramTargetByExternalId chatId) r s') :
    s' = s ∧ ((∃ e, r = .error e) ∨ ∃ t ∈ telegramTargets s chatId, r = .ok (some t)) := by
  obtain ⟨c, hc⟩ := h
  obtain ⟨t, ht⟩ := hmonitored
  have hlt := Nat.mod_lt c.pick (List.length_pos_of_mem (mem_telegramTargets.mpr ht))
  unfold exec at hc
  rcases c.query_cases s
    (.ok (telegramTargets s chatId)[c.pick % (telegramTargets s chatId).length]?, s)
    with ⟨e, -, heq⟩ | ⟨-, heq⟩
  · obtain ⟨rfl, rfl⟩ := Prod.mk.inj (hc.symm.trans heq)
    exact ⟨rfl, Or.inl ⟨e, rfl⟩⟩
  · obtain ⟨rfl, rfl⟩ := Prod.mk.inj (hc.symm.trans heq)
    exact ⟨rfl, Or.inr ⟨_, List.getElem_mem hlt, by rw [List.getElem?_eq_getElem hlt]⟩⟩

theorem ingest_logs {expected : String} {secret : Option String}
    {payload : IngestTelegramMessageDto}
    {s : Store} (hmonitored : Monitored s payload.chatId) :
    (ingest expected secret payload).Logs Executed (Ends payload) s [] := by
  unfold ingest
  split_ifs
  · exact Nat.zero_le 1
  refine (Program.logs_call Executed _ _ _ s []).mpr fun r s' hexecuted => ?_
  obtain ⟨rfl, ⟨e, rfl⟩ | ⟨t, ht, rfl⟩⟩ := hexecuted.telegramTarget hmonitored
  · exact le_rfl
  obtain ⟨hmem, -⟩ := mem_telegramTargets.mp ht
  obtain ⟨t', ht'⟩ : ∃ t', s'.targets.find? (fun t' => t'.type = t.type &&
      t'.externalId = t.externalId) = some t' := by
    refine Option.isSome_iff_exists.mp (List.find?_isSome.mpr ⟨t, hmem, ?_⟩)
    simp
  have hcreate := Program.Logs.weaken Executed (fun _ _ _ _ h => h.effect)
    (create_logs (toNormalizedMessage t ⟨payload.chatId, payload.messageId, payload.content,
      payload.date, payload.sender⟩ (buildExternalId payload.chatId payload.messageId))
      [⟨.findTelegramTargetByExternalId payload.chatId, .ok (some t)⟩] ht')
  refine (Program.obeys_handle _ _ _ _ _ _).mpr ((Program.obeys_bind _ _ _ _ _ _).mpr
    (hcreate.mono (fun _ _ h => h) ?_))
  rintro ⟨s'', h''⟩ (e | saved) hended
  · obtain ⟨⟨new, rfl, hfailed⟩, -⟩ := id hended
    exact ⟨new, _, rfl, Or.inr ⟨hended.not_routed, hfailed⟩⟩
  · obtain ⟨⟨m, hm, hid⟩, ⟨new, rfl, hnew⟩, hrouted⟩ := hended
    exact ⟨new, _, rfl, Or.inl ⟨⟨m, hm.1, hm.2, hid ▸ hrouted⟩, hnew⟩⟩

/-! ## What the sidecar may conclude -/

theorem forward_ingested {http : Bool} {response : Except String ℕ} :
    forward http response = .ingested ↔ http = true ∧ ∃ status < 400, response = .ok status := by
  unfold forward
  cases http with
  | false => simp
  | true =>
      cases response with
      | error e => simp
      | ok status =>
          by_cases hstatus : 400 ≤ status
          · simp [hstatus]
          · simpa [hstatus] using Nat.lt_of_not_le hstatus

/-- Without a client session nothing is logged; with one a response is honest unless it
is a success. -/
theorem forward_honest {http : Bool} {response : Except String ℕ} {ingested : Prop} :
    (forward http response).Honest ingested ↔
      http = true ∧ ∀ status, response = .ok status → status < 400 → ingested := by
  unfold Branch.Honest
  rw [forward_ingested]
  unfold forward
  cases http with
  | false => simp [Branch.isError]
  | true =>
      cases response with
      | error e => simp [Branch.isError]
      | ok status =>
          by_cases hstatus : 400 ≤ status
          · simp [hstatus, Branch.isError]
          · simp [hstatus, Branch.isError, Nat.lt_of_not_le hstatus]

section Answers

variable {length : String → ℕ} {expected : String} {secret : Option String}
  {payload : IngestTelegramMessageDto}

theorem route_success {choices : ℕ → Choice} {s : Store} :
    (route length expected secret payload choices s).1 < 400 ↔
      payload.Accepted length ∧ ∃ answer,
        ((ingest expected secret payload).run exec choices s).1 = .ok answer := by
  unfold route
  split_ifs with haccepted
  · dsimp only
    split
    · rename_i answer hanswer
      simp [haccepted, hanswer]
    · rename_i error herror
      simpa [haccepted, herror] using le_statusOf error
  · simp [haccepted]

theorem route_honest {s : Store} (hmonitored : Monitored s payload.chatId)
    (choices : ℕ → Choice) :
    ((route length expected secret payload choices s).1 < 400 →
      Ingested payload (route length expected secret payload choices s).2
        (routeTrace length expected secret payload choices s)) ↔
      ∀ e ∈ (routeTrace length expected secret payload choices s).tail, e.answered = true := by
  by_cases haccepted : payload.Accepted length
  swap
  · simp [route_success, routeTrace, haccepted]
  have hlogs : (ingest expected secret payload).Logs Executed (Ends payload) s [] :=
    ingest_logs hmonitored
  have hended := hlogs.trace exec_executed choices
  have hstore : (route length expected secret payload choices s).2 =
      ((ingest expected secret payload).run exec choices s).2 := by
    simp only [route, if_pos haccepted]
    split
    · rfl
    · rfl
  simp only [route_success, routeTrace, haccepted, true_and, if_true, hstore]
  cases hanswer : ((ingest expected secret payload).run exec choices s).1 with
  | error e =>
      rw [hanswer] at hended
      have hlength : ((ingest expected secret payload).trace exec choices s).length ≤ 1 := by
        simpa [Ends] using hended
      have htail : ((ingest expected secret payload).trace exec choices s).tail = [] :=
        List.eq_nil_of_length_eq_zero (by simp; omega)
      simp [htail]
  | ok answer =>
      rw [hanswer] at hended
      obtain ⟨new, first, hnew, hcases⟩ := hended
      rw [List.reverse_reverse] at hcases
      have htrace : (ingest expected secret payload).trace exec choices s =
          first :: new.reverse := by
        rw [← List.reverse_reverse ((ingest expected secret payload).trace exec choices s), hnew]
        simp
      have htail : (∀ e ∈ ((ingest expected secret payload).trace exec choices s).tail,
          e.answered = true) ↔ ∀ e ∈ new, e.answered = true := by simp [htrace]
      rw [htail]
      rcases hcases with ⟨hingested, hall⟩ | ⟨hnone, e, he, hfailed⟩
      · exact ⟨fun _ => hall, fun _ _ => hingested⟩
      · constructor
        · intro h
          obtain ⟨m, -, -, hrouted⟩ := h ⟨answer, rfl⟩
          exact absurd hrouted (hnone m.id)
        · intro h
          exact absurd (h e he) (by simp [hfailed])

/-- The sidecar logs `message.ingested` for a message that is stored and routed, and an error
otherwise, exactly if it has a client session and, where the response arrives, no operation
has failed after the lookup of the target. -/
theorem forward_honest_iff {now : SafeInteger} {m : NewMessage}
    (hpayload : payload? now m = some payload) {s : Store} (hmonitored : Monitored s payload.chatId)
    (length : String → ℕ) (http : Bool) (expected : String) (secret : Option String)
    (choices : ℕ → Choice) (link : Link) :
    (onNewMessage http now m fun p => (post length expected secret p choices s link).1).Honest
        (Ingested payload (post length expected secret payload choices s link).2.1
          (post length expected secret payload choices s link).2.2) ↔
      http = true ∧ (link = .answered →
        ∀ e ∈ (post length expected secret payload choices s link).2.2.tail,
          e.answered = true) := by
  simp only [onNewMessage, hpayload, forward_honest]
  refine and_congr_right fun _ => ?_
  cases link with
  | lost error => simp [post]
  | unreachable error => simp [post]
  | answered => simpa [post] using route_honest hmonitored choices

end Answers

/-! ## A message of a monitored chat -/

def sampleMessage : NewMessage where
  id := sampleMessageId
  message := some "text"
  chatId := some (-100)
  date := some ⟨1700000000, by decide⟩
  sender := none

def sampleNow : SafeInteger := ⟨1700000001, by decide⟩

theorem payload?_sampleMessage : payload? sampleNow sampleMessage = some (textOf "-100") := by
  simp [payload?, sampleMessage, textOf, SafeInteger.toDouble]
  rfl

theorem monitored_twoChats : Monitored twoChats "-100" :=
  ⟨_, List.mem_cons_self, rfl, rfl, rfl⟩

def postSample (choices : ℕ → Choice) : Except String ℕ × Store × History :=
  post String.length "secret" (some "secret") (textOf "-100") choices twoChats .answered

/-- The database is gone for the first operation of `create`. -/
def faultInCreate (n : ℕ) : Choice :=
  if n = 1 then { calm with fault := some (.other "connection lost") } else calm

theorem accepted_textOf : (textOf "-100").Accepted String.length := by decide

theorem postSample_eq (choices : ℕ → Choice) : postSample choices =
    (.ok (route String.length "secret" (some "secret") (textOf "-100") choices twoChats).1,
      ((ingest "secret" (some "secret") (textOf "-100")).run exec choices twoChats).2,
      (ingest "secret" (some "secret") (textOf "-100")).trace exec choices twoChats) := by
  simp only [postSample, post, route, routeTrace, if_pos accepted_textOf]
  split
  · rfl
  · rfl

theorem forward_honest_sample :
    Ingested (textOf "-100") (postSample fun _ => calm).2.1 (postSample fun _ => calm).2.2 := by
  have htime : publishedAt (textOf "-100").date = some 1700000000000 := publishedAt_textOf "-100"
  have hanswered : ((ingest "secret" (some "secret") (textOf "-100")).trace exec (fun _ => calm)
      twoChats).tail.all Entry.answered = true := by
    simp only [ingest, toNormalizedMessage, htime]
    rfl
  have hanswer : ((ingest "secret" (some "secret") (textOf "-100")).run exec (fun _ => calm)
      twoChats).1 = .ok ⟨true, some 2, none⟩ := by
    simp only [ingest, toNormalizedMessage, htime]
    rfl
  have hbranch : onNewMessage true sampleNow sampleMessage (fun p =>
      (post String.length "secret" (some "secret") p (fun _ => calm) twoChats .answered).1) =
        .ingested := by
    simp only [onNewMessage, payload?_sampleMessage]
    exact forward_ingested.mpr ⟨rfl, _, route_success.mpr ⟨accepted_textOf, _, hanswer⟩, rfl⟩
  have hall : ∀ e ∈ (postSample fun _ => calm).2.2.tail, e.answered = true := by
    rw [postSample_eq]
    exact fun e he => List.all_eq_true.mp hanswered e he
  have hhonest := (forward_honest_iff payload?_sampleMessage monitored_twoChats String.length true
    "secret" (some "secret") (fun _ => calm) .answered).mpr ⟨rfl, fun _ => hall⟩
  rw [hbranch] at hhonest
  rcases hhonest with ⟨-, hingested⟩ | herror
  · exact hingested
  · cases herror

/-- The sidecar logs a message as ingested that is not stored. -/
theorem forward_loses_message :
    onNewMessage true sampleNow sampleMessage (fun p =>
        (post String.length "secret" (some "secret") p faultInCreate twoChats .answered).1) =
          .ingested ∧
      ¬ Ingested (textOf "-100") (postSample faultInCreate).2.1 (postSample faultInCreate).2.2 := by
  have hanswer : ((ingest "secret" (some "secret") (textOf "-100")).run exec faultInCreate
      twoChats).1 = .ok ⟨false, none, some "ingest_failed"⟩ := rfl
  have hempty : ((ingest "secret" (some "secret") (textOf "-100")).run exec faultInCreate
      twoChats).2.messages = [] := rfl
  constructor
  · simp only [onNewMessage, payload?_sampleMessage]
    exact forward_ingested.mpr ⟨rfl, _, route_success.mpr ⟨accepted_textOf, _, hanswer⟩, rfl⟩
  · rintro ⟨m, hm, -⟩
    rw [postSample_eq] at hm
    simp [hempty] at hm

end SocialMonitor.Telegram

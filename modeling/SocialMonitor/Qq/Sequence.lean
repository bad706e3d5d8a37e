import SocialMonitor.Qq.Frames
import SocialMonitor.Qq.OneSocket

/-!
# The sequence numbers of the heartbeats

A heartbeat carries the number of the last dispatch frame.  The service keeps it
from one socket to the next, and so a new session starts with the number of the
session before it.
-/

namespace SocialMonitor.Qq

open Js Reconnect

namespace QqGatewayService

variable (valid : String → Bool) (s : QqGatewayService)

/-- The number that a dispatch frame brings, and the socket that receives it. -/
def numbered : Event → Option (ℕ × Number)
  | .message k data =>
      if s.readyState k = some .opened then
        (jsonParse data).bind fun payload =>
          if hasOp payload .dispatch then (sequenceOf payload).map fun seq => (k, seq) else none
      else none
  | _ => none

/-- The numbers received so far, in order. -/
def noteNumbers (e : Event) (h : List (ℕ × Number)) : List (ℕ × Number) :=
  h ++ (s.numbered e).toList

/-- The last number received on the socket `k`. -/
def lastOn (h : List (ℕ × Number)) (k : ℕ) : Option Number :=
  (h.filter (·.1 = k)).getLast?.map Prod.snd

/-- `d` of a heartbeat. -/
def sequenceData : Option Number → Json
  | some seq => .num seq
  | none => .null

def heartbeatFrame (seq : Option Number) : List Char :=
  stringify (payload .heartbeat (sequenceData seq))

/-- The texts sent on the socket `k`. -/
def sentOn (k : ℕ) : List (List Char) := (s.sockets[k]?.map (·.sent)).getD []

/-- The texts that an event sends on the socket `k`. -/
def sends (e : Event) (k : ℕ) : List (List Char) :=
  ((step valid s e).sentOn k).drop (s.sentOn k).length

/-- A heartbeat that is due is sent on the socket `k`. -/
def Beats (k : ℕ) : Prop :=
  s.heartbeatTimer.isSome ∧ s.ws = some k ∧ s.readyState k = some .opened

/-- Every heartbeat frame that the event sends carries the last number received
on its socket. -/
def CarriesOwn (p : QqGatewayService × List (ℕ × Number)) (e : Event) : Prop :=
  ∀ k d, stringify (payload .heartbeat d) ∈ sends valid p.1 e k →
    stringify (payload .heartbeat d) = heartbeatFrame (lastOn p.2 k)

/-- A heartbeat falls due on the socket that received the last number of all, or
where that number is the last one of its socket as well. -/
def InSession (p : QqGatewayService × List (ℕ × Number)) : Event → Prop
  | .heartbeat => ∀ k, p.1.Beats k → ∀ x ∈ p.2.getLast?,
      x.1 = k ∨ heartbeatFrame (some x.2) = heartbeatFrame (lastOn p.2 k)
  | _ => True

/-! ## What an event changes -/

/-- What the service has received and sent, as far as it shows. -/
def traffic : Option Number × (ℕ → List (List Char)) := (s.lastSeq, s.sentOn)

theorem sentOn_modify {f : WebSocket → WebSocket} (hf : ∀ w, (f w).sent = w.sent) (k : ℕ) :
    ({ s with sockets := s.sockets.modify k f } : QqGatewayService).sentOn = s.sentOn := by
  funext i
  simp only [sentOn, List.getElem?_modify]
  cases s.sockets[i]? with
  | none => rfl
  | some w => split_ifs <;> simp [hf]

theorem traffic_setSocket (k : ℕ) (p : ReadyState) : (s.setSocket k p).traffic = s.traffic :=
  congrArg (Prod.mk s.lastSeq) (s.sentOn_modify (f := (·.setState p)) (fun _ => rfl) k)

theorem traffic_closeSocket : s.closeSocket.traffic = s.traffic := by
  unfold closeSocket
  split
  · rename_i k _
    exact congrArg (Prod.mk s.lastSeq) (s.sentOn_modify (f := (·.close)) (fun _ => rfl) k)
  · rfl

theorem traffic_scheduleReconnect : s.scheduleReconnect.traffic = s.traffic := by
  unfold scheduleReconnect
  split_ifs <;> rfl

theorem traffic_closeAndReconnect : s.closeAndReconnect.traffic = s.traffic := by
  rw [closeAndReconnect, traffic_scheduleReconnect, traffic_closeSocket]
  rfl

theorem traffic_handleClose : s.handleClose.traffic = s.traffic := by
  unfold handleClose
  dsimp only
  split_ifs
  · rfl
  · exact traffic_scheduleReconnect _

theorem traffic_handleDispatch (type : Json) (data : Option Json) :
    (s.handleDispatch type data).1.traffic = s.traffic := by
  unfold handleDispatch addGroup
  split_ifs
  · rfl
  · split
    · split_ifs <;> rfl
    · rfl
  · rfl

theorem traffic_connectResolved (i : ℕ) (response : Option GatewayResponse) :
    (s.connectResolved i response).traffic = s.traffic := by
  unfold connectResolved
  split
  · split
    · rfl
    · exact traffic_scheduleReconnect _
  · rfl

/-- A new socket has sent nothing. -/
theorem sentOn_append (url : String) (t : QqGatewayService)
    (ht : t.sockets = s.sockets ++ [⟨url, .connecting, []⟩]) : t.sentOn = s.sentOn := by
  funext k
  rcases lt_trichotomy k s.sockets.length with hk | rfl | hk
  · simp [sentOn, ht, List.getElem?_append_left hk]
  · simp [sentOn, ht]
  · simp [sentOn, ht, List.getElem?_eq_none, hk.le, Nat.succ_le_of_lt hk]

theorem traffic_connectAuthorized (i : ℕ) (token : Option String) :
    (s.connectAuthorized valid i token).traffic = s.traffic := by
  unfold connectAuthorized
  split
  · split
    · split_ifs
      · exact congrArg (Prod.mk s.lastSeq) (s.sentOn_append _ _ rfl)
      · rfl
    · exact traffic_scheduleReconnect _
  · rfl

/-- Apart from messages and heartbeats, nothing is received and nothing is sent. -/
theorem traffic_step {e : Event} (hmessage : ∀ k data, e ≠ .message k data)
    (hheartbeat : e ≠ .heartbeat) : (step valid s e).traffic = s.traffic := by
  cases e with
  | message k data => exact absurd rfl (hmessage k data)
  | heartbeat => exact absurd rfl hheartbeat
  | resolved i response => exact s.traffic_connectResolved i response
  | authorized i token => exact s.traffic_connectAuthorized valid i token
  | opened k =>
      simp only [step]
      split_ifs
      · exact s.traffic_setSocket k _
      · rfl
  | errored k => rfl
  | closing k =>
      simp only [step]
      split_ifs
      · exact s.traffic_setSocket k _
      · rfl
  | closed k =>
      simp only [step]
      split
      · rfl
      · rfl
      · rw [traffic_handleClose, traffic_setSocket]
  | reconnect => simp only [step]; split_ifs <;> rfl
  | destroy => exact traffic_closeSocket _

theorem send_traffic (payload : Json) : (s.send payload).lastSeq = s.lastSeq ∧
    ∀ k, (s.send payload).sentOn k =
      if s.ws = some k ∧ s.readyState k = some .opened then s.sentOn k ++ [stringify payload]
      else s.sentOn k := by
  unfold send
  cases hws : s.ws with
  | none => exact ⟨rfl, fun k => by simp⟩
  | some j =>
      refine ⟨rfl, fun k => ?_⟩
      simp only [sentOn, readyState, List.getElem?_modify, Option.some.injEq]
      cases hk : s.sockets[k]? with
      | none => simp
      | some w =>
          by_cases hjk : j = k
          · by_cases hopened : w.readyState = .opened <;> simp [hjk, hopened, WebSocket.send]
          · simp [hjk]

/-- At most an identification is sent on each socket. -/
def Silent (s t : QqGatewayService) : Prop :=
  ∀ k, t.sentOn k = s.sentOn k ∨
    ∃ d, t.sentOn k = s.sentOn k ++ [stringify (payload .identify d)]

theorem silent_of_traffic {s t : QqGatewayService} (h : t.traffic = s.traffic) : Silent s t :=
  fun k => Or.inl (congrFun (congrArg Prod.snd h) k)

theorem lastSeq_of_traffic {s t : QqGatewayService} (h : t.traffic = s.traffic) :
    t.lastSeq = s.lastSeq := congrArg Prod.fst h

theorem identify_traffic : s.identify.lastSeq = s.lastSeq ∧ Silent s s.identify := by
  unfold identify
  split_ifs
  · exact ⟨rfl, fun k => Or.inl rfl⟩
  · obtain ⟨hseq, hsent⟩ := s.send_traffic (payload .identify (identifyData s.authToken))
    refine ⟨hseq, fun k => ?_⟩
    rw [hsent]
    split_ifs
    · exact Or.inr ⟨_, rfl⟩
    · exact Or.inl rfl

theorem handlePayload_traffic (payload : Json) :
    (s.handlePayload payload).1.lastSeq =
        (if hasOp payload .dispatch then sequenceOf payload else none).or s.lastSeq ∧
      Silent s (s.handlePayload payload).1 := by
  rcases payload_cases payload with h | h | h | h | h
  · rw [s.handlePayload_hello h, hasOp_eq h]
    cases heartbeatIntervalOf (payload.get? "d") with
    | error e => exact ⟨rfl, fun k => Or.inl rfl⟩
    | ok interval => exact identify_traffic _
  · rw [s.handlePayload_dispatch h, h]
    have hkeep := traffic_handleDispatch
      { s with lastSeq := (sequenceOf payload).or s.lastSeq } (typeOf payload) (payload.get? "d")
    exact ⟨lastSeq_of_traffic hkeep, fun k => Or.inl (congrFun (congrArg Prod.snd hkeep) k)⟩
  · rw [s.handlePayload_reconnect h, hasOp_eq h]
    have hkeep := s.traffic_closeAndReconnect
    exact ⟨lastSeq_of_traffic hkeep, silent_of_traffic hkeep⟩
  · rw [s.handlePayload_invalidSession h, hasOp_eq h]
    have hkeep := traffic_closeAndReconnect { s with sessionId := none }
    exact ⟨lastSeq_of_traffic hkeep, silent_of_traffic hkeep⟩
  · rw [s.handlePayload_other h, (hasOp_of_not_recognized h).2.1]
    exact ⟨rfl, fun k => Or.inl rfl⟩

theorem message_traffic (k : ℕ) (data : List Char) :
    (step valid s (.message k data)).lastSeq =
        ((s.numbered (.message k data)).map Prod.snd).or s.lastSeq ∧
      Silent s (step valid s (.message k data)) := by
  simp only [step, numbered]
  split_ifs with hopened
  · unfold handleMessage
    cases jsonParse data with
    | none => exact ⟨rfl, fun k => Or.inl rfl⟩
    | some payload =>
        obtain ⟨hseq, hsilent⟩ := s.handlePayload_traffic payload
        refine ⟨?_, hsilent⟩
        rw [hseq, Option.bind_some]
        cases hasOp payload .dispatch <;> cases sequenceOf payload <;> rfl
  · exact ⟨rfl, fun k => Or.inl rfl⟩

theorem numbered_eq_none {e : Event} (h : ∀ k data, e ≠ .message k data) : s.numbered e = none := by
  cases e with
  | message k data => exact absurd rfl (h k data)
  | _ => rfl

/-- Only a numbered frame changes the last number, and nothing takes it back. -/
theorem lastSeq_step (e : Event) :
    (step valid s e).lastSeq = ((s.numbered e).map Prod.snd).or s.lastSeq := by
  by_cases hmessage : ∃ k data, e = .message k data
  · obtain ⟨k, data, rfl⟩ := hmessage
    exact (s.message_traffic valid k data).1
  push Not at hmessage
  rw [s.numbered_eq_none hmessage, Option.map_none, Option.none_or]
  by_cases hheartbeat : e = .heartbeat
  · subst hheartbeat
    simp only [step]
    split_ifs
    · exact (s.send_traffic _).1
    · rfl
  · exact lastSeq_of_traffic (s.traffic_step valid hmessage hheartbeat)

theorem silent_step {e : Event} (hheartbeat : e ≠ .heartbeat) : Silent s (step valid s e) := by
  by_cases hmessage : ∃ k data, e = .message k data
  · obtain ⟨k, data, rfl⟩ := hmessage
    exact (s.message_traffic valid k data).2
  · push Not at hmessage
    exact silent_of_traffic (s.traffic_step valid hmessage hheartbeat)

/-! ## Heartbeats -/

theorem stringify_payload (op : QQOpcode) (d : Json) : stringify (payload op d) =
    '{' :: (stringifyMember (utf16 "op".toList, .num op.code) ++
      (',' :: (quote (utf16 "d".toList) ++ ':' :: stringify d ++ ['}']))) := by
  simp [payload, stringify, stringifyMembers, stringifyMember]

/-- Frames of the two operations differ in their operation codes. -/
theorem identify_ne_heartbeat (d d' : Json) :
    stringify (payload .identify d) ≠ stringify (payload .heartbeat d') := by
  intro h
  have hcode := congrArg (fun text : List Char => text[6]?) h
  have hidentify : stringifyMember (utf16 "op".toList, .num QQOpcode.identify.code) =
      "\"op\":2".toList := by decide +kernel
  have hheartbeat : stringifyMember (utf16 "op".toList, .num QQOpcode.heartbeat.code) =
      "\"op\":1".toList := by decide +kernel
  rw [stringify_payload, stringify_payload, hidentify, hheartbeat] at hcode
  exact absurd hcode (by simp)

theorem sends_of_eq {e : Event} {k : ℕ} {texts : List (List Char)}
    (h : (step valid s e).sentOn k = s.sentOn k ++ texts) : sends valid s e k = texts := by
  rw [sends, h, List.drop_left]

theorem sends_heartbeat {k : ℕ} (h : s.Beats k) :
    sends valid s .heartbeat k = [heartbeatFrame s.lastSeq] := by
  apply s.sends_of_eq
  obtain ⟨htimer, hws, hopened⟩ := h
  simp only [step, if_pos htimer]
  rw [(s.send_traffic _).2, if_pos ⟨hws, hopened⟩]
  cases hseq : s.lastSeq <;> simp [heartbeatFrame, sequenceData]

theorem sends_heartbeat_nil {k : ℕ} (h : ¬ s.Beats k) : sends valid s .heartbeat k = [] := by
  apply s.sends_of_eq
  rw [List.append_nil]
  simp only [step]
  split_ifs with htimer
  · rw [(s.send_traffic _).2, if_neg fun hk => h ⟨htimer, hk.1, hk.2⟩]
  · rfl

theorem carriesOwn_iff (p : QqGatewayService × List (ℕ × Number)) (e : Event) :
    CarriesOwn valid p e ↔ (e = .heartbeat → ∀ k, p.1.Beats k →
      heartbeatFrame p.1.lastSeq = heartbeatFrame (lastOn p.2 k)) := by
  by_cases hheartbeat : e = .heartbeat
  · subst hheartbeat
    constructor
    · intro h _ k hk
      exact h k _ (by rw [p.1.sends_heartbeat valid hk]; exact List.mem_singleton_self _)
    · intro h k d hd
      by_cases hk : p.1.Beats k
      · rw [p.1.sends_heartbeat valid hk, List.mem_singleton] at hd
        rw [hd]
        exact h rfl k hk
      · simp [p.1.sends_heartbeat_nil valid hk] at hd
  · refine iff_of_true (fun k d hd => ?_) fun h => absurd h hheartbeat
    rcases p.1.silent_step valid hheartbeat k with hsame | ⟨d', hidentify⟩
    · rw [sends_of_eq _ _ (hsame.trans (List.append_nil _).symm)] at hd
      exact absurd hd List.not_mem_nil
    · rw [sends_of_eq _ _ hidentify, List.mem_singleton] at hd
      exact absurd hd.symm (identify_ne_heartbeat d' d)

/-! ## Runs -/

theorem lastOn_of_getLast {h : List (ℕ × Number)} {x : ℕ × Number} (hx : h.getLast? = some x) :
    lastOn h x.1 = some x.2 := by
  obtain ⟨before, rfl⟩ := List.getLast?_eq_some_iff.mp hx
  simp [lastOn]

/-- `this.lastSeq` is the last number of all. -/
def Remembers (p : QqGatewayService × List (ℕ × Number)) : Prop :=
  p.1.lastSeq = p.2.getLast?.map Prod.snd

theorem remembers_step {p : QqGatewayService × List (ℕ × Number)} (e : Event) (h : Remembers p) :
    Remembers (Machine.record (step valid) noteNumbers p e) := by
  unfold Remembers at h ⊢
  simp only [Machine.record, noteNumbers]
  rw [lastSeq_step, h]
  cases p.1.numbered e <;> simp

theorem carriesOwn_iff_inSession {p : QqGatewayService × List (ℕ × Number)} (h : Remembers p)
    (e : Event) : CarriesOwn valid p e ↔ InSession p e := by
  rw [carriesOwn_iff, h]
  cases e with
  | heartbeat =>
      simp only [InSession, forall_const]
      refine forall₂_congr fun k _ => ?_
      cases hlast : p.2.getLast? with
      | none =>
          have hnone : p.2 = [] := List.getLast?_eq_none_iff.mp hlast
          simp [hnone, lastOn]
      | some x =>
          constructor
          · intro hsame y hy
            obtain rfl : x = y := Option.some.inj hy
            exact Or.inr hsame
          · intro hsession
            rcases hsession x rfl with rfl | hsame
            · rw [lastOn_of_getLast hlast]
              rfl
            · exact hsame
  | _ => exact iff_of_true (fun h => nomatch h) trivial

/-- In every run, the heartbeats carry the numbers of their sockets exactly if
they fall due in the session of the last number. -/
theorem heartbeats_carry_iff (configured : Bool) (es : List Event) :
    Machine.AllowedList (Machine.record (step valid) noteNumbers) (CarriesOwn valid)
        (initial.onModuleInit configured, []) es ↔
      Machine.AllowedList (Machine.record (step valid) noteNumbers) InSession
        (initial.onModuleInit configured, []) es := by
  apply Machine.AllowedList.congr Remembers
  · cases configured <;> rfl
  · exact fun p e h _ => remembers_step valid e h
  · exact fun p e h => carriesOwn_iff_inSession valid h e

def dispatchFrame : List Char := "\x7b\"op\":0,\"s\":7,\"t\":\"MESSAGE\"\x7d".toList

/-- A number is received, the socket is lost, and the next one has been greeted. -/
def resumedEvents : List Event :=
  callEvents 0 gatewayUrl .resolving ++
    [.opened 0, .message 0 helloFrame, .message 0 dispatchFrame, .closed 0, .reconnect] ++
    callEvents 0 gatewayUrl .resolving ++ [.opened 1, .message 1 helloFrame]

def resumed : QqGatewayService × List (ℕ × Number) :=
  resumedEvents.foldl (Machine.record (step onlyGateway) noteNumbers)
    (initial.onModuleInit true, [])

/-- The heartbeat on the new socket carries the number of the old session. -/
theorem heartbeat_stale :
    sends onlyGateway resumed.1 .heartbeat 1 = ["\x7b\"op\":1,\"d\":7\x7d".toList] ∧
      lastOn resumed.2 1 = none ∧
      ¬ Machine.AllowedList (Machine.record (step onlyGateway) noteNumbers)
        (CarriesOwn onlyGateway) (initial.onModuleInit true, [])
        (resumedEvents ++ [.heartbeat]) := by
  have hsent : sends onlyGateway resumed.1 .heartbeat 1 =
      ["\x7b\"op\":1,\"d\":7\x7d".toList] := by decide +kernel
  have hnone : lastOn resumed.2 1 = none := by decide +kernel
  refine ⟨hsent, hnone, fun h => ?_⟩
  have hcarries : CarriesOwn onlyGateway resumed .heartbeat := (Machine.AllowedList.append.mp h).2.1
  have hframe : stringify (payload .heartbeat (sequenceData resumed.1.lastSeq)) =
      "\x7b\"op\":1,\"d\":7\x7d".toList := by decide +kernel
  have hsame := hcarries 1 (sequenceData resumed.1.lastSeq)
    (by rw [hsent, hframe]; exact List.mem_singleton_self _)
  rw [hframe, hnone] at hsame
  exact absurd hsame (by decide +kernel)

end QqGatewayService

end SocialMonitor.Qq

import SocialMonitor.Backoff
import SocialMonitor.Qq.Frames

/-!
# The reconnect timer

Failed preparations, closed sockets and the platform itself make the service
arm its one timer, and only a session that is ready starts the count anew.  The
timer follows the law of an exponential back-off.
-/

namespace SocialMonitor.Qq

open Js Reconnect Backoff

namespace QqGatewayService

variable (valid : String → Bool) (s : QqGatewayService)

def alarm : Alarm where
  timer := s.reconnectTimer
  attempts := s.reconnectAttempts
  stopped := s.shuttingDown

/-- The types of the dispatches of a session that is ready. -/
def readyType (type : Json) : Bool := type.isText "READY" || type.isText "RESUMED"

def readyPayload (payload : Json) : Bool := hasOp payload .dispatch && readyType (typeOf payload)

/-- The event is a READY or RESUMED dispatch that the service receives. -/
def readies : Event → Bool
  | .message k data => s.readyState k = some .opened && (jsonParse data).any readyPayload
  | _ => false

/-- The timer that has fired or is cleared by an event. -/
def cleared : Event → Option ℕ
  | .reconnect => s.reconnectTimer
  | .destroy => s.reconnectTimer
  | _ => none

/-- The timers of a run, up to the next event. -/
def noteTimers (e : Event) (t : Timers) : Timers :=
  t.note (s.cleared e) (Alarm.armed (s.cleared e) s.alarm (step valid s e).alarm) (s.readies e)

/-- The service and its timers after events. -/
def timed (configured : Bool) (es : List Event) : QqGatewayService × Timers :=
  es.foldl (Machine.record (step valid) (noteTimers valid))
    (initial.onModuleInit configured, ⟨[], []⟩)

/-! ## What an event does to the timer -/

def reconnectDelay : ℕ → ℕ := delay reconnectBaseDelayMs reconnectMaxDelayMs

def payloadAct (payload : Json) : Act :=
  if payload.isNull then .idle
  else if hasOp payload .hello then .idle
  else if hasOp payload .dispatch then if readyType (typeOf payload) then .reset else .idle
  else if hasOp payload .heartbeatAck then .idle
  else if hasOp payload .reconnect then .schedule
  else if hasOp payload .invalidSession then .schedule
  else .idle

def act : Event → Act
  | .resolved i response =>
      if s.connecting[i]? = some .resolving ∧ resolveGatewayUrl response = none then .schedule
      else .idle
  | .authorized i token =>
      match s.connecting[i]?, token with
      | some (.authorizing _), none => .schedule
      | _, _ => .idle
  | .message k data =>
      if s.readyState k = some .opened then ((jsonParse data).map payloadAct).getD .idle else .idle
  | .closed k =>
      match s.readyState k with
      | none => .idle
      | some .closed => .idle
      | some _ => .schedule
  | .reconnect => .fire
  | .destroy => .stop
  | _ => .idle

@[simp] theorem alarm_scheduleReconnect :
    s.scheduleReconnect.alarm = s.alarm.step reconnectDelay .schedule := by
  by_cases h : (s.reconnectTimer.isSome || s.shuttingDown) = true
  · rw [scheduleReconnect, if_pos h]
    exact (if_pos h).symm
  · rw [scheduleReconnect, if_neg h]
    exact (if_neg h).symm

@[simp] theorem alarm_closeSocket : s.closeSocket.alarm = s.alarm := by
  unfold closeSocket
  split <;> rfl

@[simp] theorem alarm_send (payload : Json) : (s.send payload).alarm = s.alarm := by
  unfold send
  split <;> rfl

@[simp] theorem alarm_identify : s.identify.alarm = s.alarm := by
  unfold identify
  split_ifs
  · rfl
  · exact s.alarm_send _

@[simp] theorem alarm_closeAndReconnect :
    s.closeAndReconnect.alarm = s.alarm.step reconnectDelay .schedule := by
  rw [closeAndReconnect, alarm_scheduleReconnect, alarm_closeSocket]
  rfl

/-- After the shutdown `handleClose` does not get to schedule, which would do nothing. -/
@[simp] theorem alarm_handleClose :
    s.handleClose.alarm = s.alarm.step reconnectDelay .schedule := by
  unfold handleClose
  dsimp only
  split_ifs with hdown
  · have hstopped : s.shuttingDown = true := hdown
    simp [Alarm.step, alarm, clearHeartbeat, hstopped]
  · exact alarm_scheduleReconnect _

theorem alarm_addGroup (group : Json) : (s.addGroup group).alarm = s.alarm := by
  unfold addGroup
  split_ifs <;> rfl

theorem alarm_handleDispatch (type : Json) (data : Option Json) :
    (s.handleDispatch type data).1.alarm =
      s.alarm.step reconnectDelay (if readyType type then .reset else .idle) := by
  unfold handleDispatch readyType
  split_ifs
  · rfl
  · split
    · exact s.alarm_addGroup _
    · rfl
  · rfl

theorem payloadAct_other {payload : Json} (h : ¬ Recognized payload) :
    payloadAct payload = .idle := by
  obtain ⟨hhello, hdispatch, hreconnect, hinvalid⟩ := hasOp_of_not_recognized h
  simp [payloadAct, hhello, hdispatch, hreconnect, hinvalid]

theorem alarm_handlePayload (payload : Json) :
    (s.handlePayload payload).1.alarm = s.alarm.step reconnectDelay (payloadAct payload) := by
  rcases payload_cases payload with h | h | h | h | h
  · have hact : payloadAct payload = .idle := by simp [payloadAct, isNull_of_hasOp h, h]
    rw [s.handlePayload_hello h, hact]
    cases heartbeatIntervalOf (payload.get? "d") with
    | error e => rfl
    | ok interval => exact alarm_identify _
  · have hact : payloadAct payload = if readyType (typeOf payload) then .reset else .idle := by
      simp [payloadAct, isNull_of_hasOp h, hasOp_eq h]
    rw [s.handlePayload_dispatch h, hact]
    exact alarm_handleDispatch _ _ _
  · have hact : payloadAct payload = .schedule := by
      simp [payloadAct, isNull_of_hasOp h, hasOp_eq h]
    rw [s.handlePayload_reconnect h, hact]
    exact s.alarm_closeAndReconnect
  · have hact : payloadAct payload = .schedule := by
      simp [payloadAct, isNull_of_hasOp h, hasOp_eq h]
    rw [s.handlePayload_invalidSession h, hact]
    exact alarm_closeAndReconnect _
  · rw [s.handlePayload_other h, payloadAct_other h]
    rfl

theorem alarm_message (k : ℕ) (data : List Char) :
    (step valid s (.message k data)).alarm =
      s.alarm.step reconnectDelay (s.act (.message k data)) := by
  simp only [step, act]
  split_ifs with hopened
  · unfold handleMessage
    cases jsonParse data with
    | none => rfl
    | some payload => exact s.alarm_handlePayload payload
  · rfl

theorem alarm_connectResolved (i : ℕ) (response : Option GatewayResponse) :
    (s.connectResolved i response).alarm =
      s.alarm.step reconnectDelay (s.act (.resolved i response)) := by
  simp only [connectResolved, act]
  cases s.connecting[i]? with
  | none => rfl
  | some stage =>
      cases stage with
      | authorizing url => rfl
      | resolving =>
          cases resolveGatewayUrl response with
          | some url => rfl
          | none => exact alarm_scheduleReconnect _

theorem alarm_connectAuthorized (i : ℕ) (token : Option String) :
    (s.connectAuthorized valid i token).alarm =
      s.alarm.step reconnectDelay (s.act (.authorized i token)) := by
  simp only [connectAuthorized, act]
  cases s.connecting[i]? with
  | none => rfl
  | some stage =>
      cases stage with
      | resolving => rfl
      | authorizing url =>
          cases token with
          | none => exact alarm_scheduleReconnect _
          | some token => dsimp only; split_ifs <;> rfl

/-- The timer of the service is the alarm of an exponential back-off. -/
theorem alarm_step (e : Event) :
    (step valid s e).alarm = s.alarm.step reconnectDelay (s.act e) := by
  cases e with
  | resolved i response => exact s.alarm_connectResolved i response
  | authorized i token => exact s.alarm_connectAuthorized valid i token
  | opened k => simp only [step]; split_ifs <;> rfl
  | message k data => exact s.alarm_message valid k data
  | errored k => rfl
  | closing k => simp only [step]; split_ifs <;> rfl
  | closed k =>
      simp only [step, act]
      cases s.readyState k with
      | none => rfl
      | some p => cases p <;> first | rfl | exact alarm_handleClose _
  | heartbeat =>
      simp only [step]
      split_ifs
      · exact s.alarm_send _
      · rfl
  | reconnect =>
      simp only [step]
      split_ifs with htimer
      · rfl
      · have hnone : s.reconnectTimer = none := by simpa using htimer
        simp [act, alarm, Alarm.step, hnone]
  | destroy => exact alarm_closeSocket _

theorem payloadAct_eq (payload : Json) : payloadAct payload = .idle ∨
    payloadAct payload = .schedule ∨ payloadAct payload = .reset := by
  unfold payloadAct
  split_ifs <;> simp

theorem payloadAct_eq_reset {payload : Json} :
    payloadAct payload = .reset ↔ readyPayload payload = true := by
  rcases payload_cases payload with h | h | h | h | h
  · simp [payloadAct, readyPayload, isNull_of_hasOp h, hasOp_eq h]
  · simp [payloadAct, readyPayload, isNull_of_hasOp h, hasOp_eq h]
  · simp [payloadAct, readyPayload, isNull_of_hasOp h, hasOp_eq h]
  · simp [payloadAct, readyPayload, isNull_of_hasOp h, hasOp_eq h]
  · simp [payloadAct_other h, readyPayload, hasOp_of_not_recognized h]

theorem cleared_eq (e : Event) : s.cleared e = s.alarm.cleared (s.act e) := by
  cases e with
  | resolved i response => simp only [act]; split_ifs <;> rfl
  | authorized i token => simp only [act]; split <;> rfl
  | message k data =>
      simp only [act]
      split_ifs
      · cases jsonParse data with
        | none => rfl
        | some payload =>
            rcases payloadAct_eq payload with hact | hact | hact <;>
              simp [hact, cleared, Alarm.cleared]
      · rfl
  | closed k => simp only [act]; split <;> rfl
  | _ => rfl

theorem readies_eq (e : Event) : s.readies e = decide (s.act e = .reset) := by
  cases e with
  | resolved i response =>
      have hact : s.act (.resolved i response) ≠ .reset := by simp only [act]; split_ifs <;> simp
      exact (decide_eq_false hact).symm
  | authorized i token =>
      have hact : s.act (.authorized i token) ≠ .reset := by simp only [act]; split <;> simp
      exact (decide_eq_false hact).symm
  | message k data =>
      simp only [act, readies]
      split_ifs with hopened
      · cases jsonParse data with
        | none => simp
        | some payload => simp [hopened, payloadAct_eq_reset]
      · simp [hopened]
  | closed k =>
      have hact : s.act (.closed k) ≠ .reset := by simp only [act]; split <;> simp
      exact (decide_eq_false hact).symm
  | _ => rfl

/-! ## The law -/

theorem lawful_timed (configured : Bool) (es : List Event) :
    (timed valid configured es).1.alarm.Lawful reconnectDelay (timed valid configured es).2 := by
  apply Machine.foldl_invariant (fun p : QqGatewayService × Timers =>
    p.1.alarm.Lawful reconnectDelay p.2)
  · cases configured <;> exact ⟨rfl, rfl, fun _ => rfl⟩
  · intro p e h
    have hstep := h.step (p.1.act e)
    rw [← alarm_step valid, ← cleared_eq, ← readies_eq] at hstep
    exact hstep

theorem reconnect_backoff (configured : Bool) (es : List Event) :
    (timed valid configured es).2.pending.length ≤ 1 ∧
    ((timed valid configured es).1.shuttingDown = true →
      (timed valid configured es).2.pending = [] ∧
      ∀ e, Alarm.armed ((timed valid configured es).1.cleared e)
        (timed valid configured es).1.alarm
        (step valid (timed valid configured es).1 e).alarm = none) ∧
    (∀ k d, (timed valid configured es).2.delays[k]? = some d → d = min (1000 * 2 ^ k) 60000) ∧
    (timed valid configured es).2.delays.Pairwise (· ≤ ·) ∧
    ∀ d ∈ (timed valid configured es).2.delays, 1000 ≤ d ∧ d ≤ 60000 := by
  have hlaw := lawful_timed valid configured es
  refine ⟨hlaw.length_pending_le, fun hdown => ⟨?_, fun e => ?_⟩, fun k d => hlaw.delay_eq,
    hlaw.pairwise (delay_mono _ _), hlaw.forall_delay fun k => ⟨?_, ?_⟩⟩
  · rw [hlaw.pending, hlaw.stopped hdown]
    rfl
  · rw [alarm_step, cleared_eq]
    exact (Alarm.stopped_step hdown _).1
  · exact le_delay (by decide) k
  · exact delay_le _ _ k

end QqGatewayService

end SocialMonitor.Qq

import SocialMonitor.Qq.Gateway

/-!
# The connections of the gateway

The gateway is a client that reconnects: every event acts on its connections as
one event of such a client does.
-/

namespace SocialMonitor.Qq

open Js Reconnect

namespace QqGatewayService

variable (s : QqGatewayService)

/-- What the connections of the service are. -/
def client : Client String where
  current := s.ws
  heartbeat := s.heartbeatTimer.isSome
  timer := s.reconnectTimer.isSome
  stopped := s.shuttingDown
  sockets := s.sockets.map (·.readyState)
  connecting := s.connecting

theorem client_current : s.client.current = s.ws := rfl

theorem client_heartbeat : s.client.heartbeat = s.heartbeatTimer.isSome := rfl

theorem client_sockets_getElem? (k : ℕ) : s.client.sockets[k]? = s.readyState k := by
  simp [client, readyState]

theorem map_readyState_modify {f : WebSocket → WebSocket} {g : ReadyState → ReadyState}
    (hf : ∀ w, (f w).readyState = g w.readyState) (k : ℕ) (ws : List WebSocket) :
    (ws.modify k f).map (·.readyState) = (ws.map (·.readyState)).modify k g := by
  apply List.ext_getElem?
  intro i
  simp only [List.getElem?_map, List.getElem?_modify]
  cases ws[i]? with
  | none => rfl
  | some w => split_ifs <;> simp [hf]

@[simp] theorem client_send (payload : Json) : (s.send payload).client = s.client := by
  have hsend : ∀ w : WebSocket, (w.send payload).readyState = id w.readyState := fun w => by
    unfold WebSocket.send
    split <;> rfl
  unfold send
  split
  · rename_i k hk
    simp only [client, map_readyState_modify hsend, List.modify_id]
  · rfl

@[simp] theorem client_identify : s.identify.client = s.client := by
  unfold identify
  split_ifs
  · rfl
  · exact s.client_send _

@[simp] theorem client_scheduleReconnect : s.scheduleReconnect.client = s.client.schedule := by
  unfold scheduleReconnect
  split_ifs with h
  · cases htimer : s.reconnectTimer <;> cases hdown : s.shuttingDown <;>
      simp_all [client, Client.schedule]
  · simp_all [client, Client.schedule]

@[simp] theorem client_closeSocket : s.closeSocket.client = s.client.closeCurrent := by
  have hclose : ∀ w : WebSocket, w.close.readyState = w.readyState.close := fun _ => rfl
  cases hws : s.ws with
  | none => simp [closeSocket, Client.closeCurrent, client, hws]
  | some k => simp [closeSocket, Client.closeCurrent, client, hws, map_readyState_modify hclose]

@[simp] theorem client_setSocket (k : ℕ) (p : ReadyState) :
    (s.setSocket k p).client = s.client.setSocket k p := by
  have hset : ∀ w : WebSocket, (w.setState p).readyState = p := fun _ => rfl
  simp only [setSocket, client, Client.setSocket, map_readyState_modify (g := fun _ => p) hset]
  congr 1
  apply List.ext_getElem?
  intro i
  rw [List.getElem?_modify, List.getElem?_set]
  split_ifs with hki hlt
  · simp [← hki, List.getElem?_eq_getElem hlt]
  · simp [← hki, List.getElem?_eq_none (not_lt.mp hlt)]
  · simp

@[simp] theorem client_closeAndReconnect :
    s.closeAndReconnect.client = ({ s.client with heartbeat := false }.closeCurrent).schedule := by
  have hclear : s.clearHeartbeat.client = { s.client with heartbeat := false } := rfl
  rw [closeAndReconnect, client_scheduleReconnect, client_closeSocket, hclear]

@[simp] theorem client_handleClose : s.handleClose.client =
    ({ s.client with heartbeat := false, current := none }).schedule := by
  have hclear : { s.clearHeartbeat with ws := none }.client =
      { s.client with heartbeat := false, current := none } := rfl
  rw [← hclear, handleClose]
  dsimp only
  split_ifs with hdown
  · have hstopped : s.shuttingDown = true := hdown
    simp [client, Client.schedule, clearHeartbeat, hstopped]
  · exact client_scheduleReconnect _

theorem client_handleDispatch (type : Json) (data : Option Json) :
    (s.handleDispatch type data).1.client = s.client := by
  unfold handleDispatch
  split_ifs
  · rfl
  · split
    · unfold addGroup
      split_ifs <;> rfl
    · rfl
  · rfl

/-- What a message on the socket `k` does to the connections. -/
def payloadEvent (k : ℕ) (payload : Json) : Reconnect.Event String :=
  if payload.isNull then .idle
  else if hasOp payload .hello then
    match heartbeatIntervalOf (payload.get? "d") with
    | .ok _ => .hello k
    | .error _ => .idle
  else if hasOp payload .dispatch then .idle
  else if hasOp payload .heartbeatAck then .idle
  else if hasOp payload .reconnect then .drop k
  else if hasOp payload .invalidSession then .drop k
  else .idle

theorem client_handlePayload (valid : String → Bool) {k : ℕ} (payload : Json)
    (hk : s.readyState k = some .opened) :
    (s.handlePayload payload).1.client = s.client.step valid (payloadEvent k payload) := by
  have hopened : s.client.sockets[k]? = some .opened := (s.client_sockets_getElem? k).trans hk
  have hdrop : ∀ t : QqGatewayService, t.client = s.client →
      t.closeAndReconnect.client = s.client.step valid (.drop k) := fun t ht => by
    rw [client_closeAndReconnect, Client.step, if_pos hopened, ht]
  unfold handlePayload payloadEvent
  split_ifs
  · rfl
  · cases heartbeatIntervalOf (payload.get? "d") with
    | error e => rfl
    | ok interval =>
        simp only [client_identify, Client.step, if_pos hopened]
        rfl
  · rw [client_handleDispatch]
    split <;> rfl
  · rfl
  · exact hdrop s rfl
  · exact hdrop { s with sessionId := none } rfl
  · rfl

/-- The event of the connections that an event is. -/
def Event.act : Event → Reconnect.Event String
  | .resolved i response => .resolved i (resolveGatewayUrl response)
  | .authorized i token => .authorized i token.isSome
  | .opened k => .opened k
  | .message k data => ((jsonParse data).map (payloadEvent k)).getD .idle
  | .errored _ => .idle
  | .closing k => .closing k
  | .closed k => .closed k
  | .heartbeat => .idle
  | .reconnect => .timer
  | .destroy => .stop

theorem act_message (k : ℕ) (data : List Char) : (Event.message k data).act = .idle ∨
    (Event.message k data).act = .hello k ∨ (Event.message k data).act = .drop k := by
  simp only [Event.act]
  cases jsonParse data with
  | none => exact Or.inl rfl
  | some payload =>
      simp only [Option.map_some, Option.getD_some, payloadEvent]
      split_ifs
      · exact Or.inl rfl
      · cases heartbeatIntervalOf (payload.get? "d") with
        | error e => exact Or.inl rfl
        | ok interval => exact Or.inr (Or.inl rfl)
      · exact Or.inl rfl
      · exact Or.inl rfl
      · exact Or.inr (Or.inr rfl)
      · exact Or.inr (Or.inr rfl)
      · exact Or.inl rfl

theorem client_message (valid : String → Bool) (k : ℕ) (data : List Char) :
    (step valid s (.message k data)).client = s.client.step valid (Event.message k data).act := by
  simp only [step]
  split_ifs with hk
  · simp only [handleMessage, Event.act]
    cases jsonParse data with
    | none => rfl
    | some payload => exact s.client_handlePayload valid payload hk
  · have hclosed : s.client.sockets[k]? ≠ some .opened := (s.client_sockets_getElem? k).symm ▸ hk
    rcases act_message k data with hact | hact | hact <;> rw [hact]
    · rfl
    · exact (if_neg hclosed).symm
    · exact (if_neg hclosed).symm

theorem client_connectResolved (valid : String → Bool) (i : ℕ) (response : Option GatewayResponse) :
    (s.connectResolved i response).client =
      s.client.step valid (.resolved i (resolveGatewayUrl response)) := by
  have hcalls : s.client.connecting[i]? = s.connecting[i]? := rfl
  simp only [connectResolved, Client.step, hcalls]
  cases s.connecting[i]? with
  | none => rfl
  | some stage =>
      cases stage with
      | authorizing url => rfl
      | resolving =>
          cases resolveGatewayUrl response with
          | some url => rfl
          | none => exact client_scheduleReconnect _

theorem client_connectAuthorized (valid : String → Bool) (i : ℕ) (token : Option String) :
    (s.connectAuthorized valid i token).client =
      s.client.step valid (.authorized i token.isSome) := by
  have hcalls : s.client.connecting[i]? = s.connecting[i]? := rfl
  simp only [connectAuthorized, Client.step, hcalls]
  cases s.connecting[i]? with
  | none => rfl
  | some stage =>
      cases stage with
      | resolving => rfl
      | authorizing url =>
          cases token with
          | none => exact client_scheduleReconnect _
          | some token =>
              simp only [Option.isSome_some, if_true]
              split_ifs
              · simp [client, finish, Client.settle]
              · rfl

/-- The service acts on its connections as a client that reconnects. -/
theorem client_step (valid : String → Bool) (e : Event) :
    (step valid s e).client = s.client.step valid e.act := by
  have hstate := s.client_sockets_getElem?
  cases e with
  | resolved i response => exact s.client_connectResolved valid i response
  | authorized i token => exact s.client_connectAuthorized valid i token
  | opened k =>
      simp only [step, Event.act, Client.step, hstate]
      split_ifs
      · exact s.client_setSocket k _
      · rfl
  | message k data => exact s.client_message valid k data
  | errored k => rfl
  | closing k =>
      simp only [step, Event.act, Client.step, hstate]
      split_ifs
      · exact s.client_setSocket k _
      · rfl
  | closed k =>
      simp only [step, Event.act, Client.step, hstate]
      cases s.readyState k with
      | none => rfl
      | some p => cases p <;> first | rfl | rw [client_handleClose, client_setSocket]
  | heartbeat =>
      simp only [step, Event.act, Client.step]
      split_ifs
      · exact s.client_send _
      · rfl
  | reconnect =>
      have htimer : s.client.timer = s.reconnectTimer.isSome := rfl
      simp only [step, Event.act, Client.step, htimer]
      split_ifs <;> rfl
  | destroy => exact client_closeSocket _

theorem client_foldl (valid : String → Bool) (es : List Event) :
    (es.foldl (step valid) s).client = (es.map Event.act).foldl (Client.step valid) s.client := by
  induction es generalizing s with
  | nil => rfl
  | cons e es ih => rw [List.foldl_cons, ih, client_step, List.map_cons, List.foldl_cons]

/-- The events by which the call `i` opens its socket from a stage. -/
def callEvents (i : ℕ) (url : String) : Stage String → List Event
  | .resolving => [.resolved i (some ⟨true, some url⟩), .authorized i (some "tok123")]
  | .authorizing _ => [.authorized i (some "tok123")]

theorem map_act_callEvents {url : String} (hurl : url ≠ "") (i : ℕ) (g : Stage String) :
    (callEvents i url g).map Event.act = Client.callEvents i url g := by
  have hresolve : resolveGatewayUrl (some ⟨true, some url⟩) = some url := by
    simp [resolveGatewayUrl, nonempty?, hurl]
  cases g <;> simp [callEvents, Client.callEvents, Event.act, hresolve]

def gatewayUrl : String := "wss://gateway.example/ws"

/-- The address of the gateway is the only one here. -/
def onlyGateway (url : String) : Bool := url = gatewayUrl

end QqGatewayService

end SocialMonitor.Qq

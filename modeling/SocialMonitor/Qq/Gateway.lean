import SocialMonitor.Js.Coercion
import SocialMonitor.Js.JsonText
import SocialMonitor.Reconnect

/-!
# The QQ gateway

`QqGatewayService` as a machine.  Its state holds the fields of the service,
every socket that it created and every call of `connect` that is in progress.
An event is what the platform, a timer or the application does next.  A timer
is armed exactly while its field is set.
-/

namespace SocialMonitor.Qq

open Js Reconnect

def reconnectBaseDelayMs : ℕ := 1000

def reconnectMaxDelayMs : ℕ := 60000

def defaultHeartbeatMs : Number := .ofNat 45000

inductive QQOpcode where
  | dispatch
  | heartbeat
  | identify
  | resume
  | reconnect
  | invalidSession
  | hello
  | heartbeatAck
deriving DecidableEq

def QQOpcode.code : QQOpcode → Number
  | dispatch => .zero
  | heartbeat => .one
  | identify => .ofNat 2
  | resume => .ofNat 6
  | reconnect => .ofNat 7
  | invalidSession => .ofNat 9
  | hello => .ofNat 10
  | heartbeatAck => .ofNat 11

/-- `1 << 25`. -/
def qqIntentsGroup : Number := .ofNat (2 ^ 25)

/-- `{ op, d }`. -/
def payload (op : QQOpcode) (d : Json) : Json :=
  .obj [(utf16 "op".toList, .num op.code), (utf16 "d".toList, d)]

def identifyData (token : String) : Json :=
  .obj [(utf16 "token".toList, .str (utf16 token.toList)),
    (utf16 "intents".toList, .num qqIntentsGroup),
    (utf16 "shard".toList, .arr [.num .zero, .num .one]),
    (utf16 "properties".toList, .obj
      [(utf16 "$os".toList, .str (utf16 "linux".toList)),
        (utf16 "$browser".toList, .str (utf16 "social-monitor".toList)),
        (utf16 "$device".toList, .str (utf16 "social-monitor".toList))])]

structure WebSocket where
  url : String
  readyState : ReadyState
  sent : List (List Char)
deriving DecidableEq

def WebSocket.setState (w : WebSocket) (p : ReadyState) : WebSocket := { w with readyState := p }

def WebSocket.close (w : WebSocket) : WebSocket := w.setState w.readyState.close

/-- `if (ws.readyState === WebSocket.OPEN) ws.send(JSON.stringify(payload))`. -/
def WebSocket.send (w : WebSocket) (payload : Json) : WebSocket :=
  if w.readyState = .opened then { w with sent := w.sent ++ [stringify payload] } else w

structure QqGatewayService where
  /-- The index of the socket in `sockets`. -/
  ws : Option ℕ
  authToken : String
  /-- The interval and the delay that the timers were armed with. -/
  heartbeatTimer : Option Number
  reconnectTimer : Option ℕ
  heartbeatInterval : Number
  sessionId : Option Json
  lastSeq : Option Number
  reconnectAttempts : ℕ
  shuttingDown : Bool
  knownGroups : List Json
  sockets : List WebSocket
  /-- The calls of `connect`, each with the answer it awaits. -/
  connecting : List (Stage String)

namespace QqGatewayService

def initial : QqGatewayService where
  ws := none
  authToken := ""
  heartbeatTimer := none
  reconnectTimer := none
  heartbeatInterval := defaultHeartbeatMs
  sessionId := none
  lastSeq := none
  reconnectAttempts := 0
  shuttingDown := false
  knownGroups := []
  sockets := []
  connecting := []

variable (s : QqGatewayService)

def isOnline : Bool :=
  match s.ws.bind (s.sockets[·]?) with
  | some w => w.readyState = .opened
  | none => false

/-- `send` writes to the socket of `ws` only. -/
def send (payload : Json) : QqGatewayService :=
  match s.ws with
  | some k => { s with sockets := s.sockets.modify k (·.send payload) }
  | none => s

def clearHeartbeat : QqGatewayService := { s with heartbeatTimer := none }

def startHeartbeat : QqGatewayService :=
  { s.clearHeartbeat with heartbeatTimer := some s.heartbeatInterval }

def identify : QqGatewayService :=
  if s.authToken = "" then s else s.send (payload .identify (identifyData s.authToken))

/-- `2 ** attempts` is exact as long as it matters to the minimum. -/
def scheduleReconnect : QqGatewayService :=
  if s.reconnectTimer.isSome || s.shuttingDown then s
  else
    { s with
      reconnectAttempts := s.reconnectAttempts + 1
      reconnectTimer := some
        (min (reconnectBaseDelayMs * 2 ^ s.reconnectAttempts) reconnectMaxDelayMs) }

/-- `if (this.ws) { this.ws.close(); this.ws = null; }`. -/
def closeSocket : QqGatewayService :=
  match s.ws with
  | some k => { s with sockets := s.sockets.modify k (·.close), ws := none }
  | none => s

def closeAndReconnect : QqGatewayService := s.clearHeartbeat.closeSocket.scheduleReconnect

def handleClose : QqGatewayService :=
  let s := { s.clearHeartbeat with ws := none }
  if s.shuttingDown then s else s.scheduleReconnect

/-- `connect`, up to its first `await`. -/
def connect : QqGatewayService := { s with connecting := s.connecting ++ [.resolving] }

def onModuleInit (configured : Bool) : QqGatewayService := if configured then s.connect else s

def onModuleDestroy : QqGatewayService :=
  { s.clearHeartbeat with shuttingDown := true, reconnectTimer := none }.closeSocket

/-! ## Messages -/

/-- `this.knownGroups.add(group)`. -/
def addGroup (group : Json) : QqGatewayService :=
  if s.knownGroups.any (·.sameValue group) then s
  else { s with knownGroups := s.knownGroups ++ [group] }

/-- The property of `data` that is truthy, for `d?.name`. -/
def truthy? (data : Option Json) (name : String) : Option Json :=
  (data.bind (·.get? name)).filter Json.truthy

/-- The state afterwards, and the error that is thrown: the log line of a group
needs the group as a text. -/
def handleDispatch (type : Json) (data : Option Json) : QqGatewayService × Except TypeError Unit :=
  if type.isText "READY" || type.isText "RESUMED" then
    ({ s with
      sessionId := (truthy? data "session_id").orElse fun _ => s.sessionId
      reconnectAttempts := 0 }, .ok ())
  else if type.isText "GROUP_ADD_ROBOT" then
    match truthy? data "group_openid" with
    | some group => (s.addGroup group, group.toText.map fun _ => ())
    | none => (s, .ok ())
  else (s, .ok ())

/-- `Number(data?.heartbeat_interval)`. -/
def heartbeatIntervalOf (data : Option Json) : Except TypeError Number :=
  match data.bind (·.get? "heartbeat_interval") with
  | some interval => interval.toNumber
  | none => .ok .nan

/-- `payload.t ?? ""`. -/
def typeOf (payload : Json) : Json :=
  match payload.get? "t" with
  | none => .str []
  | some .null => .str []
  | some type => type

/-- `payload.op === op`. -/
def hasOp (payload : Json) (op : QQOpcode) : Bool :=
  match payload.get? "op" with
  | some (.num x) => x = op.code
  | _ => false

/-- `handleMessage` once the text is parsed, with the state afterwards and the
error that is thrown: a payload that is `null` has no property `op`. -/
def handlePayload (payload : Json) : QqGatewayService × Except TypeError Unit :=
  if payload.isNull then (s, .error (.nullProperty "op"))
  else if hasOp payload .hello then
    match heartbeatIntervalOf (payload.get? "d") with
    | .ok interval =>
        let s :=
          { s with heartbeatInterval := if interval.truthy then interval else defaultHeartbeatMs }
        (s.startHeartbeat.identify, .ok ())
    | .error e => (s, .error e)
  else if hasOp payload .dispatch then
    let s := match payload.get? "s" with
      | some (.num seq) => { s with lastSeq := some seq }
      | _ => s
    s.handleDispatch (typeOf payload) (payload.get? "d")
  else if hasOp payload .heartbeatAck then (s, .ok ())
  else if hasOp payload .reconnect then (s.closeAndReconnect, .ok ())
  else if hasOp payload .invalidSession then
    ({ s with sessionId := none }.closeAndReconnect, .ok ())
  else (s, .ok ())

/-- What is not JSON is ignored. -/
def handleMessage (data : List Char) : QqGatewayService × Except TypeError Unit :=
  match jsonParse data with
  | none => (s, .ok ())
  | some payload => s.handlePayload payload

/-! ## Connecting -/

/-- What the gateway endpoint of the platform answered. -/
structure GatewayResponse where
  ok : Bool
  url : Option String

/-- The end of `QqClientService.resolveGatewayUrl`.  There is no response when a
request failed; nothing is returned when an error is thrown. -/
def resolveGatewayUrl (response : Option GatewayResponse) : Option String :=
  response.bind fun r => if r.ok then r.url.bind nonempty? else none

/-- `this.connecting` without the call `i`, which has returned. -/
def finish (i : ℕ) : QqGatewayService := { s with connecting := s.connecting.eraseIdx i }

/-- `connect` after `await this.client.resolveGatewayUrl()`. -/
def connectResolved (i : ℕ) (response : Option GatewayResponse) : QqGatewayService :=
  match s.connecting[i]? with
  | some .resolving =>
      match resolveGatewayUrl response with
      | some url => { s with connecting := s.connecting.set i (.authorizing url) }
      | none => (s.finish i).scheduleReconnect
  | _ => s

/-- `connect` after `await this.client.getAccessToken()`.  The constructor of
the socket throws unless `valid url`; nothing catches that. -/
def connectAuthorized (valid : String → Bool) (i : ℕ) (token : Option String) : QqGatewayService :=
  match s.connecting[i]? with
  | some (.authorizing url) =>
      match token with
      | some token =>
          let s := { s.finish i with authToken := "QQBot " ++ token }
          if valid url then
            { s with ws := some s.sockets.length, sockets := s.sockets ++ [⟨url, .connecting, []⟩] }
          else s
      | none => (s.finish i).scheduleReconnect
  | _ => s

/-! ## Events -/

/-- What happens next: to the call `i` of `connect`, to the socket `k`, to a
timer, or to the application. -/
inductive Event where
  | resolved (i : ℕ) (response : Option GatewayResponse)
  | authorized (i : ℕ) (token : Option String)
  | opened (k : ℕ)
  | message (k : ℕ) (data : List Char)
  | errored (k : ℕ)
  | closing (k : ℕ)
  | closed (k : ℕ)
  | heartbeat
  | reconnect
  | destroy

def setSocket (k : ℕ) (p : ReadyState) : QqGatewayService :=
  { s with sockets := s.sockets.modify k (·.setState p) }

def readyState (k : ℕ) : Option ReadyState := s.sockets[k]?.map (·.readyState)

/-- An event that cannot take place changes nothing.  Messages reach an open
socket only; a socket is closed once, by its peer, its network or after
`close`. -/
def step (valid : String → Bool) (s : QqGatewayService) : Event → QqGatewayService
  | .resolved i response => s.connectResolved i response
  | .authorized i token => s.connectAuthorized valid i token
  | .opened k => if s.readyState k = some .connecting then s.setSocket k .opened else s
  | .message k data => if s.readyState k = some .opened then (s.handleMessage data).1 else s
  | .errored _ => s
  | .closing k => if s.readyState k = some .opened then s.setSocket k (.closing false) else s
  | .closed k =>
      match s.readyState k with
      | none => s
      | some .closed => s
      | some _ => (s.setSocket k .closed).handleClose
  | .heartbeat =>
      if s.heartbeatTimer.isSome then
        s.send (payload .heartbeat (match s.lastSeq with | some seq => .num seq | none => .null))
      else s
  | .reconnect => if s.reconnectTimer.isSome then { s with reconnectTimer := none }.connect else s
  | .destroy => s.onModuleDestroy

/-- The service of a configured bot once the application has started it. -/
def started : QqGatewayService := initial.onModuleInit true

end QqGatewayService

end SocialMonitor.Qq

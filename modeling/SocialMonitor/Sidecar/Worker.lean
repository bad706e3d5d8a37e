import Mathlib.Data.Int.Notation
import Mathlib.Logic.Function.Basic
import SocialMonitor.Runs

/-!
# The Telegram sidecar

`TelegramWorker` as a machine.  Each request is a task of the event loop: it
runs from one `await` to the next without interruption, and between two of its
steps any other task may run.
-/

namespace SocialMonitor.Sidecar

structure ApiError where
  status : ℕ
  code : String
  message : String
deriving DecidableEq

/-- `str.isspace` of one character. -/
def isSpace (c : Char) : Bool :=
  c.toNat ∈ [0x9, 0xA, 0xB, 0xC, 0xD, 0x1C, 0x1D, 0x1E, 0x1F, 0x20, 0x85, 0xA0,
    0x1680, 0x2028, 0x2029,
    0x202F, 0x205F, 0x3000] || (0x2000 ≤ c.toNat && c.toNat ≤ 0x200A)

/-- `s.strip()`. -/
def strip (s : String) : String :=
  String.ofList (((s.toList.dropWhile isSpace).reverse.dropWhile isSpace).reverse)

/-- The environment of the process, and the sessions that Telethon can read. -/
structure Config where
  apiId : ℤ
  apiHash : String
  internalSecret : String
  validSession : String → Bool

/-- The fields of the body are the texts that `str` makes of them. -/
inductive Request where
  | loginStart (phone : String)
  | loginCode (phone code : String)
  | loginPassword (phone password : String)
  | connect (phone session : String)
  | disconnect (phone : String)
deriving DecidableEq

inductive Reply where
  | loginStart (phone phoneCodeHash : String) (isCodeViaApp : Bool)
  | loginCode (phone : String) (passwordRequired : Bool)
  | loginPassword (phone : String)
  | connect (phone : String)
  | disconnect (phone : String)
deriving DecidableEq

/-- A client that Telethon made, with the phone of its listener and what became
of its calls. -/
structure TelegramClient where
  phone : String
  session : String
  connected : Bool
  signedIn : Bool
  phoneCodeHash : Option String
deriving DecidableEq

/-- The state of the worker.  A client is named by its index in `created`. -/
structure TelegramWorker where
  clients : String → Option ℕ
  codeHashes : String → Option String
  currentPhone : Option String
  created : List TelegramClient

inductive Handler where
  | loginStart
  | connect (session : String)
deriving DecidableEq

/-- `StringSession()` is empty. -/
def Handler.session : Handler → String
  | loginStart => ""
  | connect session => session

/-- What a handler awaits, with the local variables that it goes on with. -/
inductive Await where
  | json (request : Request)
  | previousDisconnect (handler : Handler) (phone : String) (previous : ℕ)
  | connect (handler : Handler) (phone : String) (client : ℕ)
  | failedDisconnect (phone : String) (client : ℕ)
  | sendCode (phone : String) (client : ℕ)
  | unsentDisconnect (client : ℕ) (error : String)
  | signIn (phone : String) (client : ℕ)
  | signInPassword (phone : String) (client : ℕ)
  | disconnect (phone : String) (client : ℕ)
deriving DecidableEq

/-- How an awaited call ends; `failed` also stands for a timeout. -/
inductive Outcome where
  | done
  | sent (phoneCodeHash : String) (isCodeViaApp : Bool)
  | passwordNeeded
  | codeInvalid (error : String)
  | failed (error : String)
deriving DecidableEq

inductive Task where
  | running (await : Await)
  | ended (result : Except ApiError Reply)

def Task.await? : Task → Option Await
  | running await => some await
  | ended _ => none

namespace TelegramWorker

variable (w : TelegramWorker)

/-- `self.clients.pop(phone, None)`. -/
def popClient (phone : String) : TelegramWorker :=
  { w with clients := Function.update w.clients phone none }

def popHash (phone : String) : TelegramWorker :=
  { w with codeHashes := Function.update w.codeHashes phone none }

def setClient (client : ℕ) (f : TelegramClient → TelegramClient) : TelegramWorker :=
  { w with created := w.created.modify client f }

/-- `disconnect()` of a client, whose errors are ignored. -/
def disconnected (client : ℕ) : Outcome → Option TelegramWorker
  | .done => some (w.setClient client fun c => { c with connected := false })
  | .failed _ => some w
  | _ => none

/-! ## The handlers up to their next `await` -/

def requireClient (phone : String) : Except ApiError ℕ :=
  match w.clients phone with
  | some client => .ok client
  | none => .error ⟨400, "TELEGRAM_NO_PENDING_LOGIN",
      "No in-memory client for this phone. Call /login/start first."⟩

/-- `self.clients[phone] = client` and `connect_client`. -/
def register (handler : Handler) (phone : String) : TelegramWorker × Task :=
  ({ w with
    created := w.created ++ [⟨phone, handler.session, false, false, none⟩]
    clients := Function.update w.clients phone (some w.created.length) },
    .running (.connect handler phone w.created.length))

/-- The part that `handle_login_start` and `handle_connect` share. -/
def replace (handler : Handler) (phone : String) : TelegramWorker × Task :=
  match w.clients phone with
  | some previous => (w, .running (.previousDisconnect handler phone previous))
  | none => w.register handler phone

def phoneRequired : ApiError := ⟨400, "VALIDATION_FAILED", "phone is required"⟩

def handleLoginStart (phone : String) : TelegramWorker × Task :=
  if strip phone = "" then (w, .ended (.error phoneRequired))
  else w.replace .loginStart (strip phone)

def handleConnect (config : Config) (phone session : String) : TelegramWorker × Task :=
  if strip phone = "" then (w, .ended (.error phoneRequired))
  else if config.validSession session then w.replace (.connect session) (strip phone)
  else (w, .ended (.error ⟨400, "TELEGRAM_SESSION_INVALID",
    "Stored session is not a valid Telethon session. Re-login required."⟩))

/-- The code itself goes to Telegram only. -/
def handleLoginCode (phone : String) : TelegramWorker × Task :=
  match w.requireClient (strip phone) with
  | .error e => (w, .ended (.error e))
  | .ok client =>
      if (w.codeHashes (strip phone)).getD "" = "" then
        (w, .ended (.error ⟨400, "TELEGRAM_NO_PENDING_CODE",
          "No pending login code for this phone. Call /login/start first."⟩))
      else (w, .running (.signIn (strip phone) client))

def handleLoginPassword (phone : String) : TelegramWorker × Task :=
  match w.requireClient (strip phone) with
  | .error e => (w, .ended (.error e))
  | .ok client => (w, .running (.signInPassword (strip phone) client))

/-- The end of `handle_disconnect`. -/
def forget (phone : String) : TelegramWorker × Task :=
  ({ w with currentPhone := if w.currentPhone = some phone then none else w.currentPhone },
    .ended (.ok (.disconnect phone)))

def handleDisconnect (phone : String) : TelegramWorker × Task :=
  let popped := (w.popClient (strip phone)).popHash (strip phone)
  match w.clients (strip phone) with
  | some client => (popped, .running (.disconnect (strip phone) client))
  | none => popped.forget (strip phone)

/-- The handler once the body is read. -/
def handle (config : Config) : Request → TelegramWorker × Task
  | .loginStart phone => w.handleLoginStart phone
  | .loginCode phone _ => w.handleLoginCode phone
  | .loginPassword phone _ => w.handleLoginPassword phone
  | .connect phone session => w.handleConnect config phone session
  | .disconnect phone => w.handleDisconnect phone

/-! ## The handlers after an `await` -/

def authFailed (error : String) : Task := .ended (.error ⟨400, "TELEGRAM_AUTH_FAILED", error⟩)

def connectTimeout : ApiError :=
  ⟨503, "TELEGRAM_CONNECT_TIMEOUT",
    "连接 Telegram 服务器超时：当前网络无法直连 Telegram，请通过代理运行或将 API 部署到可访问 Telegram 的服务器"⟩

def connectDone (handler : Handler) (phone : String) (client : ℕ) : TelegramWorker × Task :=
  let w := w.setClient client fun c => { c with connected := true }
  match handler with
  | .loginStart => (w, .running (.sendCode phone client))
  | .connect _ => ({ w with currentPhone := some phone }, .ended (.ok (.connect phone)))

def codeSent (phone : String) (client : ℕ) (hash : String) (viaApp : Bool) :
    TelegramWorker × Task :=
  let w := w.setClient client fun c => { c with phoneCodeHash := some hash }
  ({ w with codeHashes := Function.update w.codeHashes phone (some hash) },
    .ended (.ok (.loginStart phone hash viaApp)))

def signedIn (phone : String) (client : ℕ) : TelegramWorker :=
  { w.setClient client fun c => { c with signedIn := true } with currentPhone := some phone }

/-- A step from one `await` to the next; nothing is returned for an outcome that
the awaited call does not have. -/
def resume (config : Config) : Await → Outcome → Option (TelegramWorker × Task)
  | .json request, .done => some (w.handle config request)
  | .json _, .failed error => some (w, .ended (.error ⟨500, "INTERNAL_ERROR", error⟩))
  | .previousDisconnect handler phone previous, outcome =>
      (w.disconnected previous outcome).map fun w => (w.popClient phone).register handler phone
  | .connect handler phone client, .done => some (w.connectDone handler phone client)
  | .connect _ phone client, .failed _ => some (w, .running (.failedDisconnect phone client))
  | .failedDisconnect phone client, outcome =>
      (w.disconnected client outcome).map fun w =>
        (w.popClient phone, .ended (.error connectTimeout))
  | .sendCode phone client, .sent hash viaApp => some (w.codeSent phone client hash viaApp)
  | .sendCode phone client, .failed error =>
      some (w.popClient phone, .running (.unsentDisconnect client error))
  | .unsentDisconnect client error, outcome =>
      (w.disconnected client outcome).map fun w => (w, authFailed error)
  | .signIn phone client, .done =>
      some ((w.signedIn phone client).popHash phone, .ended (.ok (.loginCode phone false)))
  | .signIn phone _, .passwordNeeded => some (w, .ended (.ok (.loginCode phone true)))
  | .signIn _ _, .codeInvalid error => some (w, authFailed error)
  | .signIn _ _, .failed error => some (w, authFailed error)
  | .signInPassword phone client, .done =>
      some (w.signedIn phone client, .ended (.ok (.loginPassword phone)))
  | .signInPassword _ _, .failed error => some (w, authFailed error)
  | .disconnect phone client, outcome => (w.disconnected client outcome).map fun w => w.forget phone
  | _, _ => none

/-- The steps of `resume`, one for each outcome that a call has. -/
inductive Resumes (config : Config) (w : TelegramWorker) :
    Await → Outcome → TelegramWorker × Task → Prop where
  | handled (request : Request) :
      Resumes config w (.json request) .done (w.handle config request)
  | unread (request : Request) (error : String) : Resumes config w (.json request) (.failed error)
      (w, .ended (.error ⟨500, "INTERNAL_ERROR", error⟩))
  | replaced (handler : Handler) (phone : String) {previous : ℕ} {outcome : Outcome}
      {w' : TelegramWorker} (hw : w.disconnected previous outcome = some w') :
      Resumes config w (.previousDisconnect handler phone previous) outcome
        ((w'.popClient phone).register handler phone)
  | connected (handler : Handler) (phone : String) (client : ℕ) :
      Resumes config w (.connect handler phone client) .done (w.connectDone handler phone client)
  | unconnected (handler : Handler) (phone : String) (client : ℕ) (error : String) :
      Resumes config w (.connect handler phone client) (.failed error)
        (w, .running (.failedDisconnect phone client))
  | dropped (phone : String) {client : ℕ} {outcome : Outcome} {w' : TelegramWorker}
      (hw : w.disconnected client outcome = some w') :
      Resumes config w (.failedDisconnect phone client) outcome
        (w'.popClient phone, .ended (.error connectTimeout))
  | sent (phone : String) (client : ℕ) (hash : String) (viaApp : Bool) :
      Resumes config w (.sendCode phone client) (.sent hash viaApp)
        (w.codeSent phone client hash viaApp)
  | unsent (phone : String) (client : ℕ) (error : String) :
      Resumes config w (.sendCode phone client) (.failed error)
        (w.popClient phone, .running (.unsentDisconnect client error))
  | released (error : String) {client : ℕ} {outcome : Outcome} {w' : TelegramWorker}
      (hw : w.disconnected client outcome = some w') :
      Resumes config w (.unsentDisconnect client error) outcome (w', authFailed error)
  | codeAccepted (phone : String) (client : ℕ) : Resumes config w (.signIn phone client) .done
      ((w.signedIn phone client).popHash phone, .ended (.ok (.loginCode phone false)))
  | passwordNeeded (phone : String) (client : ℕ) :
      Resumes config w (.signIn phone client) .passwordNeeded
        (w, .ended (.ok (.loginCode phone true)))
  | codeInvalid (phone : String) (client : ℕ) (error : String) :
      Resumes config w (.signIn phone client) (.codeInvalid error) (w, authFailed error)
  | codeFailed (phone : String) (client : ℕ) (error : String) :
      Resumes config w (.signIn phone client) (.failed error) (w, authFailed error)
  | passwordAccepted (phone : String) (client : ℕ) :
      Resumes config w (.signInPassword phone client) .done
        (w.signedIn phone client, .ended (.ok (.loginPassword phone)))
  | passwordFailed (phone : String) (client : ℕ) (error : String) :
      Resumes config w (.signInPassword phone client) (.failed error) (w, authFailed error)
  | forgotten (phone : String) {client : ℕ} {outcome : Outcome} {w' : TelegramWorker}
      (hw : w.disconnected client outcome = some w') :
      Resumes config w (.disconnect phone client) outcome (w'.forget phone)

theorem resumes {config : Config} {w : TelegramWorker} {await : Await} {outcome : Outcome}
    {next : TelegramWorker × Task} (h : w.resume config await outcome = some next) :
    Resumes config w await outcome next := by
  unfold TelegramWorker.resume at h
  split at h
  case h_3 =>
      obtain ⟨w', hw, rfl⟩ := Option.map_eq_some_iff.mp h
      exact .replaced _ _ hw
  case h_6 =>
      obtain ⟨w', hw, rfl⟩ := Option.map_eq_some_iff.mp h
      exact .dropped _ hw
  case h_9 =>
      obtain ⟨w', hw, rfl⟩ := Option.map_eq_some_iff.mp h
      exact .released _ hw
  case h_16 =>
      obtain ⟨w', hw, rfl⟩ := Option.map_eq_some_iff.mp h
      exact .forgotten _ hw
  case h_17 => exact absurd h (by simp)
  all_goals
    obtain rfl := Option.some_inj.mp h
    constructor

/-- `/status`: the current phone, and whether its client is connected. -/
def handleHealth : Option String × Bool :=
  let client := (w.currentPhone.bind w.clients).bind (w.created[·]?)
  (w.currentPhone, client.any TelegramClient.connected)

end TelegramWorker

/-! ## The event loop -/

structure Loop where
  worker : TelegramWorker
  tasks : List Task

/-- A request comes in with its `X-Internal-Secret`, or a call that a task awaits ends. -/
inductive Event where
  | request (secret : Option String) (request : Request)
  | resume (task : ℕ) (outcome : Outcome)

namespace Config

variable (config : Config)

def checkSecret (secret : Option String) : Except ApiError Unit :=
  if config.internalSecret ≠ "" ∧ secret ≠ some config.internalSecret then
    .error ⟨401, "UNAUTHORIZED", "invalid internal secret"⟩
  else .ok ()

def ensureCredentials : Except ApiError Unit :=
  if config.apiId = 0 ∨ config.apiHash = "" then
    .error ⟨503, "TELEGRAM_NOT_CONFIGURED",
      "TELEGRAM_API_ID and TELEGRAM_API_HASH are not configured"⟩
  else .ok ()

/-- The checks of a handler before it reads the body. -/
def check (secret : Option String) : Request → Except ApiError Unit
  | .loginStart _ => do
      config.checkSecret secret
      config.ensureCredentials
  | .connect _ _ => do
      config.checkSecret secret
      config.ensureCredentials
  | _ => config.checkSecret secret

def accept (secret : Option String) (request : Request) : Task :=
  match config.check secret request with
  | .ok () => .running (.json request)
  | .error e => .ended (.error e)

end Config

namespace Loop

def initial : Loop := ⟨⟨fun _ => none, fun _ => none, none, []⟩, []⟩

/-- The task of `i` goes on with the state and the task that it leads to. -/
def advance (s : Loop) (i : ℕ) (next : TelegramWorker × Task) : Loop :=
  ⟨next.1, s.tasks.set i next.2⟩

def step (config : Config) (s : Loop) : Event → Loop
  | .request secret request => { s with tasks := s.tasks ++ [config.accept secret request] }
  | .resume i outcome =>
      match s.tasks[i]? with
      | some (.running await) => ((s.worker.resume config await outcome).map (s.advance i)).getD s
      | _ => s

/-- No handler is in progress. -/
def Idle (s : Loop) : Prop := ∀ t ∈ s.tasks, t.await? = none

instance (s : Loop) : Decidable s.Idle := by
  unfold Idle
  infer_instance

end Loop

end SocialMonitor.Sidecar

import SocialMonitor.Async.Trace
import SocialMonitor.Crypto.EncryptionService
import SocialMonitor.Js.Text
import SocialMonitor.Sidecar.Serve
import SocialMonitor.Table

/-!
# Telegram accounts

`TelegramAuthService`, `TelegramService` and `TelegramListener` over the table
of accounts and the sidecar.  A request whose answer does not arrive may still
be served.
-/

namespace SocialMonitor.Accounts

open Async Crypto

structure TelegramAccount where
  id : Id
  phone : String
  session : String
  connected : Bool
deriving DecidableEq, Repr

structure AccountTable where
  rows : List TelegramAccount
  nextId : Id
deriving DecidableEq

structure World where
  accounts : AccountTable
  sidecar : Sidecar.TelegramWorker

structure Setting where
  encryption : EncryptionService
  baseUrl : String
  secret : String
  sidecar : Sidecar.Config

/-- What becomes of a request to the sidecar. -/
inductive Wire where
  | answered (outcomes : List Sidecar.Outcome)
  | lost (outcomes : List Sidecar.Outcome) (reason : String)
  | unreachable (reason : String)
deriving DecidableEq

/-- What the outside decides at one step: an error of the database, the order of
the rows, what becomes of a request, the session that the client has, and random bytes. -/
structure Choice where
  fault : Option ApiError
  order : ℕ
  wire : Wire
  saved : String
  iv : Iv

structure TelegramStatus where
  phone : Option String
  connected : Bool
deriving DecidableEq, Repr

inductive Op where
  | findUnique (phone : String)
  | create (phone session : String) (connected : Bool)
  | update (id : Id) (session : String) (connected : Bool)
  | findConnected
  | request (request : Sidecar.Request)
  | saveSession (phone : String)
  | getStatus
  | randomBytes
deriving DecidableEq

abbrev Answer : Op → Type
  | .findUnique _ => Option TelegramAccount
  | .create _ _ _ => Unit
  | .update _ _ _ => Unit
  | .findConnected => List TelegramAccount
  | .request _ => Sidecar.Reply
  | .saveSession _ => String
  | .getStatus => TelegramStatus
  | .randomBytes => Iv

abbrev Api := Program Op Answer ApiError

/-! ## The operations -/

def recordNotFound : ApiError :=
  .prisma "P2025" "An operation failed because it depends on one or more records that were required but not found."

namespace AccountTable

variable (t : AccountTable)

def withPhone (phone : String) : List TelegramAccount := t.rows.filter fun a => a.phone = phone

def connected : List TelegramAccount := t.rows.filter fun a => a.connected

def create (phone session : String) (connected : Bool) : AccountTable :=
  ⟨t.rows ++ [⟨t.nextId, phone, session, connected⟩], t.nextId + 1⟩

def update (id : Id) (session : String) (connected : Bool) : AccountTable :=
  { t with rows := t.rows.map fun a =>
      if a.id = id then { a with session := session, connected := connected } else a }

end AccountTable

namespace Setting

variable (setting : Setting)

def unreachable (reason : String) : ApiError :=
  .http .serviceUnavailable s!"Telegram worker ({setting.baseUrl}) unreachable: {reason}"
    "TELEGRAM_WORKER_UNREACHABLE"

/-- The exception for an error response of the sidecar. -/
def rejected (e : Sidecar.ApiError) : ApiError :=
  if e.status ≥ 500 then .http .serviceUnavailable e.message e.code
  else .http .badRequest e.message e.code

/-- The `X-Internal-Secret` header. -/
def header : Option String := Js.nonempty? setting.secret

def receive {α : Type} (served : Except Sidecar.ApiError α) : Wire → Except ApiError α
  | .answered _ => served.mapError rejected
  | .lost _ reason => .error (setting.unreachable reason)
  | .unreachable reason => .error (setting.unreachable reason)

def serve (w : Sidecar.TelegramWorker) (request : Sidecar.Request)
    (outcomes : List Sidecar.Outcome) :
    Sidecar.TelegramWorker × Except Sidecar.ApiError Sidecar.Reply :=
  w.serve setting.sidecar setting.header request outcomes

def send (w : Sidecar.TelegramWorker) (request : Sidecar.Request) :
    Wire → Except ApiError Sidecar.Reply × Sidecar.TelegramWorker
  | .answered outcomes =>
      let served := setting.serve w request outcomes
      (served.2.mapError rejected, served.1)
  | .lost outcomes reason =>
      (.error (setting.unreachable reason), (setting.serve w request outcomes).1)
  | .unreachable reason => (.error (setting.unreachable reason), w)

end Setting

/-- The body of `/status`. -/
def statusOf (w : Sidecar.TelegramWorker) : TelegramStatus := ⟨w.handleHealth.1, w.handleHealth.2⟩

/-- A call of the database fails without an effect or is applied. -/
def Choice.query {α : Type} (c : Choice) (w : World) (applied : Except ApiError α × World) :
    Except ApiError α × World :=
  match c.fault with
  | some error => (.error error, w)
  | none => applied

def exec (setting : Setting) (c : Choice) : (op : Op) → World → Except ApiError (Answer op) × World
  | .findUnique phone, w =>
      c.query w (.ok (Table.arranged c.order (w.accounts.withPhone phone)).head?, w)
  | .create phone session connected, w =>
      c.query w (.ok (), { w with accounts := w.accounts.create phone session connected })
  | .update id session connected, w =>
      c.query w (if w.accounts.rows.any fun a => a.id = id then
          (.ok (), { w with accounts := w.accounts.update id session connected })
        else (.error recordNotFound, w))
  | .findConnected, w => c.query w (.ok (Table.arranged c.order w.accounts.connected), w)
  | .request request, w =>
      let sent := setting.send w.sidecar request c.wire
      (sent.1, { w with sidecar := sent.2 })
  | .saveSession phone, w =>
      (setting.receive (w.sidecar.handleSaveSession setting.sidecar setting.header phone c.saved)
        c.wire, w)
  | .getStatus, w => (setting.receive (.ok (statusOf w.sidecar)) c.wire, w)
  | .randomBytes, w => (.ok c.iv, w)

/-! ## The services -/

inductive Reply where
  | codeSent (phone phoneCodeHash : String) (isCodeViaApp : Bool)
  | passwordRequired (phone : String)
  | loggedIn (phone : String)
  | status (connected : Bool) (phone : Option String)
  | noConnectedAccount
  | disconnected (phone : String)
  | restored
deriving DecidableEq, Repr

namespace TelegramClientManager

def sendCode (phone : String) : Api (String × Bool) := do
  match ← Program.await (Op.request (.loginStart phone)) with
  | .loginStart _ phoneCodeHash isCodeViaApp => return (phoneCodeHash, isCodeViaApp)
  | _ => return ("", false)

def submitCode (phone code : String) : Api Bool := do
  match ← Program.await (Op.request (.loginCode phone code)) with
  | .loginCode _ passwordRequired => return passwordRequired
  | _ => return false

def submitPassword (phone password : String) : Api Unit := do
  let _ ← Program.await (Op.request (.loginPassword phone password))
  return ()

def connectWithSession (phone session : String) : Api Unit := do
  let _ ← Program.await (Op.request (.connect phone session))
  return ()

def disconnect (phone : String) : Api Unit := do
  let _ ← Program.await (Op.request (.disconnect phone))
  return ()

end TelegramClientManager

namespace TelegramAccountRepository

def upsert (phone encryptedSession : String) (connected : Bool) : Api Unit := do
  match ← Program.await (Op.findUnique phone) with
  | some existing => Program.await (Op.update existing.id encryptedSession connected)
  | none => Program.await (Op.create phone encryptedSession connected)

end TelegramAccountRepository

open TelegramClientManager TelegramAccountRepository

variable (setting : Setting)

def encrypt (plaintext : String) : Api String := do
  let iv ← Program.await Op.randomBytes
  Program.ofExcept (setting.encryption.encrypt iv plaintext)

def decrypt (payload : String) : Api String := Program.ofExcept (setting.encryption.decrypt payload)

namespace TelegramAuthService

def normalizePhone (phone : String) : String :=
  String.ofList ((Js.trim phone).toList.filter fun c => c.isDigit || c = '+')

def toHttpError (e : ApiError) : ApiError := .http .badRequest e.message "TELEGRAM_AUTH_FAILED"

def persistSession (phone : String) : Api Unit := do
  let session ← Program.await (Op.saveSession phone)
  let encrypted ← encrypt setting session
  upsert phone encrypted true

def startLogin (dtoPhone : String) : Api Reply := do
  let phone := normalizePhone dtoPhone
  try
    let result ← sendCode phone
    pure (.codeSent phone result.1 result.2)
  catch error => throw (toHttpError error)

def submitCode (dtoPhone code : String) : Api Reply := do
  let phone := normalizePhone dtoPhone
  let passwordRequired ←
    try TelegramClientManager.submitCode phone code
    catch error => throw (toHttpError error)
  if passwordRequired then return .passwordRequired phone
  persistSession setting phone
  return .loggedIn phone

def submitPassword (dtoPhone password : String) : Api Reply := do
  let phone := normalizePhone dtoPhone
  try TelegramClientManager.submitPassword phone password
  catch error => throw (toHttpError error)
  persistSession setting phone
  return .loggedIn phone

end TelegramAuthService

namespace TelegramService

def getStatus : Api Reply := do
  let status ← Program.await Op.getStatus
  return .status status.connected (if status.connected then status.phone else none)

def noAccount : ApiError :=
  .http .conflict "No connected Telegram account to reconnect" "TELEGRAM_NO_ACCOUNT"

def reconnectFailed (e : ApiError) : ApiError :=
  .http .conflict e.message "TELEGRAM_RECONNECT_FAILED"

def reconnect : Api Reply := do
  let accounts ← Program.await Op.findConnected
  let some account := accounts.head? | throw noAccount
  try
    let session ← decrypt setting account.session
    connectWithSession account.phone session
  catch error => throw (reconnectFailed error)
  return .status true (some account.phone)

def logout : Api Reply := do
  let accounts ← Program.await Op.findConnected
  let some account := accounts.head? | return .noConnectedAccount
  try disconnect account.phone
  catch _ => pure ()
  Program.await (Op.update account.id "" false)
  return .disconnected account.phone

end TelegramService

namespace TelegramListener

def restoreAccount (account : TelegramAccount) : Api Unit :=
  try
    let session ← decrypt setting account.session
    connectWithSession account.phone session
  catch _ => pure ()

def restoreAccounts : Api Reply := do
  let accounts ← Program.await Op.findConnected
  accounts.forM (restoreAccount setting)
  return .restored

end TelegramListener

end SocialMonitor.Accounts

import SocialMonitor.Js.Number
import SocialMonitor.Js.Text
import SocialMonitor.Messages.Create

/-!
# Ingesting a Telegram message

`TelegramIngestController.ingest` with `TelegramMapper`.
-/

namespace SocialMonitor.Telegram

open Async Messages

/-- An integer that a number holds exactly with its neighbours. -/
structure SafeInteger where
  val : ℤ
  safe : |val| ≤ 2 ^ 53 - 1

structure RawTelegramSender where
  id : Option String
  username : Option String
  firstName : Option String
  lastName : Option String

structure IngestTelegramMessageDto where
  chatId : String
  messageId : SafeInteger
  content : Option String
  date : Js.Double
  sender : Option RawTelegramSender

structure RawTelegramMessage where
  chatId : String
  messageId : SafeInteger
  content : Option String
  date : Js.Double
  sender : Option RawTelegramSender

structure IngestAnswer where
  ingested : Bool
  messageId : Option Id
  reason : Option String
deriving DecidableEq, Repr

/-! ## The mapper -/

def buildExternalId (chatId : String) (messageId : SafeInteger) : String :=
  s!"{chatId}:{messageId.val}"

def displayName (sender : RawTelegramSender) : Option String :=
  Js.nonempty? (Js.trim (Js.joinNonempty " " [sender.firstName, sender.lastName]))

/-- `new Date(date * 1000)`. -/
def publishedAt (date : Js.Double) : Option Time := Js.timeClip (date.mul Js.thousand)

def toNormalizedMessage (target : MonitorTarget) (message : RawTelegramMessage)
    (externalId : String) : NormalizedMessage where
  source := .telegram
  externalId := externalId
  targetExternalId := target.externalId
  targetType := target.type
  targetName := target.name
  author := message.sender.map fun sender => ⟨sender.id, sender.username, displayName sender⟩
  content := message.content.getD ""
  url := none
  publishedAt := publishedAt message.date

/-! ## The controller -/

def unauthorized : ApiError :=
  .http .unauthorized "Invalid internal secret" "TELEGRAM_INGEST_UNAUTHORIZED"

/-- `expected` is the configured secret, `secret` the header of the request. -/
def ingest (expected : String) (secret : Option String) (payload : IngestTelegramMessageDto) :
    Api IngestAnswer := do
  if expected = "" ∨ secret ≠ some expected then throw unauthorized
  let some target ← Program.await (Op.findTelegramTargetByExternalId payload.chatId)
    | pure ⟨false, none, some "target_not_monitored"⟩
  let raw : RawTelegramMessage :=
    ⟨payload.chatId, payload.messageId, payload.content, payload.date, payload.sender⟩
  let externalId := buildExternalId payload.chatId payload.messageId
  let normalized := toNormalizedMessage target raw externalId
  try
    let saved ← create normalized
    pure ⟨true, some saved.id, none⟩
  catch _ =>
    pure ⟨false, none, some "ingest_failed"⟩

end SocialMonitor.Telegram

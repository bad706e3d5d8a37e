import SocialMonitor.Channels.Operations
import SocialMonitor.Js.Utf8

/-!
# The providers of a notification

`TelegramNotificationProvider`, `QQNotificationProvider` with its
`QqClientService`, and `WeChatNotificationProvider`.
-/

namespace SocialMonitor.Channels

open Async Notifications

def units (s : String) : Js.CodeUnits := Js.utf16 s.toList

/-- The errors that the language itself throws. -/
def typeError : Js.TypeError → ApiError
  | .nullProperty name => .other ("Cannot read properties of null (reading '" ++ name ++ "')")
  | .notPrimitive => .other "Cannot convert object to primitive value"

/-- A value in a template literal. -/
def toText (v : Js.Json) : Api Js.CodeUnits := Program.ofExcept (v.toText.mapError typeError)

/-- The property of an untyped value, if it is truthy. -/
def truthy? (v : Js.Json) (name : String) : Option Js.Json := (v.get? name).filter Js.Json.truthy

theorem truthy?_stored (config : Js.Json) (name : String) : truthy? config.stored name =
    ((truthy? config name).filter fun v => !v.isInfinite).map Js.Json.stored := by
  unfold truthy?
  rw [Js.Json.get?_stored]
  cases config.get? name with
  | none => rfl
  | some v =>
      rw [Option.map_some]
      cases htruthy : v.truthy <;> cases hinfinite : v.isInfinite <;>
        simp [Option.filter, Js.Json.truthy_stored, htruthy, hinfinite]

theorem mem_of_truthy? {members : List (Js.CodeUnits × Js.Json)} {name : String} {v : Js.Json}
    (h : truthy? (.obj members) name = some v) : ∃ m ∈ members, m.2 = v := by
  obtain ⟨hget, -⟩ := Option.filter_eq_some_iff.mp h
  obtain ⟨m, hm, hv⟩ := Option.map_eq_some_iff.mp hget
  exact ⟨m, List.mem_reverse.mp (List.mem_of_find?_eq_some hm), hv⟩

def invalidChannel (message : String) : ApiError := .http .badRequest message "INVALID_CHANNEL"

def telegramRequires : ApiError :=
  invalidChannel "TELEGRAM channel requires config.botToken and config.chatId"

def wechatRequires : ApiError := invalidChannel "WECHAT channel requires config.webhookUrl"

def qqRequires : ApiError := invalidChannel "QQ channel requires config.groupOpenid"

def buildForwardText (payload : NotificationPayload) (maxLength : ℕ) : Js.CodeUnits :=
  let author := if payload.author = "" then [] else [s!"【{payload.author}】"]
  let url := ((payload.url.bind Js.nonempty?).map fun url => s!"原文：{url}").toList
  let lines := [s!"【{payload.sourceLabel}】", s!"【{payload.targetName}】"] ++ author ++
    [payload.content] ++ url
  let text := units ("\n".intercalate lines)
  if text.length ≤ maxLength then text else text.take (maxLength - 3) ++ units "..."

namespace Telegram

def maxMessageLength : ℕ := 4096

def networkUnreachable : ApiError :=
  .http .serviceUnavailable
    "无法连接 Telegram Bot API（api.telegram.org）：本机网络无法直连 Telegram，请通过代理运行或部署到可访问 Telegram 的服务器"
    "TELEGRAM_NETWORK_UNREACHABLE"

def sendFailed (status : ℕ) (body : String) : ApiError :=
  .http .serviceUnavailable s!"Telegram Bot API error ({status}): {body}" "TELEGRAM_SEND_FAILED"

def parseConfig (config : Js.Json) : Except ApiError (Js.Json × Js.Json) :=
  match truthy? config "botToken", truthy? config "chatId" with
  | some botToken, some chatId => .ok (botToken, chatId)
  | _, _ => .error telegramRequires

def request (botToken : Js.Json) (chatId : Js.Json) (text : Js.CodeUnits) : Api HttpResponse := do
  let token ← toText botToken
  Program.await (Op.fetch {
    url := units "https://api.telegram.org/bot" ++ token ++ units "/sendMessage"
    authorization := none
    body := .obj [(units "chat_id", chatId), (units "text", .str text)] })

/-- The last step is the text of the log line that names the chat. -/
def send (config : Js.Json) (payload : NotificationPayload) : Api Unit := do
  let (botToken, chatId) ← Program.ofExcept (parseConfig config)
  let text := buildForwardText payload maxMessageLength
  let response ←
    try request botToken chatId text
    catch _ => throw networkUnreachable
  if !response.ok then
    let body ← Program.ofExcept response.text
    throw (sendFailed response.status body)
  let _ ← toText chatId

end Telegram

structure Setting where
  appId : String
  clientSecret : String
  tokenUrl : String
  apiBase : String

namespace QqClientService

/-- `TOKEN_REFRESH_MARGIN_MS`, to be subtracted. -/
def refreshMargin : Js.Number := .finite (.ofInt (-60000) (by norm_num))

def defaultTtlSeconds : Js.Number := .ofNat 7200

def notConfigured : ApiError :=
  .http .serviceUnavailable "QQ 机器人未配置（缺少 QQ_APP_ID / QQ_APP_SECRET）" "QQ_NOT_CONFIGURED"

def tokenNetworkError : ApiError :=
  .http .serviceUnavailable "无法连接 QQ 开放平台（获取 access_token 失败）" "QQ_TOKEN_NETWORK_ERROR"

def tokenFailed (status : ℕ) : ApiError :=
  .http .serviceUnavailable s!"QQ 获取 access_token 失败 ({status})" "QQ_TOKEN_FAILED"

def sendNetworkError : ApiError :=
  .http .serviceUnavailable "无法连接 QQ 开放平台（发送群消息失败）" "QQ_SEND_NETWORK_ERROR"

def sendFailed (status : ℕ) (body : String) : ApiError :=
  .http .serviceUnavailable s!"QQ 发送群消息失败 ({status}): {body}" "QQ_SEND_FAILED"

variable (setting : Setting)

def ensureConfigured : Api Unit :=
  if setting.appId ≠ "" && setting.clientSecret ≠ "" then pure () else throw notConfigured

/-- `Number(v) || DEFAULT_TOKEN_TTL_SECONDS`. -/
def expiresInOf (v : Option Js.Json) : Except Js.TypeError Js.Number := do
  let n ← (v.map Js.Json.toNumber).getD (.ok .nan)
  return if n.truthy then n else defaultTtlSeconds

/-- The token of a response; a body that is `null` has no properties. -/
def accessTokenOf (response : HttpResponse) (body : Js.Json) : Except ApiError Js.Json :=
  if !response.ok then .error (tokenFailed response.status)
  else if body.isNull then .error (typeError (.nullProperty "access_token"))
  else
    match truthy? body "access_token" with
    | some token => .ok token
    | none => .error (tokenFailed response.status)

def fetchAccessToken : Api Js.Json := do
  let response ←
    try Program.await (Op.fetch {
      url := units setting.tokenUrl
      authorization := none
      body := .obj [(units "appId", .str (units setting.appId)),
        (units "clientSecret", .str (units setting.clientSecret))] })
    catch _ => throw tokenNetworkError
  let body ← Program.ofExcept response.json
  let token ← Program.ofExcept (accessTokenOf response body)
  let expiresIn ← Program.ofExcept ((expiresInOf (body.get? "expires_in")).mapError typeError)
  let now ← Program.await Op.now
  Program.await (Op.cacheToken
    ⟨token, (Js.round now).add (expiresIn.mul (.finite Js.thousand))⟩)
  return token

def getAccessToken : Api Js.Json := do
  ensureConfigured setting
  match ← Program.await Op.cachedToken with
  | some cached =>
      let now ← Program.await Op.now
      if (Js.round now).lt (cached.expiresAt.add refreshMargin) then return cached.token
      else fetchAccessToken setting
  | none => fetchAccessToken setting

/-- `encodeURIComponent(v)`. -/
def encodeURIComponent (v : Js.Json) : Except ApiError Js.CodeUnits :=
  match v.toText with
  | .error e => .error (typeError e)
  | .ok text =>
      match Js.encodeURIComponent? text with
      | some encoded => .ok (Js.utf16 encoded)
      | none => .error (.other "URI malformed")

def request (groupOpenid : Js.Json) (token : Js.Json) (text : Js.CodeUnits) : Api HttpResponse := do
  let group ← Program.ofExcept (encodeURIComponent groupOpenid)
  let authorization ← toText token
  Program.await (Op.fetch {
    url := units setting.apiBase ++ units "/v2/groups/" ++ group ++ units "/messages"
    authorization := some (units "QQBot " ++ authorization)
    body := .obj [(units "msg_type", .num .zero), (units "content", .str text)] })

def sendGroupMessage (groupOpenid : Js.Json) (text : Js.CodeUnits) : Api Unit := do
  ensureConfigured setting
  let token ← getAccessToken setting
  let response ←
    try request setting groupOpenid token text
    catch _ => throw sendNetworkError
  if !response.ok then
    let body ← Program.ofExcept response.text
    throw (sendFailed response.status body)
  let _ ← toText groupOpenid

end QqClientService

namespace Qq

def maxMessageLength : ℕ := 2000

def parseConfig (config : Js.Json) : Except ApiError Js.Json :=
  match truthy? config "groupOpenid" with
  | some groupOpenid => .ok groupOpenid
  | none => .error qqRequires

def send (setting : Setting) (config : Js.Json) (payload : NotificationPayload) : Api Unit := do
  let groupOpenid ← Program.ofExcept (parseConfig config)
  QqClientService.sendGroupMessage setting groupOpenid (buildForwardText payload maxMessageLength)

end Qq

namespace WeChat

/-- Only a line of the log. -/
def send (_ : Js.Json) (_ : NotificationPayload) : Api Unit := pure ()

end WeChat

/-- `provider.send`. -/
def sendBy (setting : Setting) : NotificationChannelType → Js.Json → NotificationPayload → Api Unit
  | .telegram => Telegram.send
  | .wechat => WeChat.send
  | .qq => Qq.send setting

end SocialMonitor.Channels

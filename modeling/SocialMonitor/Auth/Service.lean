import SocialMonitor.Js.Arithmetic
import SocialMonitor.Js.Base64
import SocialMonitor.Js.JsonText
import SocialMonitor.Js.Text
import SocialMonitor.Js.Utf8
import SocialMonitor.Schema

/-!
# Login and tokens

`AuthService`.  The message authentication code is a parameter: from the bytes
of a key and of a text it computes the bytes of a tag.
-/

namespace SocialMonitor.Auth

open Js

/-- What `Date.now()` answers. -/
structure Now where
  val : ℕ
  le : val ≤ maxTime
deriving DecidableEq

theorem Now.abs_le (now : Now) : |(now.val : ℤ)| ≤ 2 ^ 53 := by
  have htop : maxTime ≤ 2 ^ 53 := by norm_num [maxTime]
  rw [abs_of_nonneg (by positivity)]
  exact now.le.trans htop

abbrev Hmac := List UInt8 → List UInt8 → List UInt8

def defaultTtlSeconds : Double := .ofInt (30 * 24 * 60 * 60) (by norm_num)

structure AuthService where
  username : String
  password : String
  secret : String
  ttlSeconds : Double

/-- `Buffer.from` of both, compared. -/
def safeEqual (a b : List Char) : Bool :=
  let bufA := utf8 a
  let bufB := utf8 b
  if bufA.length ≠ bufB.length then false else bufA = bufB

structure AuthTokenPayload where
  sub : CodeUnits
  iat : Number
  exp : Number

def AuthTokenPayload.toJson (payload : AuthTokenPayload) : Json :=
  .obj [(utf16 "sub".toList, .str payload.sub), (utf16 "iat".toList, .num payload.iat),
    (utf16 "exp".toList, .num payload.exp)]

structure LoginResult where
  token : String
  expiresIn : Double

/-- `Math.floor(Date.now() / 1000)`. -/
def floorSeconds (now : Now) : Number :=
  ((Number.finite (.ofInt now.val now.abs_le)).div thousand).floor

namespace AuthService

variable (hmac : Hmac) (s : AuthService)

def payloadOf (now : Now) (subject : String) : AuthTokenPayload where
  sub := utf16 subject.toList
  iat := floorSeconds now
  exp := (floorSeconds now).add (.finite s.ttlSeconds)

/-- `createHmac("sha256", secret).update(payloadPart).digest("base64url")`. -/
def signature (payloadPart : List Char) : List Char :=
  base64url (hmac (utf8 s.secret.toList) (utf8 payloadPart))

def sign (now : Now) (subject : String) : String :=
  let payloadPart := base64url (utf8 (stringify (s.payloadOf now subject).toJson))
  String.ofList (payloadPart ++ '.' :: s.signature hmac payloadPart)

def login (now : Now) (username password : String) : Except ApiError LoginResult :=
  if s.username = "" ∨ s.password = "" then
    .error (.http .unauthorized "管理员账号未配置" "Unauthorized")
  else if !(safeEqual username.toList s.username.toList &&
      safeEqual password.toList s.password.toList) then
    .error (.http .unauthorized "用户名或密码错误" "Unauthorized")
  else .ok ⟨s.sign hmac now username, s.ttlSeconds⟩

def nullPayload : ApiError := .other "Cannot read properties of null (reading 'sub')"

/-- The payload of a text, if its properties have their types. -/
def typedPayload (payload : Json) : Option AuthTokenPayload :=
  match payload.get? "sub", payload.get? "exp", payload.get? "iat" with
  | some (.str sub), some (.num exp), some (.num iat) => some ⟨sub, iat, exp⟩
  | _, _, _ => none

/-- The error is a `TypeError`: a payload that is `null` has no properties. -/
def verify (now : Now) (token : String) : Except ApiError (Option AuthTokenPayload) :=
  match token.toList.splitOn '.' with
  | [payloadPart, signaturePart] =>
      match jsonParse (decodeUtf8 (decodeBase64url payloadPart)) with
      | none => .ok none
      | some .null => .error nullPayload
      | some value =>
          match typedPayload value with
          | none => .ok none
          | some payload =>
              if !safeEqual signaturePart (s.signature hmac payloadPart) then .ok none
              else if payload.exp.le (floorSeconds now) then .ok none
              else .ok (some payload)
  | _ => .ok none

end AuthService

/-! ## The guard -/

/-- The query parameter `token`: a text, or an array or object of several. -/
inductive QueryToken where
  | undefined
  | string (s : String)
  | other

structure GuardRequest where
  authorization : Option String
  token : QueryToken

/-- `"Bearer ".length` is seven. -/
def bearer : String := "Bearer "

def bearerToken (header : String) : Option String :=
  if bearer.toList <+: header.toList then
    nonempty? (trim (String.ofList (header.toList.drop bearer.length)))
  else none

def extractToken (request : GuardRequest) : Option String :=
  match request.authorization.bind bearerToken with
  | some token => some token
  | none =>
      match request.token with
      | .string s => nonempty? s
      | _ => none

structure User where
  username : CodeUnits
deriving DecidableEq

/-- A route is passed with the user that the request is given, if any. -/
def canActivate (hmac : Hmac) (s : AuthService) (now : Now) (isPublic : Bool)
    (request : GuardRequest) : Except ApiError (Option User) :=
  if isPublic then .ok none
  else do
    let payload ← match extractToken request with
      | some token => s.verify hmac now token
      | none => pure none
    match payload with
    | none => throw (.http .unauthorized "未登录或登录已过期" "Unauthorized")
    | some payload => pure (some ⟨payload.sub⟩)

end SocialMonitor.Auth

import SocialMonitor.Auth.Token
import SocialMonitor.Runs

/-!
# Sessions

Runs of logins, of the clock and of requests to routes that are not public.
-/

namespace SocialMonitor.Auth

open Js

structure World where
  now : Now
  issued : List (Now × String)

inductive Event where
  | login (username password : String)
  | advance (later : Now)
  | request (request : GuardRequest)

section Runs

variable (hmac : Hmac) (s : AuthService)

def step (w : World) : Event → World
  | .login username password =>
      match s.login hmac w.now username password with
      | .ok result => { w with issued := (w.now, result.token) :: w.issued }
      | .error _ => w
  | .advance later => { w with now := later }
  | .request _ => w

def Run (w : World) : Prop :=
  ∃ now, Machine.Run (step hmac s) (fun _ _ => True) ⟨now, []⟩ w

/-- A correct signature in the token of a request comes from a token that was
returned before. -/
def Unforged (w : World) (request : GuardRequest) : Prop :=
  ∀ token part, extractToken request = some token →
    token.toList.splitOn '.' = [part, s.signature hmac part] → ∃ t₀, (t₀, token) ∈ w.issued

/-- `floor(now / 1000) < floor(t₀ / 1000) + ttlSeconds`. -/
def Live (t₀ now : Now) : Prop :=
  (floorSeconds now).lt ((floorSeconds t₀).add (.finite s.ttlSeconds)) = true

structure Guarded (w : World) : Prop where
  admitted : ∀ request, Unforged hmac s w request →
    ((∃ user, canActivate hmac s w.now false request = .ok user) ↔
      ∃ t₀ token, extractToken request = some token ∧ (t₀, token) ∈ w.issued ∧ Live s t₀ w.now)
  user : ∀ request user, Unforged hmac s w request →
    canActivate hmac s w.now false request = .ok user → user = some ⟨utf16 s.username.toList⟩
  login : ∀ username password, (∃ result, s.login hmac w.now username password = .ok result) ↔
    s.username ≠ "" ∧ s.password ≠ "" ∧ username = s.username ∧ password = s.password

end Runs

variable {hmac : Hmac} {s : AuthService}

/-! ## Login -/

theorem login_ok {now : Now} {username password : String} {result : LoginResult}
    (h : s.login hmac now username password = .ok result) :
    (s.username ≠ "" ∧ s.password ≠ "" ∧ username = s.username ∧ password = s.password) ∧
      result.token = s.sign hmac now s.username := by
  unfold AuthService.login at h
  split_ifs at h with hempty hwrong
  obtain ⟨husername, hpassword⟩ : safeEqual username.toList s.username.toList = true ∧
      safeEqual password.toList s.password.toList = true := by simpa using hwrong
  obtain rfl := String.toList_inj.mp (safeEqual_iff.mp husername)
  rw [← Except.ok.inj h]
  have hne := not_or.mp hempty
  exact ⟨⟨hne.1, hne.2, rfl, String.toList_inj.mp (safeEqual_iff.mp hpassword)⟩, rfl⟩

theorem login_configured (now : Now) (husername : s.username ≠ "") (hpassword : s.password ≠ "") :
    s.login hmac now s.username s.password =
      .ok ⟨s.sign hmac now s.username, s.ttlSeconds⟩ := by
  have hempty : ¬ (s.username = "" ∨ s.password = "") := not_or.mpr ⟨husername, hpassword⟩
  rw [AuthService.login, if_neg hempty, safeEqual_iff.mpr rfl, safeEqual_iff.mpr rfl]
  rfl

theorem issued_step {w : World} (e : Event)
    (hw : ∀ t₀ token, (t₀, token) ∈ w.issued → token = s.sign hmac t₀ s.username) :
    ∀ t₀ token, (t₀, token) ∈ (step hmac s w e).issued → token = s.sign hmac t₀ s.username := by
  cases e with
  | login username password =>
      intro t₀ token hmem
      rw [step] at hmem
      split at hmem
      · rename_i result hok
        rcases List.mem_cons.mp hmem with heq | hmem
        · obtain ⟨rfl, rfl⟩ := Prod.mk.inj heq
          exact (login_ok hok).2
        · exact hw t₀ token hmem
      · exact hw t₀ token hmem
  | advance later => exact hw
  | request request => exact hw

theorem issued_of_run {w : World} (h : Run hmac s w) :
    ∀ t₀ token, (t₀, token) ∈ w.issued → token = s.sign hmac t₀ s.username := by
  obtain ⟨now, hrun⟩ := h
  exact hrun.invariant (fun w => ∀ t₀ token, (t₀, token) ∈ w.issued →
    token = s.sign hmac t₀ s.username) (by simp) fun w e _ ih _ => issued_step e ih

/-! ## Requests -/

theorem canActivate_ok {now : Now} {request : GuardRequest} {user : Option User} :
    canActivate hmac s now false request = .ok user ↔ ∃ token payload,
      extractToken request = some token ∧ s.verify hmac now token = .ok (some payload) ∧
        user = some ⟨payload.sub⟩ := by
  unfold canActivate
  rw [if_neg Bool.false_ne_true]
  cases htoken : extractToken request with
  | none => simp [bind, Except.bind, pure, Except.pure, throw, throwThe, MonadExceptOf.throw]
  | some token =>
      cases hverify : s.verify hmac now token with
      | error e => simp [bind, Except.bind, hverify]
      | ok payload =>
          cases payload with
          | none =>
              simp [bind, Except.bind, throw, throwThe, MonadExceptOf.throw, hverify]
          | some payload => simp [bind, Except.bind, pure, Except.pure, hverify, eq_comm]

theorem verify_issued (hmac : Hmac) (now t₀ : Now) :
    s.verify hmac now (s.sign hmac t₀ s.username) = .ok (some (s.payloadOf t₀ s.username)) ↔
      Live s t₀ now := by
  obtain ⟨e, he⟩ := s.payloadOf_exp_finite t₀ s.username
  have hexp : (floorSeconds t₀).add (.finite s.ttlSeconds) = .finite e := he
  have hle : (s.payloadOf t₀ s.username).exp.le (floorSeconds now) =
      !(floorSeconds now).lt ((floorSeconds t₀).add (.finite s.ttlSeconds)) := by
    rw [he, hexp, floorSeconds_eq]
    rfl
  rw [s.verify_sign hmac, hle, Live]
  cases (floorSeconds now).lt ((floorSeconds t₀).add (.finite s.ttlSeconds)) <;> simp

/-- A request is admitted on a token that a login has returned, as long as it
lives, and with the name of the administrator. -/
theorem guard_admits {w : World} (hrun : Run hmac s w) : Guarded hmac s w := by
  have hissued := issued_of_run hrun
  have haccepted : ∀ request token payload, Unforged hmac s w request →
      extractToken request = some token → s.verify hmac w.now token = .ok (some payload) →
        ∃ t₀, (t₀, token) ∈ w.issued ∧ payload = s.payloadOf t₀ s.username ∧ Live s t₀ w.now := by
    intro request token payload hunforged htoken hverify
    obtain ⟨part, hpart⟩ := s.signed_of_verify hmac hverify
    obtain ⟨t₀, hmem⟩ := hunforged token part htoken hpart
    rw [hissued t₀ token hmem] at hverify
    have hpayload : payload = s.payloadOf t₀ s.username := by
      rw [s.verify_sign hmac] at hverify
      split_ifs at hverify
      · simp at hverify
      · simpa using hverify.symm
    exact ⟨t₀, hmem, hpayload, (verify_issued hmac w.now t₀).mp (hpayload ▸ hverify)⟩
  constructor
  · intro request hunforged
    constructor
    · rintro ⟨user, hok⟩
      obtain ⟨token, payload, htoken, hverify, -⟩ := canActivate_ok.mp hok
      obtain ⟨t₀, hmem, -, hlive⟩ := haccepted request token payload hunforged htoken hverify
      exact ⟨t₀, token, htoken, hmem, hlive⟩
    · rintro ⟨t₀, token, htoken, hmem, hlive⟩
      have hverify := (verify_issued hmac w.now t₀).mpr hlive
      rw [← hissued t₀ token hmem] at hverify
      exact ⟨_, canActivate_ok.mpr ⟨token, _, htoken, hverify, rfl⟩⟩
  · intro request user hunforged hok
    obtain ⟨token, payload, htoken, hverify, rfl⟩ := canActivate_ok.mp hok
    obtain ⟨t₀, -, rfl, -⟩ := haccepted request token payload hunforged htoken hverify
    rfl
  · intro username password
    constructor
    · rintro ⟨result, hok⟩
      exact (login_ok hok).1
    · rintro ⟨husername, hpassword, rfl, rfl⟩
      exact ⟨_, login_configured w.now husername hpassword⟩

theorem live_iff {t₀ now : Now} {n : ℕ} (httl : s.ttlSeconds.val = n)
    (hn : t₀.val / 1000 + n ≤ 2 ^ 53) :
    Live s t₀ now ↔ now.val / 1000 < t₀.val / 1000 + n := by
  have habs : |((t₀.val / 1000 + n : ℕ) : ℤ)| ≤ 2 ^ 53 := by
    rw [abs_of_nonneg (by positivity)]
    exact_mod_cast hn
  have hsum : (floorSeconds t₀).add (.finite s.ttlSeconds) =
      .finite (.ofInt (t₀.val / 1000 + n : ℕ) habs) := by
    rw [floorSeconds_eq, ← round_intCast habs]
    change Js.round (t₀.seconds.val + s.ttlSeconds.val) = _
    rw [t₀.seconds_val, httl]
    push_cast
    rfl
  rw [Live, hsum, floorSeconds_eq]
  simp only [Number.lt, now.seconds_val, Double.ofInt, Int.cast_natCast, decide_eq_true_eq]
  exact_mod_cast Iff.rfl

/-! ## One session -/

def sampleService : AuthService where
  username := "e2e-admin"
  password := "e2e-password"
  secret := "e2e-secret-key"
  ttlSeconds := defaultTtlSeconds

def sampleToken : String :=
  "eyJzdWIiOiJlMmUtYWRtaW4iLCJpYXQiOjE3MDAwMDAwMDAsImV4cCI6MTcwMjU5MjAwMH0" ++
    ".V6tETD9_5b5Batg9pIAjGy_UKVo4jECvi2AsTmUnRSM"

/-- The code of the payload of `sampleToken`. -/
def sampleHmac : Hmac := fun key text =>
  if key = utf8 "e2e-secret-key".toList ∧
      text = utf8 "eyJzdWIiOiJlMmUtYWRtaW4iLCJpYXQiOjE3MDAwMDAwMDAsImV4cCI6MTcwMjU5MjAwMH0".toList then
    [87, 171, 68, 76, 63, 127, 229, 190, 65, 106, 216, 61, 164, 128, 35, 27, 47, 212, 41, 90, 56,
      140, 64, 175, 139, 96, 44, 78, 101, 39, 69, 35]
  else []

def sampleLogin : Now := ⟨1700000000000, by decide⟩

/-- A second before the expiry. -/
def sampleRequest : Now := ⟨1702591999999, by decide⟩

def sampleWorld : World :=
  [Event.login "e2e-admin" "wrong", .login "e2e-admin" "e2e-password", .advance sampleRequest].foldl
    (step sampleHmac sampleService) ⟨sampleLogin, []⟩

def sampleHeader : GuardRequest := ⟨some (bearer ++ sampleToken), .undefined⟩

theorem sampleToken_signed :
    sampleService.sign sampleHmac sampleLogin "e2e-admin" = sampleToken := by decide +kernel

theorem sampleWorld_issued : sampleWorld.issued = [(sampleLogin, sampleToken)] := by
  have hwrong : sampleService.login sampleHmac sampleLogin "e2e-admin" "wrong" =
      .error (.http .unauthorized "用户名或密码错误" "Unauthorized") := by
    rw [AuthService.login, if_neg (by decide), if_pos (by decide)]
  have hlogin : sampleService.login sampleHmac sampleLogin "e2e-admin" "e2e-password" =
      .ok ⟨sampleToken, defaultTtlSeconds⟩ := by
    rw [← sampleToken_signed]
    rfl
  simp only [sampleWorld, List.foldl_cons, List.foldl_nil, step, hwrong, hlogin]

theorem sampleHeader_token : extractToken sampleHeader = some sampleToken := by decide +kernel

theorem guard_admits_sample : Guarded sampleHmac sampleService sampleWorld ∧
    canActivate sampleHmac sampleService sampleWorld.now false sampleHeader =
      .ok (some ⟨utf16 "e2e-admin".toList⟩) := by
  have hrun : Run sampleHmac sampleService sampleWorld :=
    ⟨sampleLogin, Machine.Run.refl.list ⟨trivial, trivial, trivial, trivial⟩⟩
  have hguarded := guard_admits hrun
  have hunforged : Unforged sampleHmac sampleService sampleWorld sampleHeader := by
    intro token part htoken _
    obtain rfl := Option.some_inj.mp (sampleHeader_token.symm.trans htoken)
    exact ⟨sampleLogin, by rw [sampleWorld_issued]; exact List.mem_cons_self⟩
  have hlive : Live sampleService sampleLogin sampleWorld.now :=
    (live_iff (n := 30 * 24 * 60 * 60)
      (by norm_num [sampleService, defaultTtlSeconds, Double.ofInt])
      (by decide)).mpr (by decide)
  obtain ⟨user, huser⟩ := (hguarded.admitted sampleHeader hunforged).mpr
    ⟨sampleLogin, sampleToken, sampleHeader_token, by simp [sampleWorld_issued], hlive⟩
  obtain rfl := hguarded.user sampleHeader user hunforged huser
  exact ⟨hguarded, huser⟩

example : canActivate sampleHmac sampleService ⟨1702592000000, by decide⟩ false sampleHeader =
    .error (.http .unauthorized "未登录或登录已过期" "Unauthorized") := by
  have hexpired : sampleService.verify sampleHmac ⟨1702592000000, by decide⟩ sampleToken =
      .ok none := by
    rw [← sampleToken_signed, AuthService.verify_sign]
    exact if_pos (by decide +kernel)
  rw [canActivate, sampleHeader_token]
  simp only [Bool.false_eq_true, if_false, hexpired]
  rfl

end SocialMonitor.Auth

import SocialMonitor.Channels.Providers

/-!
# The token of the QQ client

The client keeps the last token that it was granted, with the time until which
it may be used.  Calls overlap while they wait for the endpoint; the clock and
the token are read and written without waiting.
-/

namespace SocialMonitor.Channels.QqClientService

open Async

variable {α : Type}

/-- A program up to its next request.  The clock and the cached token are at
hand. -/
def settle (now : Time) : Api α → Option CachedToken → Api α × Option CachedToken
  | .call .now next, cached => settle now (next (.ok now)) cached
  | .call .cachedToken next, cached => settle now (next (.ok cached)) cached
  | .call (.cacheToken token) next, _ => settle now (next (.ok ())) (some token)
  | p, cached => (p, cached)

/-- A token, the moment at which it was granted, and its lifetime in seconds. -/
structure Grant where
  token : Js.Json
  grantedAt : ℚ
  lifetime : Js.Number

/-- A call that waits for the answer to its request. -/
structure Pending where
  sentAt : Time
  next : Except ApiError HttpResponse → Api Js.Json

/-- The client, with the grant of its cached token. -/
structure TokenClient where
  cachedToken : Option CachedToken
  origin : Option Grant
  clock : Time
  pending : List Pending

/-- `getAccessToken` is called, or a pending request is answered.  Without a
response it failed. -/
inductive TokenEvent where
  | call (now : Time)
  | answer (i : ℕ) (now : Time) (grantedAt : ℚ) (response : Option HttpResponse)

def answered (response : Option HttpResponse) : Except ApiError HttpResponse :=
  match response with
  | some response => .ok response
  | none => .error (.other "fetch failed")

/-- The token of a successful response, and the body that it is in. -/
def tokenBody? (response : HttpResponse) : Option (Js.Json × Js.Json) :=
  match response.json with
  | .ok body =>
      match accessTokenOf response body with
      | .ok token => some (token, body)
      | .error _ => none
  | .error _ => none

/-- The lifetime of a body, as a number or as its text. -/
def lifetime? (body : Js.Json) : Option Js.Number :=
  match body.get? "expires_in" with
  | some (.num x) => some x
  | some (.str s) => some (Js.unitsToNumber s)
  | _ => none

def grant? (grantedAt : ℚ) (response : Option HttpResponse) : Option Grant :=
  (response.bind tokenBody?).map fun granted =>
    ⟨granted.1, grantedAt, (lifetime? granted.2).getD .nan⟩

namespace TokenClient

variable (setting : Setting)

def initial : TokenClient := ⟨none, none, 0, []⟩

def step (s : TokenClient) : TokenEvent → TokenClient
  | .call now =>
      match settle now (getAccessToken setting) s.cachedToken with
      | (.call (.fetch _) next, cached) =>
          { s with cachedToken := cached, clock := now, pending := s.pending ++ [⟨now, next⟩] }
      | (_, cached) => { s with cachedToken := cached, clock := now }
  | .answer i now grantedAt response =>
      match s.pending[i]? with
      | some p =>
          { s with
            cachedToken := (settle now (p.next (answered response)) s.cachedToken).2
            origin := (grant? grantedAt response).or s.origin
            clock := now
            pending := s.pending.eraseIdx i }
      | none => s

/-- The token that a call returns from the cache. -/
def returned (s : TokenClient) (now : Time) : Option Js.Json :=
  match settle now (getAccessToken setting) s.cachedToken with
  | (.ret token, _) => some token
  | _ => none

end TokenClient

def NonNegative : Js.Number → Prop
  | .finite x => 0 ≤ x.val
  | .infinite negative => negative = false
  | .nan => False

/-- More than fifty seconds of the lifetime remain. -/
def Grant.Remains (g : Grant) (now : Time) : Prop :=
  match g.lifetime with
  | .finite x => (now : ℚ) < g.grantedAt + 1000 * x.val - 50000
  | .infinite negative => negative = false
  | .nan => False

namespace TokenClient

variable (setting : Setting)

/-- The clock does not go back, and a token is granted between the request and
its answer, within the timeout, with a lifetime that is not negative. -/
def Admitted (s : TokenClient) : TokenEvent → Prop
  | .call now => s.clock ≤ now ∧ now ≤ Js.maxTime
  | .answer i now grantedAt response => s.clock ≤ now ∧ now ≤ Js.maxTime ∧
      ∀ p ∈ s.pending[i]?, ∀ granted ∈ response.bind tokenBody?,
        now ≤ p.sentAt + 10000 ∧ p.sentAt ≤ grantedAt ∧ grantedAt ≤ now ∧
          ∃ lifetime ∈ lifetime? granted.2, NonNegative lifetime

/-- Whatever a call returns from the cache has most of its lifetime left. -/
def Fresh (s : TokenClient) : Prop :=
  ∀ now, s.clock ≤ now → now ≤ Js.maxTime → ∀ token ∈ returned setting s now,
    ∃ g ∈ s.origin, g.token = token ∧ g.Remains now

/-- No token is granted with a lifetime of zero. -/
def GrantsNonzero (s : TokenClient) : TokenEvent → Prop
  | .call _ => True
  | .answer i _ _ response => ∀ _p ∈ s.pending[i]?, ∀ granted ∈ response.bind tokenBody?,
      ∀ lifetime ∈ lifetime? granted.2, lifetime ≠ .zero

end TokenClient

/-! ## What a call does -/

def Configured (setting : Setting) : Prop := setting.appId ≠ "" ∧ setting.clientSecret ≠ ""

def tokenRequest (setting : Setting) : HttpRequest where
  url := units setting.tokenUrl
  authorization := none
  body := .obj [(units "appId", .str (units setting.appId)),
    (units "clientSecret", .str (units setting.clientSecret))]

/-- `fetchAccessToken` after its request. -/
def afterResponse (answer : Except ApiError HttpResponse) : Api Js.Json := do
  let response ← Program.ofExcept (answer.mapError fun _ => tokenNetworkError)
  let body ← Program.ofExcept response.json
  let token ← Program.ofExcept (accessTokenOf response body)
  let expiresIn ← Program.ofExcept ((expiresInOf (body.get? "expires_in")).mapError typeError)
  let now ← Program.await Op.now
  Program.await (Op.cacheToken
    ⟨token, (Js.round now).add (expiresIn.mul (.finite Js.thousand))⟩)
  return token

theorem fetchAccessToken_eq (setting : Setting) :
    fetchAccessToken setting = .call (.fetch (tokenRequest setting)) afterResponse := by
  unfold fetchAccessToken
  refine congrArg (Program.call _) (funext fun answer => ?_)
  cases answer <;> rfl

/-- The cached token may still be used. -/
def usable (now : Time) (cached : CachedToken) : Bool :=
  (Js.round now).lt (cached.expiresAt.add refreshMargin)

theorem settle_getAccessToken {setting : Setting} (h : Configured setting) (now : Time)
    (cached : Option CachedToken) : settle now (getAccessToken setting) cached =
      (match cached.filter (usable now) with
        | some c => .ret c.token
        | none => .call (.fetch (tokenRequest setting)) afterResponse, cached) := by
  have hconfigured : ensureConfigured setting = .ret () := by
    unfold ensureConfigured
    rw [if_pos (by simpa [Configured] using h)]
    rfl
  unfold getAccessToken
  rw [hconfigured, fetchAccessToken_eq]
  cases cached with
  | none => rfl
  | some c =>
      simp only [Program.bind_def, Program.bind, Program.await, settle, Program.ofExcept_ok]
      by_cases husable : usable now c = true
      · have hkept : (some c).filter (usable now) = some c := by simp [husable]
        have hlt : (Js.round now).lt (c.expiresAt.add refreshMargin) = true := husable
        rw [hkept, if_pos hlt]
        rfl
      · have hspent : (some c).filter (usable now) = none := by simp [husable]
        have hge : ¬ (Js.round now).lt (c.expiresAt.add refreshMargin) = true := husable
        rw [hspent, if_neg hge]
        rfl

theorem settle_unconfigured {setting : Setting} (h : ¬ Configured setting) (now : Time)
    (cached : Option CachedToken) :
    settle now (getAccessToken setting) cached = (.raise notConfigured, cached) := by
  have hconfigured : ensureConfigured setting = .raise notConfigured := by
    unfold ensureConfigured
    rw [if_neg (by simpa [Configured] using h)]
    rfl
  unfold getAccessToken
  rw [hconfigured]
  rfl

/-- What `Number(expires_in)` is replaced by. -/
def effective (lifetime : Js.Number) : Js.Number :=
  if lifetime.truthy then lifetime else defaultTtlSeconds

theorem expiresInOf_lifetime {body : Js.Json} {lifetime : Js.Number}
    (h : lifetime? body = some lifetime) :
    expiresInOf (body.get? "expires_in") = .ok (effective lifetime) := by
  unfold lifetime? at h
  split at h
  · rename_i x hx
    obtain rfl := Option.some_inj.mp h
    rw [hx]
    rfl
  · rename_i s hs
    obtain rfl := Option.some_inj.mp h
    rw [hs]
    rfl
  · exact absurd h (by simp)

/-- A granted token is cached from the moment of the answer on. -/
theorem settle_granted {response : HttpResponse} {token body : Js.Json} {lifetime : Js.Number}
    (h : tokenBody? response = some (token, body)) (hlifetime : lifetime? body = some lifetime)
    (now : Time) (cached : Option CachedToken) :
    settle now (afterResponse (answered (some response))) cached = (.ret token, some
      ⟨token, (Js.round now).add ((effective lifetime).mul (.finite Js.thousand))⟩) := by
  unfold tokenBody? at h
  split at h
  · rename_i body' hjson
    split at h
    · rename_i token' htoken
      obtain ⟨rfl, rfl⟩ := Prod.mk.inj (Option.some_inj.mp h)
      simp only [afterResponse, answered, Except.mapError, hjson, htoken,
        expiresInOf_lifetime hlifetime, Program.ofExcept_ok, Program.bind_def, Program.bind,
        Program.await, settle]
      rfl
    · exact absurd h (by simp)
  · exact absurd h (by simp)

/-- Nothing else is cached. -/
theorem settle_refused {response : Option HttpResponse} (h : response.bind tokenBody? = none)
    (now : Time) (cached : Option CachedToken) :
    (settle now (afterResponse (answered response)) cached).2 = cached := by
  cases response with
  | none => rfl
  | some r =>
      simp only [Option.bind_some, tokenBody?] at h
      simp only [afterResponse, answered, Except.mapError, Program.ofExcept_ok, Program.bind_def,
        Program.bind]
      cases hjson : r.json with
      | error e => rfl
      | ok body =>
          cases htoken : accessTokenOf r body with
          | error e => simp [Program.ofExcept_error, Program.bind, htoken, settle]
          | ok token => simp [hjson, htoken] at h

/-! ## The margin -/

/-- The sum of a time and a number of milliseconds, less the margin. -/
theorem lt_margin_false {a now : ℤ} {x : Js.Double} (ha : 0 ≤ a) (hnow : 0 ≤ now)
    (hmax : now ≤ Js.maxTime) (hx : 0 ≤ x.val) (hle : (a : ℚ) + x.val * 1000 ≤ now + 60000) :
    (Js.round now).lt (((Js.round a).add ((Js.Number.finite x).mul (.finite Js.thousand))).add
      refreshMargin) = false := by
  have hbound : (now : ℚ) ≤ 8640000000000000 := by exact_mod_cast hmax
  have haq : (0 : ℚ) ≤ a := by exact_mod_cast ha
  have hnowq : (0 : ℚ) ≤ now := by exact_mod_cast hnow
  have htop : Js.maxTime + 60000 ≤ 2 ^ 53 := by norm_num [Js.maxTime]
  have hacast : a ≤ now + 60000 := by
    have : (a : ℚ) ≤ now + 60000 := by linarith
    exact_mod_cast this
  obtain ⟨m, hm, hmle, hm0⟩ := Js.round_le (q := x.val * 1000) (n := now - a + 60000)
    (by rw [abs_of_nonneg (by positivity)]; norm_num; linarith) (by omega) (by omega)
    (by push_cast; linarith)
  obtain ⟨u, hu, hule, hu0⟩ := Js.round_le (q := a + m.val) (n := now + 60000)
    (by
      have hm0' := hm0 (by positivity)
      push_cast at hmle
      rw [abs_of_nonneg (by positivity)]
      norm_num
      linarith) (by omega) (by omega) (by push_cast at hmle ⊢; linarith)
  obtain ⟨v, hv, hvle, -⟩ := Js.round_le (q := u.val - 60000) (n := now)
    (by
      have hu0' := hu0 (by have := hm0 (by positivity); positivity)
      push_cast at hule
      rw [abs_le]
      norm_num
      constructor <;> linarith) (by omega) (by omega) (by push_cast at hule ⊢; linarith)
  have hround : ∀ t : ℤ, 0 ≤ t → t ≤ Js.maxTime + 60000 →
      ∃ y : Js.Double, Js.round t = .finite y ∧ y.val = t := fun t h0 hle =>
    ⟨_, Js.round_intCast (by rw [abs_of_nonneg h0]; omega), rfl⟩
  obtain ⟨y, hy, hyval⟩ := hround a ha (by omega)
  obtain ⟨z, hz, hzval⟩ := hround now hnow (by omega)
  have hmul : (Js.Number.finite x).mul (.finite Js.thousand) = .finite m := by
    rw [← hm]
    simp [Js.Number.mul, Js.Double.mul, Js.thousand, Js.Double.ofInt]
  have hadd : (Js.Number.finite y).add (.finite m) = .finite u := by
    rw [← hu, ← hyval]
    rfl
  have hsub : (Js.Number.finite u).add refreshMargin = .finite v := by
    rw [← hv]
    simp [Js.Number.add, Js.Double.add, refreshMargin, Js.Double.ofInt, sub_eq_add_neg]
  rw [hy, hz, hmul, hadd, hsub]
  simpa [Js.Number.lt, hzval] using hvle

theorem usable_remains {a now : Time} {cached : CachedToken} {g : Grant} (ha : 0 ≤ a)
    (hnow : 0 ≤ now) (hmax : now ≤ Js.maxTime)
    (hgranted : (a : ℚ) - 10000 ≤ g.grantedAt) (hlifetime : NonNegative g.lifetime)
    (hexpires : cached.expiresAt = (Js.round a).add (g.lifetime.mul (.finite Js.thousand)))
    (h : usable now cached = true) : g.Remains now := by
  unfold Grant.Remains
  cases hvalue : g.lifetime with
  | nan => simp [hvalue, NonNegative] at hlifetime
  | infinite negative => simpa [hvalue, NonNegative] using hlifetime
  | finite x =>
      rw [hvalue] at hlifetime hexpires
      by_contra hspent
      rw [usable, hexpires, lt_margin_false ha hnow hmax hlifetime] at h
      · exact absurd h (by decide)
      · dsimp only at hspent
        linarith

theorem effective_of_ne {lifetime : Js.Number} (h : NonNegative lifetime) (hne : lifetime ≠ .zero) :
    effective lifetime = lifetime := by
  have htruthy : lifetime.truthy = true := by
    cases lifetime with
    | nan => exact absurd h id
    | infinite negative => rfl
    | finite x =>
        refine decide_eq_true fun hzero => hne ?_
        exact congrArg Js.Number.finite (Js.Double.ext hzero)
  rw [effective, if_pos htruthy]

/-- A lifetime of zero counts as two hours. -/
theorem usable_zero {now : ℤ} (hnow : 0 ≤ now) (hmax : now ≤ Js.maxTime) (token : Js.Json) :
    usable now ⟨token, (Js.round now).add ((effective .zero).mul (.finite Js.thousand))⟩ =
      true := by
  have hsafe : ∀ t : ℤ, 0 ≤ t → t ≤ Js.maxTime + 7200000 → |t| ≤ 2 ^ 53 := by
    intro t h0 hle
    have htop : Js.maxTime + 7200000 ≤ 2 ^ 53 := by norm_num [Js.maxTime]
    rw [abs_of_nonneg h0]
    omega
  have hround := Js.round_intCast (hsafe now hnow (by omega))
  have hlater := Js.round_intCast (hsafe (now + 7200000) (by omega) (by omega))
  have hless := Js.round_intCast (hsafe (now + 7140000) (by omega) (by omega))
  have hmul : (effective .zero).mul (.finite Js.thousand) =
      .finite (Js.Double.ofInt 7200000 (by norm_num)) := by decide +kernel
  have hadd : (Js.Number.finite (Js.Double.ofInt now (hsafe now hnow (by omega)))).add
      (.finite (Js.Double.ofInt 7200000 (by norm_num))) =
      .finite (Js.Double.ofInt (now + 7200000) (hsafe _ (by omega) (by omega))) := by
    rw [← hlater]
    push_cast
    rfl
  have hsub : (Js.Number.finite (Js.Double.ofInt (now + 7200000)
      (hsafe _ (by omega) (by omega)))).add refreshMargin =
      .finite (Js.Double.ofInt (now + 7140000) (hsafe _ (by omega) (by omega))) := by
    rw [← hless]
    simp only [Js.Number.add, Js.Double.add, refreshMargin, Js.Double.ofInt]
    push_cast
    congr 1
    ring
  rw [usable, hmul, hround, hadd, hsub]
  simp [Js.Number.lt, Js.Double.ofInt]

/-! ## Runs -/

namespace TokenClient

/-- The grant lies behind the cached token, which counts its lifetime from a
moment at most ten seconds after it. -/
def Backs (g : Grant) (cached : CachedToken) : Prop :=
  g.token = cached.token ∧ NonNegative g.lifetime ∧ ∃ a : ℤ, 0 ≤ a ∧ (a : ℚ) - 10000 ≤ g.grantedAt ∧
    cached.expiresAt = (Js.round a).add (g.lifetime.mul (.finite Js.thousand))

structure Sound (setting : Setting) (s : TokenClient) : Prop where
  clock : 0 ≤ s.clock
  pending : ∀ p ∈ s.pending, Configured setting ∧ p.next = afterResponse
  cached : ∀ c ∈ s.cachedToken, ∃ g ∈ s.origin, Backs g c

variable {setting : Setting} {s : TokenClient}

theorem returned_eq (h : Configured setting) (s : TokenClient) (now : Time) :
    returned setting s now = (s.cachedToken.filter (usable now)).map (·.token) := by
  rw [returned, settle_getAccessToken h]
  cases s.cachedToken.filter (usable now) <;> rfl

theorem Sound.fresh (h : s.Sound setting) : s.Fresh setting := by
  intro now hclock hmax token htoken
  by_cases hconfigured : Configured setting
  · rw [returned_eq hconfigured] at htoken
    obtain ⟨c, hc, rfl⟩ := Option.map_eq_some_iff.mp htoken
    obtain ⟨hcached, husable⟩ := Option.filter_eq_some_iff.mp hc
    obtain ⟨g, hg, htoken, hlifetime, a, ha, hgranted, hexpires⟩ := h.cached c hcached
    exact ⟨g, hg, htoken, usable_remains ha (h.clock.trans hclock) hmax hgranted hlifetime hexpires
      husable⟩
  · rw [returned, settle_unconfigured hconfigured] at htoken
    exact absurd htoken (by simp)

/-- A call changes nothing but the clock, or waits for the endpoint. -/
theorem step_call (setting : Setting) (s : TokenClient) (now : Time) :
    step setting s (.call now) = { s with clock := now } ∨
      Configured setting ∧ step setting s (.call now) =
        { s with clock := now, pending := s.pending ++ [⟨now, afterResponse⟩] } := by
  by_cases hconfigured : Configured setting
  · simp only [step, settle_getAccessToken hconfigured]
    cases s.cachedToken.filter (usable now) with
    | none => exact Or.inr ⟨hconfigured, rfl⟩
    | some c => exact Or.inl rfl
  · simp only [step, settle_unconfigured hconfigured]
    exact Or.inl trivial

theorem step_answer {i : ℕ} {p : Pending} (hi : s.pending[i]? = some p)
    (hnext : p.next = afterResponse) (now : Time) (grantedAt : ℚ)
    (response : Option HttpResponse) : step setting s (.answer i now grantedAt response) =
      { s with
        cachedToken := (settle now (afterResponse (answered response)) s.cachedToken).2
        origin := (grant? grantedAt response).or s.origin
        clock := now
        pending := s.pending.eraseIdx i } := by
  simp only [step, hi, hnext]

theorem Sound.step_call (h : s.Sound setting) {now : Time} (hclock : s.clock ≤ now) :
    (step setting s (.call now)).Sound setting := by
  have hnow : 0 ≤ now := h.clock.trans hclock
  rcases TokenClient.step_call setting s now with hsame | ⟨hconfigured, hwaits⟩
  · rw [hsame]
    exact ⟨hnow, h.pending, h.cached⟩
  · rw [hwaits]
    refine ⟨hnow, fun p hp => ?_, h.cached⟩
    rcases List.mem_append.mp hp with hold | hnew
    · exact h.pending p hold
    · obtain rfl := List.mem_singleton.mp hnew
      exact ⟨hconfigured, rfl⟩

/-- What an answer grants, if anything. -/
theorem granted_cases (response : Option HttpResponse) : response.bind tokenBody? = none ∨
    ∃ r token body, response = some r ∧ tokenBody? r = some (token, body) := by
  cases response with
  | none => exact Or.inl rfl
  | some r =>
      cases hbody : tokenBody? r with
      | none => exact Or.inl hbody
      | some granted => exact Or.inr ⟨r, granted.1, granted.2, rfl, hbody⟩

theorem Sound.step_answer (h : s.Sound setting) {i : ℕ} {now : Time} {grantedAt : ℚ}
    {response : Option HttpResponse}
    (hadmitted : s.Admitted (.answer i now grantedAt response))
    (hnonzero : s.GrantsNonzero (.answer i now grantedAt response)) :
    (step setting s (.answer i now grantedAt response)).Sound setting := by
  obtain ⟨hclock, hmax, hgrants⟩ := hadmitted
  have hnow : 0 ≤ now := h.clock.trans hclock
  cases hi : s.pending[i]? with
  | none =>
      simp only [step, hi]
      exact h
  | some p =>
      rw [TokenClient.step_answer hi (h.pending p (List.mem_of_getElem? hi)).2]
      have hpending : ∀ q ∈ s.pending.eraseIdx i, Configured setting ∧ q.next = afterResponse :=
        fun q hq => h.pending q ((List.eraseIdx_sublist s.pending i).mem hq)
      rcases granted_cases response with hrefused | ⟨r, token, body, rfl, hbody⟩
      · rw [settle_refused hrefused]
        have hnone : grant? grantedAt response = none := by simp [grant?, hrefused]
        exact ⟨hnow, hpending, by rw [hnone]; exact h.cached⟩
      · obtain ⟨hsoon, hsent, -, lifetime, hlifetime, hnonneg⟩ := hgrants p hi (token, body) hbody
        have hne := hnonzero p hi (token, body) hbody lifetime hlifetime
        rw [settle_granted hbody hlifetime]
        refine ⟨hnow, hpending, fun c hc => ?_⟩
        obtain rfl := Option.some_inj.mp hc
        refine ⟨⟨token, grantedAt, lifetime⟩, ?_, rfl, hnonneg, now, hnow, ?_, ?_⟩
        · simp [grant?, hbody, Option.mem_def.mp hlifetime]
        · have hsoonq : (now : ℚ) ≤ p.sentAt + 10000 := by exact_mod_cast hsoon
          dsimp only
          linarith
        · rw [effective_of_ne hnonneg hne]

theorem Sound.step (h : s.Sound setting) {e : TokenEvent} (hadmitted : s.Admitted e)
    (hnonzero : s.GrantsNonzero e) : (step setting s e).Sound setting := by
  cases e with
  | call now => exact h.step_call hadmitted.1
  | answer i now grantedAt response => exact h.step_answer hadmitted hnonzero

/-- A token granted for no time at all is returned from the cache at once. -/
theorem Sound.nonzero_of_fresh (h : s.Sound setting) {e : TokenEvent} (hadmitted : s.Admitted e)
    (hfresh : (TokenClient.step setting s e).Fresh setting) : s.GrantsNonzero e := by
  cases e with
  | call now => trivial
  | answer i now grantedAt response =>
      rintro p hi ⟨token, body⟩ hgranted lifetime hlifetime rfl
      obtain ⟨r, rfl, hbody⟩ := Option.bind_eq_some_iff.mp hgranted
      obtain ⟨hclock, hmax, hgrants⟩ := hadmitted
      obtain ⟨-, -, hpast, -⟩ := hgrants p hi (token, body) hgranted
      obtain ⟨hconfigured, hnext⟩ := h.pending p (List.mem_of_getElem? hi)
      rw [TokenClient.step_answer hi hnext, settle_granted hbody hlifetime] at hfresh
      obtain ⟨g, hg, -, hremains⟩ := hfresh now le_rfl hmax token (by
        rw [returned_eq hconfigured]
        simp [usable_zero (h.clock.trans hclock) hmax])
      have hgrant : g = ⟨token, grantedAt, .zero⟩ := by
        simpa [grant?, hbody, Option.mem_def.mp hlifetime] using hg.symm
      rw [hgrant] at hremains
      have hspent : (now : ℚ) < grantedAt + 1000 * 0 - 50000 := hremains
      linarith

theorem sound_initial : initial.Sound setting where
  clock := le_rfl
  pending p hp := absurd hp List.not_mem_nil
  cached c hc := absurd hc (by simp [initial])

end TokenClient

/-- In every run, the tokens returned from the cache have most of their lifetime
left exactly if none is granted with a lifetime of zero. -/
theorem token_fresh_iff (setting : Setting) (es : List TokenEvent) :
    Machine.AllowedList (TokenClient.step setting)
        (fun s e => s.Admitted e ∧ (s.step setting e).Fresh setting) .initial es ↔
      Machine.AllowedList (TokenClient.step setting)
        (fun s e => s.Admitted e ∧ s.GrantsNonzero e) .initial es := by
  have hagree : ∀ (s : TokenClient) (e : TokenEvent), s.Sound setting →
      (s.Admitted e ∧ (s.step setting e).Fresh setting ↔ s.Admitted e ∧ s.GrantsNonzero e) := by
    intro s e h
    refine and_congr_right fun hadmitted => ⟨h.nonzero_of_fresh hadmitted, fun hnonzero => ?_⟩
    exact (h.step hadmitted hnonzero).fresh
  apply Machine.AllowedList.congr (TokenClient.Sound setting)
  · exact TokenClient.sound_initial
  · intro s e h hallowed
    obtain ⟨hadmitted, hnonzero⟩ := (hagree s e h).mp hallowed
    exact h.step hadmitted hnonzero
  · exact hagree

def sampleSetting : Setting where
  appId := "102"
  clientSecret := "secret"
  tokenUrl := "https://bots.example/token"
  apiBase := "https://api.example"

/-- A token that has expired already. -/
def expiredResponse : HttpResponse where
  status := 200
  text := .ok ""
  json := .ok (.obj [(units "access_token", .str (units "tok123")),
    (units "expires_in", .num .zero)])

/-- The token is asked for and granted a second later. -/
def expiredEvents : List TokenEvent :=
  [.call 1700000000000, .answer 0 1700000001000 1700000001000 (some expiredResponse)]

/-- An hour after it has expired the token is returned from the cache. -/
theorem expired_returned :
    Machine.AllowedList (TokenClient.step sampleSetting) TokenClient.Admitted .initial
        expiredEvents ∧
      (TokenClient.returned sampleSetting
        (expiredEvents.foldl (TokenClient.step sampleSetting) .initial) 1700003601000).isSome ∧
      ¬ (expiredEvents.foldl (TokenClient.step sampleSetting) .initial).Fresh sampleSetting := by
  have hreturned : (TokenClient.returned sampleSetting
      (expiredEvents.foldl (TokenClient.step sampleSetting) .initial) 1700003601000).isSome := by
    decide +kernel
  refine ⟨⟨⟨by decide, by decide⟩, ⟨by decide +kernel, by decide, ?_⟩, trivial⟩, hreturned,
    fun h => ?_⟩
  · intro p hp granted hgranted
    have hsent : ((TokenClient.step sampleSetting .initial
        (.call 1700000000000)).pending[0]?).map (·.sentAt) = some 1700000000000 := by
      decide +kernel
    have hbody : ((some expiredResponse).bind tokenBody?).map (fun granted => lifetime? granted.2) =
        some (some .zero) := by decide +kernel
    rw [Option.mem_def.mp hp, Option.map_some, Option.some.injEq] at hsent
    rw [Option.mem_def.mp hgranted, Option.map_some, Option.some.injEq] at hbody
    rw [hsent, hbody]
    exact ⟨by decide, by norm_num, by norm_num, .zero, rfl, le_rfl⟩
  · obtain ⟨token, htoken⟩ := Option.isSome_iff_exists.mp hreturned
    obtain ⟨g, hg, -, hremains⟩ := h 1700003601000 (by decide +kernel) (by decide +kernel) token
      htoken
    have horigin : (expiredEvents.foldl (TokenClient.step sampleSetting) .initial).origin.map
        (fun g => (g.grantedAt, g.lifetime)) = some (1700000001000, .zero) := by decide +kernel
    rw [Option.mem_def.mp hg, Option.map_some, Option.some.injEq, Prod.mk.injEq] at horigin
    unfold Grant.Remains at hremains
    rw [horigin.1, horigin.2] at hremains
    have hspent : ((1700003601000 : ℤ) : ℚ) < 1700000001000 + 1000 * 0 - 50000 := hremains
    norm_num at hspent

end SocialMonitor.Channels.QqClientService

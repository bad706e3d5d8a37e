import SocialMonitor.Auth.Session

/-!
# The answers of the guard

A token may decode to any value.  `verify` reads the properties of each of them
but one: `null` has none, and the error of the language leaves the guard.
-/

namespace SocialMonitor.Auth

open Js

/-- The first of two parts decodes to `null`. -/
def ReadsNull (token : String) : Prop :=
  ∃ payloadPart signaturePart, token.toList.splitOn '.' = [payloadPart, signaturePart] ∧
    jsonParse (decodeUtf8 (decodeBase64url payloadPart)) = some .null

/-- The request is given a user, or it is refused as unauthorised. -/
def Answered (r : Except ApiError (Option User)) : Prop :=
  (∃ user, r = .ok (some user)) ∨ ∃ message code, r = .error (.http .unauthorized message code)

section Answers

variable (hmac : Hmac) (s : AuthService) (now : Now)

theorem verify_error {token : String} {e : ApiError} :
    s.verify hmac now token = .error e ↔ e = AuthService.nullPayload ∧ ReadsNull token := by
  unfold AuthService.verify ReadsNull
  split
  · rename_i payloadPart signaturePart hsplit
    have hparts : ∀ v, (∃ p q, token.toList.splitOn '.' = [p, q] ∧
        jsonParse (decodeUtf8 (decodeBase64url p)) = some v) ↔
          jsonParse (decodeUtf8 (decodeBase64url payloadPart)) = some v := by
      intro v
      constructor
      · rintro ⟨p, q, hpq, hv⟩
        obtain ⟨rfl, rfl⟩ : payloadPart = p ∧ signaturePart = q := by
          simpa [hsplit] using hpq
        exact hv
      · exact fun hv => ⟨payloadPart, signaturePart, hsplit, hv⟩
    rw [hparts]
    split
    · rename_i hparse
      simp [hparse]
    · rename_i hparse
      simp [hparse, eq_comm]
    · rename_i value hne hparse
      have hvalue : value ≠ .null := fun hnull => hne hnull
      split
      · simp [hparse, hvalue]
      · split_ifs <;> simp [hparse, hvalue]
  · rename_i hsplit
    simp only [reduceCtorEq, false_iff, not_and]
    rintro - ⟨p, q, hpq, -⟩
    exact hsplit p q hpq

theorem verify_ok_iff (token : String) :
    (∃ payload, s.verify hmac now token = .ok payload) ↔ ¬ ReadsNull token := by
  cases hverify : s.verify hmac now token with
  | error e =>
      obtain ⟨-, hnull⟩ := (verify_error hmac s now).mp hverify
      simp [hnull]
  | ok payload =>
      simp only [Except.ok.injEq, exists_eq', true_iff]
      intro hnull
      have herror := (verify_error hmac s now).mpr ⟨rfl, hnull⟩
      rw [hverify] at herror
      cases herror

theorem canActivate_answered_iff (request : GuardRequest) :
    Answered (canActivate hmac s now false request) ↔
      ∀ token ∈ extractToken request, ¬ ReadsNull token := by
  unfold canActivate Answered
  rw [if_neg Bool.false_ne_true]
  cases htoken : extractToken request with
  | none => simp [bind, Except.bind, pure, Except.pure, throw, throwThe, MonadExceptOf.throw]
  | some token =>
      simp only [Option.mem_some_iff, forall_eq']
      rw [← verify_ok_iff hmac s now]
      cases hverify : s.verify hmac now token with
      | error e =>
          obtain ⟨rfl, -⟩ := (verify_error hmac s now).mp hverify
          simp [bind, Except.bind, AuthService.nullPayload]
      | ok payload =>
          cases payload <;>
            simp [bind, Except.bind, pure, Except.pure, throw, throwThe, MonadExceptOf.throw]

/-- `verify` throws at no other token, and the guard fails as unauthorised
unless it is given such a token. -/
theorem guard_answers_iff :
    (∀ token, (∃ payload, s.verify hmac now token = .ok payload) ↔ ¬ ReadsNull token) ∧
      ∀ request, Answered (canActivate hmac s now false request) ↔
        ∀ token ∈ extractToken request, ¬ ReadsNull token :=
  ⟨verify_ok_iff hmac s now, canActivate_answered_iff hmac s now⟩

end Answers

/-! ## The defect -/

/-- The base64 text of `null`, and no signature. -/
def nullToken : String := "bnVsbA.x"

theorem readsNull_nullToken : ReadsNull nullToken :=
  ⟨"bnVsbA".toList, ['x'], by decide, rfl⟩

theorem nullToken_throws :
    sampleService.verify sampleHmac sampleRequest nullToken = .error AuthService.nullPayload ∧
      ¬ Answered (canActivate sampleHmac sampleService sampleRequest false
        ⟨some (bearer ++ nullToken), .undefined⟩) ∧
      ¬ Answered (canActivate sampleHmac sampleService sampleRequest false
        ⟨none, .string nullToken⟩) := by
  have hrefused : ∀ request, extractToken request = some nullToken →
      ¬ Answered (canActivate sampleHmac sampleService sampleRequest false request) := by
    intro request htoken hanswered
    exact (canActivate_answered_iff _ _ _ request).mp hanswered nullToken htoken
      readsNull_nullToken
  exact ⟨(verify_error _ _ _).mpr ⟨rfl, readsNull_nullToken⟩, hrefused _ (by decide +kernel),
    hrefused _ (by decide +kernel)⟩

end SocialMonitor.Auth

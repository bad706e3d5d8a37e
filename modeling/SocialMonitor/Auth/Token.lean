import SocialMonitor.Auth.Service
import SocialMonitor.Js.JsonRoundTrip

/-!
# What tokens verify

A token that was signed is read back part by part.  A token that verifies
carries the signature of its first part.
-/

namespace SocialMonitor.Auth

open Js

theorem safeEqual_iff {a b : List Char} : safeEqual a b = true ↔ a = b := by
  unfold safeEqual
  dsimp only
  constructor
  · intro h
    split_ifs at h
    exact utf8_injective (by simpa using h)
  · rintro rfl
    simp

/-! ## Times -/

theorem Now.seconds_abs_le (now : Now) : |((now.val / 1000 : ℕ) : ℤ)| ≤ 2 ^ 53 := by
  have hle := now.abs_le
  rw [abs_of_nonneg (by positivity)] at hle ⊢
  omega

def Now.seconds (now : Now) : Double := .ofInt (now.val / 1000 : ℕ) now.seconds_abs_le

theorem Now.seconds_val (now : Now) : now.seconds.val = (now.val / 1000 : ℕ) :=
  Int.cast_natCast _

theorem floorSeconds_eq (now : Now) : floorSeconds now = .finite now.seconds := by
  obtain ⟨x, hx⟩ : ∃ x, Js.round ((now.val : ℚ) / 1000) = .finite x := by
    have hle : |(now.val : ℚ) / 1000| ≤ 2 ^ 53 := by
      have habs := now.abs_le
      have hcast : |(now.val : ℚ)| ≤ 2 ^ 53 := by exact_mod_cast habs
      rw [abs_div, abs_of_pos (by norm_num : (0 : ℚ) < 1000), div_le_iff₀ (by norm_num)]
      linarith
    simpa using round_add_finite hle (isDouble_intCast (n := 0) (by norm_num))
  have hdiv : Number.div (.finite (.ofInt now.val now.abs_le)) thousand = .finite x := by
    simpa only [Number.div, Double.ofInt, thousand, Int.cast_natCast, Int.cast_ofNat] using hx
  rw [floorSeconds, hdiv, Number.floor, round_eq_finite hx, floor_roundVal_thousandth now.le]
  exact round_intCast now.seconds_abs_le

namespace AuthService

variable (hmac : Hmac) (s : AuthService)

theorem payloadOf_exp_finite (now : Now) (subject : String) :
    ∃ e, (s.payloadOf now subject).exp = .finite e := by
  change ∃ e, (floorSeconds now).add (.finite s.ttlSeconds) = .finite e
  rw [floorSeconds_eq]
  have hle := now.seconds_abs_le
  refine round_add_finite ?_ s.ttlSeconds.isDouble
  rw [now.seconds_val]
  exact_mod_cast hle

theorem payloadOf_finite (now : Now) (subject : String) :
    (s.payloadOf now subject).toJson.Finite := by
  obtain ⟨e, he⟩ := s.payloadOf_exp_finite now subject
  exact ⟨trivial, ⟨_, floorSeconds_eq now⟩, ⟨e, he⟩, trivial⟩

theorem typedPayload_toJson (payload : AuthTokenPayload) :
    typedPayload payload.toJson = some payload := by
  have hsub : payload.toJson.get? "sub" = some (.str payload.sub) := rfl
  have hiat : payload.toJson.get? "iat" = some (.num payload.iat) := rfl
  have hexp : payload.toJson.get? "exp" = some (.num payload.exp) := rfl
  rw [typedPayload, hsub, hiat, hexp]

theorem not_mem_base64url {bytes : List UInt8} {c : Char}
    (hc : ∀ n < 64, sextetChar n ≠ c) : c ∉ base64url bytes := fun hmem => by
  obtain ⟨n, hn, heq⟩ := mem_base64url hmem
  exact hc n hn heq.symm

theorem splitOn_pair {a b : List Char} (ha : '.' ∉ a) (hb : '.' ∉ b) :
    (a ++ '.' :: b).splitOn '.' = [a, b] := by
  have hsplit := List.splitOn_intercalate '.' (show ∀ l ∈ [a, b], '.' ∉ l by simp [ha, hb])
      (by simp)
  simpa using hsplit

theorem verify_sign (now t₀ : Now) (subject : String) :
    s.verify hmac now (s.sign hmac t₀ subject) =
      if (s.payloadOf t₀ subject).exp.le (floorSeconds now) then .ok none
      else .ok (some (s.payloadOf t₀ subject)) := by
  have hdot : ∀ n < 64, sextetChar n ≠ '.' := by decide
  have hsplit : (s.sign hmac t₀ subject).toList.splitOn '.' =
      [base64url (utf8 (stringify (s.payloadOf t₀ subject).toJson)),
        s.signature hmac (base64url (utf8 (stringify (s.payloadOf t₀ subject).toJson)))] := by
    rw [sign, String.toList_ofList]
    exact splitOn_pair (not_mem_base64url hdot) (not_mem_base64url hdot)
  have hparse : jsonParse (decodeUtf8 (decodeBase64url
      (base64url (utf8 (stringify (s.payloadOf t₀ subject).toJson))))) =
      some (s.payloadOf t₀ subject).toJson := by
    rw [decodeBase64url_base64url, decodeUtf8_utf8]
    exact jsonParse_stringify (s.payloadOf_finite t₀ subject)
  obtain ⟨members, hobj⟩ : ∃ members, (s.payloadOf t₀ subject).toJson = .obj members := ⟨_, rfl⟩
  have htyped := typedPayload_toJson (s.payloadOf t₀ subject)
  rw [hobj] at hparse htyped
  rw [verify, hsplit]
  simp only [hobj, hparse, htyped, safeEqual_iff.mpr rfl, Bool.not_true,
    Bool.false_eq_true, if_false]

theorem signed_of_verify {now : Now} {token : String} {payload : AuthTokenPayload}
    (h : s.verify hmac now token = .ok (some payload)) :
    ∃ part, token.toList.splitOn '.' = [part, s.signature hmac part] := by
  unfold verify at h
  split at h
  · rename_i part tag hsplit
    split at h
    · simp at h
    · simp at h
    · split at h
      · simp at h
      · split_ifs at h with hsigned hexpired
        · simp at h
        · simp at h
        have htag : safeEqual tag (s.signature hmac part) = true := by simpa using hsigned
        exact ⟨part, by rw [hsplit, safeEqual_iff.mp htag]⟩
  · simp at h

end AuthService

end SocialMonitor.Auth

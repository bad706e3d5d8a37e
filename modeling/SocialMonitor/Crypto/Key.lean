import SocialMonitor.Crypto.Tampering

/-!
# The key

The constructor counts the characters of the key and reads bytes from them.
The cipher takes 32 bytes, and so many are read only from digits.
-/

namespace SocialMonitor.Crypto.EncryptionService

/-- Whatever is encrypted is read back. -/
def RoundTrips (service : EncryptionService) : Prop :=
  ∀ iv plaintext, ∃ payload, service.encrypt iv plaintext = .ok payload ∧
    service.decrypt payload = .ok plaintext

theorem encrypt_invalid_key {service : EncryptionService} (hkey : service.key.length ≠ 32)
    (iv : Iv) (plaintext : String) :
    service.encrypt iv plaintext = .error (.other "Invalid key length") := by
  simp [encrypt, cipheriv, hkey, bind, Except.bind]

theorem roundTrips_iff_key {service : EncryptionService} (hgcm : service.gcm.Lawful) :
    service.RoundTrips ↔ service.key.length = 32 := by
  constructor
  · intro hround
    obtain ⟨payload, hencrypt, -⟩ := hround ⟨List.replicate 12 0, rfl⟩ ""
    exact service.key_length_of_encrypt hencrypt
  · intro hkey iv plaintext
    obtain ⟨payload, hencrypt⟩ := service.encrypt_eq iv plaintext hkey
    exact ⟨payload, hencrypt, service.decrypt_encrypt hgcm hencrypt⟩

theorem ofKeyHex_ok {gcm : Gcm} {keyHex : Js.CodeUnits} {service : EncryptionService}
    (h : ofKeyHex gcm keyHex = .ok service) :
    keyHex.length = 64 ∧ service = ⟨gcm, Js.decodeHex keyHex⟩ := by
  unfold ofKeyHex at h
  split at h
  · cases h
  · rename_i hlength
    rw [not_or, not_not] at hlength
    exact ⟨hlength.2, (Except.ok.inj h).symm⟩

/-- A service that was constructed round-trips exactly where its key consists of
hexadecimal digits. -/
theorem roundTrips_iff {gcm : Gcm} (hgcm : gcm.Lawful) {keyHex : Js.CodeUnits}
    {service : EncryptionService} (h : ofKeyHex gcm keyHex = .ok service) :
    service.RoundTrips ↔ ∀ u ∈ keyHex, Js.isHexDigit u = true := by
  obtain ⟨hlength, rfl⟩ := ofKeyHex_ok h
  rw [roundTrips_iff_key hgcm]
  apply Js.length_decodeHex_iff
  exact hlength

/-- The key `"a".repeat(64)`. -/
theorem roundTrips_iff_digits :
    (∃ service, ofKeyHex echoGcm (List.replicate 64 97) = .ok service) ∧
      (EncryptionService.RoundTrips ⟨echoGcm, Js.decodeHex (List.replicate 64 97)⟩ ↔
        ∀ u ∈ List.replicate 64 (97 : UInt16), Js.isHexDigit u = true) :=
  ⟨⟨_, rfl⟩, roundTrips_iff echoGcm_lawful rfl⟩

/-! ## The defect -/

/-- `"g".repeat(64)` is accepted, and nothing can be encrypted with it. -/
theorem letters_not_roundTrip :
    ∃ service, ofKeyHex echoGcm (List.replicate 64 103) = .ok service ∧
      (∀ iv plaintext, service.encrypt iv plaintext = .error (.other "Invalid key length")) ∧
        ¬ service.RoundTrips := by
  refine ⟨_, rfl, ?_, ?_⟩
  · apply encrypt_invalid_key
    decide
  · rw [roundTrips_iff_key echoGcm_lawful]
    decide

end SocialMonitor.Crypto.EncryptionService

import SocialMonitor.Js.Base64
import SocialMonitor.Js.Hex
import SocialMonitor.Js.Utf8
import SocialMonitor.Schema

/-!
# Secrets at rest

`EncryptionService` over AES-256-GCM.  The cipher itself is a parameter: its
key stream and its authentication tag.
-/

namespace SocialMonitor.Crypto

abbrev Bytes := List UInt8

/-- AES-256-GCM without additional data.  The tag is that of the ciphertext. -/
structure Gcm where
  encipher (key iv plaintext : Bytes) : Bytes
  decipher (key iv ciphertext : Bytes) : Bytes
  tag (key iv ciphertext : Bytes) : Bytes

/-- Deciphering inverts enciphering, and tags have sixteen bytes. -/
structure Gcm.Lawful (gcm : Gcm) : Prop where
  decipher_encipher : ∀ key iv plaintext : Bytes, key.length = 32 →
    gcm.decipher key iv (gcm.encipher key iv plaintext) = plaintext
  tag_length : ∀ key iv ciphertext : Bytes, key.length = 32 →
    (gcm.tag key iv ciphertext).length = 16

/-- What `randomBytes(12)` draws. -/
abbrev Iv := { iv : Bytes // iv.length = 12 }

structure EncryptionService where
  gcm : Gcm
  key : Bytes

namespace EncryptionService

/-- The constructor, which counts the characters of the key. -/
def ofKeyHex (gcm : Gcm) (keyHex : Js.CodeUnits) : Except ApiError EncryptionService :=
  if keyHex = [] ∨ keyHex.length ≠ 64 then
    .error (.other "ENCRYPTION_KEY must be a 64-character hex string (32 bytes)")
  else .ok ⟨gcm, Js.decodeHex keyHex⟩

variable (service : EncryptionService)

/-- `createCipheriv` and `createDecipheriv`. -/
def cipheriv (iv : Bytes) : Except ApiError Unit :=
  if service.key.length ≠ 32 then .error (.other "Invalid key length")
  else if iv = [] then .error (.other "Invalid initialization vector")
  else .ok ()

def encrypt (iv : Iv) (plaintext : String) : Except ApiError String := do
  service.cipheriv iv.val
  let encrypted := service.gcm.encipher service.key iv.val (Js.utf8 plaintext.toList)
  let tag := service.gcm.tag service.key iv.val encrypted
  return String.ofList (['.'].intercalate [Js.base64 iv.val, Js.base64 encrypted, Js.base64 tag])

/-- The lengths that `setAuthTag` takes. -/
def validTagLength (n : ℕ) : Bool := n = 4 || n = 8 || 12 ≤ n && n ≤ 16

/-- `setAuthTag`, `update` and `final`, which compares the bytes given. -/
def decipherWithTag (iv encrypted tag : Bytes) : Except ApiError Bytes := do
  service.cipheriv iv
  if !validTagLength tag.length then
    throw (.other s!"Invalid authentication tag length: {tag.length}")
  if (service.gcm.tag service.key iv encrypted).take tag.length ≠ tag then
    throw (.other "Unsupported state or unable to authenticate data")
  return service.gcm.decipher service.key iv encrypted

def decrypt (payload : String) : Except ApiError String :=
  match payload.toList.splitOn '.' with
  | [ivB64, encryptedB64, tagB64] => do
      let plaintext ← service.decipherWithTag (Js.decodeBase64 ivB64) (Js.decodeBase64 encryptedB64)
        (Js.decodeBase64 tagB64)
      return String.ofList (Js.decodeUtf8 plaintext)
  | _ => .error (.other "Invalid encrypted payload")

/-- An output of `encrypt`. -/
def Encrypted (s : String) : Prop := ∃ iv plaintext, service.encrypt iv plaintext = .ok s

theorem dot_not_mem_base64 (bytes : Bytes) : '.' ∉ Js.base64 bytes := by
  intro hmem
  rcases Js.mem_base64 hmem with ⟨n, hn, hdot⟩ | hdot
  · have hdigit : Js.sextet? '.' = some n := hdot ▸ Js.sextet?_standardChar n hn
    have hnone : Js.sextet? '.' = none := by decide
    exact absurd (hnone.symm.trans hdigit) (by simp)
  · exact absurd hdot (by decide)

theorem splitOn_payload (iv encrypted tag : Bytes) :
    (['.'].intercalate [Js.base64 iv, Js.base64 encrypted, Js.base64 tag]).splitOn '.' =
      [Js.base64 iv, Js.base64 encrypted, Js.base64 tag] := by
  refine List.splitOn_intercalate '.' (fun part hpart => ?_) (by simp)
  simp only [List.mem_cons, List.not_mem_nil, or_false] at hpart
  rcases hpart with rfl | rfl | rfl <;> exact dot_not_mem_base64 _

theorem cipheriv_iv (iv : Iv) (hkey : service.key.length = 32) :
    service.cipheriv iv.val = .ok () := by
  have hiv : iv.val ≠ [] := fun hnil => by simpa [hnil] using iv.property
  simp [cipheriv, hkey, hiv]

theorem key_length_of_encrypt {iv : Iv} {plaintext payload : String}
    (h : service.encrypt iv plaintext = .ok payload) : service.key.length = 32 := by
  by_contra hkey
  simp [encrypt, cipheriv, hkey, bind, Except.bind] at h

theorem encrypt_eq (iv : Iv) (plaintext : String) (hkey : service.key.length = 32) :
    ∃ payload, service.encrypt iv plaintext = .ok payload := by
  simp [encrypt, service.cipheriv_iv iv hkey, bind, Except.bind, pure, Except.pure]

theorem dot_mem_of_encrypted {s : String} (h : service.Encrypted s) : '.' ∈ s.toList := by
  obtain ⟨iv, plaintext, hencrypt⟩ := h
  have hkey := service.key_length_of_encrypt hencrypt
  simp only [encrypt, service.cipheriv_iv iv hkey, bind, Except.bind, pure, Except.pure,
    Except.ok.injEq] at hencrypt
  subst hencrypt
  simp [List.intercalate, List.intersperse]

/-- What was encrypted is read back. -/
theorem decrypt_encrypt (hgcm : service.gcm.Lawful) {iv : Iv} {plaintext payload : String}
    (h : service.encrypt iv plaintext = .ok payload) : service.decrypt payload = .ok plaintext := by
  have hkey := service.key_length_of_encrypt h
  have htag := hgcm.tag_length service.key iv.val
    (service.gcm.encipher service.key iv.val (Js.utf8 plaintext.toList)) hkey
  simp only [encrypt, service.cipheriv_iv iv hkey, bind, Except.bind, pure, Except.pure,
    Except.ok.injEq] at h
  subst h
  rw [decrypt, String.toList_ofList, splitOn_payload]
  simp [decipherWithTag, service.cipheriv_iv iv hkey, htag, validTagLength, bind, Except.bind, pure,
    Except.pure, hgcm.decipher_encipher _ _ _ hkey]

end EncryptionService

end SocialMonitor.Crypto

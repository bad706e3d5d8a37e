import SocialMonitor.Crypto.EncryptionService

/-!
# Tampered payloads

A decipher that is not told the length of the tag takes a part of it.  Where
the cipher is ideal, what `decrypt` accepts is an earlier output, or such an
output with its tag cut short.
-/

namespace SocialMonitor.Crypto.EncryptionService

/-- The bytes that the three parts of a payload are read as. -/
@[ext] structure Parts where
  iv : Bytes
  encrypted : Bytes
  tag : Bytes
deriving DecidableEq

/-- With less of the tag. -/
def Parts.cut (p : Parts) (n : ℕ) : Parts := { p with tag := p.tag.take n }

def parts? (payload : String) : Option Parts :=
  match payload.toList.splitOn '.' with
  | [ivB64, encryptedB64, tagB64] =>
      some ⟨Js.decodeBase64 ivB64, Js.decodeBase64 encryptedB64, Js.decodeBase64 tagB64⟩
  | _ => none

theorem parts?_of_splitOn {payload : String} {ivB64 encryptedB64 tagB64 : List Char}
    (h : payload.toList.splitOn '.' = [ivB64, encryptedB64, tagB64]) : parts? payload =
      some ⟨Js.decodeBase64 ivB64, Js.decodeBase64 encryptedB64, Js.decodeBase64 tagB64⟩ := by
  rw [parts?, h]

def Parts.payload (p : Parts) : String :=
  String.ofList (['.'].intercalate [Js.base64 p.iv, Js.base64 p.encrypted, Js.base64 p.tag])

@[simp] theorem parts?_payload (p : Parts) : parts? p.payload = some p := by
  rw [parts?, Parts.payload, String.toList_ofList, splitOn_payload]
  simp

variable (service : EncryptionService)

/-- What `encrypt` joins. -/
def sealed (call : Iv × String) : Parts :=
  let encrypted := service.gcm.encipher service.key call.1.val (Js.utf8 call.2.toList)
  ⟨call.1.val, encrypted, service.gcm.tag service.key call.1.val encrypted⟩

theorem encrypt_sealed (hkey : service.key.length = 32) (call : Iv × String) :
    service.encrypt call.1 call.2 = .ok (service.sealed call).payload := by
  simp only [encrypt, service.cipheriv_iv call.1 hkey, bind, Except.bind, pure, Except.pure]
  rfl

/-- The tag given is a part of the true one, of a length that is taken. -/
def Authentic (p : Parts) : Prop :=
  service.cipheriv p.iv = .ok () ∧ validTagLength p.tag.length = true ∧
    (service.gcm.tag service.key p.iv p.encrypted).take p.tag.length = p.tag

theorem decipherWithTag_ok_iff (p : Parts) :
    (∃ plaintext, service.decipherWithTag p.iv p.encrypted p.tag = .ok plaintext) ↔
      service.Authentic p := by
  unfold decipherWithTag Authentic
  cases hiv : service.cipheriv p.iv with
  | error e => simp [bind, Except.bind]
  | ok u =>
      by_cases hlength : validTagLength p.tag.length = true
      · by_cases htag : (service.gcm.tag service.key p.iv p.encrypted).take p.tag.length = p.tag
        · simp [bind, Except.bind, pure, Except.pure, hlength, htag]
        · simp [bind, Except.bind, hlength, htag, throw, throwThe, MonadExceptOf.throw]
      · simp [bind, Except.bind, hlength, throw, throwThe, MonadExceptOf.throw]

theorem decrypt_ok_iff (payload : String) :
    (∃ plaintext, service.decrypt payload = .ok plaintext) ↔
      ∃ p, parts? payload = some p ∧ service.Authentic p := by
  unfold decrypt
  split
  · rename_i ivB64 encryptedB64 tagB64 hsplit
    simp only [parts?_of_splitOn hsplit, Option.some.injEq, exists_eq_left',
      ← decipherWithTag_ok_iff]
    cases service.decipherWithTag (Js.decodeBase64 ivB64) (Js.decodeBase64 encryptedB64)
      (Js.decodeBase64 tagB64) <;> simp [bind, Except.bind, pure, Except.pure]
  · rename_i hsplit
    have hnone : parts? payload = none := by
      unfold parts?
      split
      · rename_i hparts
        exact absurd hparts (hsplit _ _ _)
      · rfl
    simp [hnone]

/-! ## What is accepted -/

section Accepted

variable (log : List (Iv × String)) (payload : String)

/-- An earlier output. -/
def Output (output : String) : Prop :=
  ∃ call ∈ log, service.encrypt call.1 call.2 = .ok output

/-- The parts of the payload are read as those of an earlier output. -/
def Intact : Prop :=
  ∃ output p, service.Output log output ∧ parts? output = some p ∧ parts? payload = some p ∧
    p.iv.length = 12 ∧ p.tag.length = 16

/-- An earlier output with less of its tag. -/
def Shortened : Prop :=
  ∃ output p n, service.Output log output ∧ parts? output = some p ∧ n < p.tag.length ∧
    validTagLength n = true ∧ parts? payload = some (p.cut n)

/-- The cipher is ideal: a tag, or a part of it, is found for nothing but what
was enciphered. -/
def Unforged : Prop :=
  ∀ p, parts? payload = some p → service.Authentic p →
    ∃ call ∈ log, p.iv = (service.sealed call).iv ∧ p.encrypted = (service.sealed call).encrypted

variable {service log payload}

theorem Output.sealed {output : String} (h : service.Output log output) :
    service.key.length = 32 ∧ ∃ call ∈ log, output = (service.sealed call).payload := by
  obtain ⟨call, hmem, hencrypt⟩ := h
  have hkey := service.key_length_of_encrypt hencrypt
  rw [service.encrypt_sealed hkey call] at hencrypt
  exact ⟨hkey, call, hmem, (Except.ok.inj hencrypt).symm⟩

theorem sealed_output (hkey : service.key.length = 32) {call : Iv × String} (hmem : call ∈ log) :
    service.Output log (service.sealed call).payload :=
  ⟨call, hmem, service.encrypt_sealed hkey call⟩

theorem key_length_of_cipheriv {iv : Bytes} (h : service.cipheriv iv = .ok ()) :
    service.key.length = 32 := by
  by_contra hkey
  simp [cipheriv, hkey] at h

theorem tag_length_sealed (hgcm : service.gcm.Lawful) (hkey : service.key.length = 32)
    (call : Iv × String) : (service.sealed call).tag.length = 16 :=
  hgcm.tag_length _ _ _ hkey

/-- Whatever part of the tag of an output is given, it is taken. -/
theorem authentic_take (hkey : service.key.length = 32) (call : Iv × String) {n : ℕ}
    (hn : n ≤ (service.sealed call).tag.length) (hlength : validTagLength n = true) :
    service.Authentic ((service.sealed call).cut n) := by
  refine ⟨service.cipheriv_iv call.1 hkey, ?_, ?_⟩
  · simpa [Parts.cut, min_eq_left hn] using hlength
  · simp only [Parts.cut, List.length_take, min_eq_left hn]
    rfl

theorem Shortened.decrypt (h : service.Shortened log payload) :
    ∃ plaintext, service.decrypt payload = .ok plaintext := by
  obtain ⟨output, p, n, houtput, hp, hn, hlength, hpayload⟩ := h
  obtain ⟨hkey, call, -, rfl⟩ := houtput.sealed
  rw [parts?_payload, Option.some.injEq] at hp
  subst hp
  exact (service.decrypt_ok_iff payload).mpr
    ⟨_, hpayload, authentic_take hkey call hn.le hlength⟩

theorem Shortened.not_intact (hgcm : service.gcm.Lawful) (h : service.Shortened log payload) :
    ¬ service.Intact log payload := by
  rintro ⟨-, q, -, -, hq, -, htag⟩
  obtain ⟨output, p, n, houtput, hp, hn, -, hpayload⟩ := h
  obtain ⟨hkey, call, -, rfl⟩ := houtput.sealed
  rw [parts?_payload, Option.some.injEq] at hp
  subst hp
  have hsixteen := tag_length_sealed hgcm hkey call
  obtain rfl : _ = q := Option.some.inj (hpayload.symm.trans hq)
  rw [Parts.cut, List.length_take] at htag
  omega

/-- What is accepted carries a part of the tag of an earlier output. -/
theorem accepted_cases (hgcm : service.gcm.Lawful) (hideal : service.Unforged log payload)
    (h : ∃ plaintext, service.decrypt payload = .ok plaintext) :
    service.Intact log payload ∨ service.Shortened log payload := by
  obtain ⟨p, hp, hauthentic⟩ := (service.decrypt_ok_iff payload).mp h
  obtain ⟨call, hmem, hiv, hencrypted⟩ := hideal p hp hauthentic
  obtain ⟨hcipheriv, hlength, htag⟩ := hauthentic
  have hkey := key_length_of_cipheriv hcipheriv
  have hsixteen := tag_length_sealed hgcm hkey call
  have hparts : (service.sealed call).cut p.tag.length = p := by
    rw [hiv, hencrypted] at htag
    exact Parts.ext hiv.symm hencrypted.symm htag
  have houtput := sealed_output hkey hmem
  by_cases hfull : p.tag.length < 16
  · right
    refine ⟨_, service.sealed call, p.tag.length, houtput, parts?_payload _, ?_, hlength, ?_⟩
    · rwa [hsixteen]
    · rw [hp, hparts]
  · left
    rw [Parts.cut, List.take_of_length_le (by omega)] at hparts
    subst hparts
    exact ⟨_, _, houtput, parts?_payload _, hp, call.1.property, hsixteen⟩

/-- What is accepted was read from an earlier output, but for one with its tag
cut short. -/
theorem decrypt_intact_iff (hgcm : service.gcm.Lawful) (hideal : service.Unforged log payload) :
    ((∃ plaintext, service.decrypt payload = .ok plaintext) → service.Intact log payload) ↔
      ¬ service.Shortened log payload := by
  constructor
  · intro hintact hshortened
    exact hshortened.not_intact hgcm (hintact hshortened.decrypt)
  · intro hshortened haccepted
    exact (accepted_cases hgcm hideal haccepted).resolve_right hshortened

end Accepted

/-! ## The defect -/

/-- The tag begins with the ciphertext. -/
def echoGcm : Gcm where
  encipher key _ plaintext := plaintext.map (· + key.headD 0)
  decipher key _ ciphertext := ciphertext.map (· - key.headD 0)
  tag key iv ciphertext := (ciphertext ++ iv ++ key).take 16

theorem echoGcm_lawful : echoGcm.Lawful where
  decipher_encipher key iv plaintext _ := by simp [echoGcm, Function.comp_def]
  tag_length key iv ciphertext hkey := by
    simp only [echoGcm, List.length_take, List.length_append, hkey]
    omega

def echoService : EncryptionService := ⟨echoGcm, List.replicate 32 5⟩

def secretCall : Iv × String := (⟨List.replicate 12 7, rfl⟩, "secret")

def shortTag : Parts := (echoService.sealed secretCall).cut 4

theorem unforged_secretCall {p : Parts} (hiv : p.iv = (echoService.sealed secretCall).iv)
    (hencrypted : p.encrypted = (echoService.sealed secretCall).encrypted) :
    echoService.Unforged [secretCall] p.payload := by
  intro q hq _
  rw [parts?_payload, Option.some.injEq] at hq
  subst hq
  exact ⟨secretCall, List.mem_singleton_self _, hiv, hencrypted⟩

theorem decrypt_intact_secretCall :
    (∃ plaintext, echoService.decrypt (echoService.sealed secretCall).payload = .ok plaintext) ∧
      (((∃ plaintext, echoService.decrypt (echoService.sealed secretCall).payload =
        .ok plaintext) →
          echoService.Intact [secretCall] (echoService.sealed secretCall).payload) ↔
        ¬ echoService.Shortened [secretCall] (echoService.sealed secretCall).payload) := by
  have hencrypt := echoService.encrypt_sealed rfl secretCall
  exact ⟨⟨_, echoService.decrypt_encrypt echoGcm_lawful hencrypt⟩,
    decrypt_intact_iff echoGcm_lawful (unforged_secretCall rfl rfl)⟩

/-- Four bytes of the tag are taken. -/
theorem shortTag_accepted :
    echoService.Unforged [secretCall] shortTag.payload ∧
      (∃ plaintext, echoService.decrypt shortTag.payload = .ok plaintext) ∧
        ¬ echoService.Intact [secretCall] shortTag.payload := by
  have hshortened : echoService.Shortened [secretCall] shortTag.payload :=
    ⟨_, _, 4, sealed_output rfl (List.mem_singleton_self _), parts?_payload _, by decide, by decide,
      parts?_payload _⟩
  exact ⟨unforged_secretCall rfl rfl, hshortened.decrypt, hshortened.not_intact echoGcm_lawful⟩

end SocialMonitor.Crypto.EncryptionService

import SocialMonitor.Sidecar.Current

/-!
# Pending login codes

The worker keeps the hash of a login code beside the client that was sent it.
The handlers write the two dictionaries one by one: a login that ends with a
password, a client that is replaced and a client that is dropped leave the code
behind.
-/

namespace SocialMonitor.Sidecar

/-- The client that a login or a connection goes on with, and its phone. -/
def Await.owns? : Await → Option (String × ℕ)
  | .connect _ phone client => some (phone, client)
  | .sendCode phone client => some (phone, client)
  | .signIn phone client => some (phone, client)
  | .signInPassword phone client => some (phone, client)
  | _ => none

/-- The outcomes that every call has. -/
def Outcome.ends : Outcome → Bool
  | .done => true
  | .failed _ => true
  | _ => false

namespace TelegramWorker

variable (w : TelegramWorker)

/-- What became of the login of a client: its code, and whether it is signed in. -/
def standing (c : ℕ) : Option (Option String × Bool) :=
  w.created[c]?.map fun client => (client.phoneCodeHash, client.signedIn)

/-- The client that is registered for the phone was sent the code and is not
signed in. -/
def Awaits (phone hash : String) : Prop :=
  ∃ c ∈ w.clients phone, w.standing c = some (some hash, false)

/-- Every pending code belongs to the registered client. -/
def CodesPending : Prop := ∀ phone, ∀ hash ∈ w.codeHashes phone, w.Awaits phone hash

/-- A client is replaced or dropped while no code is pending for its phone; a
code arrives for the registered client, which is not signed in; and a password
signs the registered client in while no code is pending. -/
def KeepsCodes : Await → Outcome → Prop
  | .previousDisconnect _ phone _, outcome => outcome.ends = true → w.codeHashes phone = none
  | .failedDisconnect phone _, outcome => outcome.ends = true → w.codeHashes phone = none
  | .sendCode phone client, .sent hash _ =>
      (w.clients phone = some client ∧ ∃ code, w.standing client = some (code, false)) ∨
        w.Awaits phone hash
  | .sendCode phone _, .failed _ => w.codeHashes phone = none
  | .signInPassword phone client, .done =>
      w.codeHashes phone = none ∨ w.clients phone ≠ some client
  | _, _ => True

/-- The registered clients are those of their phones. -/
def Owned : Prop := ∀ phone c, w.clients phone = some c → w.phoneOf c = some phone

variable {w} {w' : TelegramWorker}

/-! ## Standing -/

theorem standing_setClient {f : TelegramClient → TelegramClient}
    (hf : ∀ client, ((f client).phoneCodeHash, (f client).signedIn) =
      (client.phoneCodeHash, client.signedIn)) (k c : ℕ) :
    (w.setClient k f).standing c = w.standing c := by
  simp only [standing, setClient, List.getElem?_modify]
  cases w.created[c]? with
  | none => rfl
  | some client =>
      split_ifs
      · exact congrArg some (hf client)
      · rfl

theorem standing_setClient_of_ne (f : TelegramClient → TelegramClient) {k c : ℕ} (h : c ≠ k) :
    (w.setClient k f).standing c = w.standing c := by
  simp [standing, setClient, h.symm]

theorem standing_setClient_self (f : TelegramClient → TelegramClient) (c : ℕ) :
    (w.setClient c f).standing c =
      (w.created[c]?.map f).map fun client => (client.phoneCodeHash, client.signedIn) := by
  simp [standing, setClient]

theorem standing_register {handler : Handler} {phone : String} {c : ℕ}
    (h : c < w.created.length) :
    (w.register handler phone).1.standing c = w.standing c := by
  simp [standing, register, List.getElem?_append_left h]

theorem standing_register_self (handler : Handler) (phone : String) :
    (w.register handler phone).1.standing w.created.length = some (none, false) := by
  simp [standing, register]

theorem standing_disconnected {client : ℕ} {outcome : Outcome}
    (h : w.disconnected client outcome = some w') (c : ℕ) : w'.standing c = w.standing c := by
  rcases disconnected_cases h with ⟨-, rfl⟩ | ⟨e, -, rfl⟩
  · exact standing_setClient (f := fun c => { c with connected := false }) (fun _ => rfl) client c
  · rfl

theorem codeHashes_disconnected {client : ℕ} {outcome : Outcome}
    (h : w.disconnected client outcome = some w') :
    w'.codeHashes = w.codeHashes ∧ outcome.ends = true := by
  rcases disconnected_cases h with ⟨rfl, rfl⟩ | ⟨e, rfl, rfl⟩ <;> exact ⟨rfl, rfl⟩

theorem Owned.lt_length (h : w.Owned) {phone : String} {c : ℕ} (hc : w.clients phone = some c) :
    c < w.created.length := by
  obtain ⟨client, hclient, -⟩ := Option.map_eq_some_iff.mp (h phone c hc)
  exact (List.getElem?_eq_some_iff.mp hclient).1

theorem Owned.phone_eq (h : w.Owned) {phone phone' : String} {c : ℕ}
    (hc : w.clients phone = some c) (hphone : w.phoneOf c = some phone') : phone = phone' :=
  Option.some_inj.mp ((h phone c hc).symm.trans hphone)

/-- The clients of the other phones are others. -/
theorem Owned.ne_client (h : w.Owned) {phone : String} {client : ℕ}
    (hphone : w.phoneOf client = some phone) {p : String} (hne : p ≠ phone) {c : ℕ}
    (hc : w.clients p = some c) : c ≠ client := by
  rintro rfl
  exact hne (h.phone_eq hc hphone)

/-! ## Codes of one phone -/

theorem awaits_congr {phone hash : String} (hclients : w'.clients phone = w.clients phone)
    (hstanding : ∀ c, w.clients phone = some c → w'.standing c = w.standing c) :
    w'.Awaits phone hash ↔ w.Awaits phone hash := by
  unfold Awaits
  rw [hclients]
  refine exists_congr fun c => and_congr_right fun hc => ?_
  rw [hstanding c hc]

/-- What changes nothing about the codes keeps them pending. -/
theorem CodesPending.of_same (h : w.CodesPending) (hcodes : w'.codeHashes = w.codeHashes)
    (hclients : w'.clients = w.clients)
    (hstanding : ∀ phone c, w.clients phone = some c → w'.standing c = w.standing c) :
    w'.CodesPending := by
  intro phone hash hhash
  rw [hcodes] at hhash
  exact (awaits_congr (congrFun hclients phone) (hstanding phone)).mpr (h phone hash hhash)

/-- What concerns one phone only leaves the codes of the others pending. -/
theorem CodesPending.iff_at (h : w.CodesPending) (phone : String)
    (hcodes : ∀ p, p ≠ phone → w'.codeHashes p = w.codeHashes p)
    (hclients : ∀ p, p ≠ phone → w'.clients p = w.clients p)
    (hstanding : ∀ p, p ≠ phone → ∀ c, w.clients p = some c → w'.standing c = w.standing c) :
    w'.CodesPending ↔ ∀ hash ∈ w'.codeHashes phone, w'.Awaits phone hash := by
  constructor
  · exact fun h' hash hhash => h' phone hash hhash
  · intro h' p hash hhash
    rcases eq_or_ne p phone with rfl | hne
    · exact h' hash hhash
    · rw [hcodes p hne] at hhash
      exact (awaits_congr (hclients p hne) (hstanding p hne)).mpr (h p hash hhash)

theorem CodesPending.none_of_clients (h : w.CodesPending) {phone : String}
    (hnone : w.clients phone = none) : w.codeHashes phone = none := by
  by_contra hsome
  obtain ⟨hash, hhash⟩ := Option.ne_none_iff_exists'.mp hsome
  obtain ⟨c, hc, -⟩ := h phone hash hhash
  simp [hnone] at hc

/-- After a finished login no code is pending. -/
theorem CodesPending.none_of_signedIn (h : w.CodesPending) {phone : String} {c : ℕ}
    {code : Option String} (hc : w.clients phone = some c)
    (hsigned : w.standing c = some (code, true)) : w.codeHashes phone = none := by
  by_contra hsome
  obtain ⟨hash, hhash⟩ := Option.ne_none_iff_exists'.mp hsome
  obtain ⟨c', hc', hstanding⟩ := h phone hash hhash
  obtain rfl : c = c' := Option.some_inj.mp (hc.symm.trans hc')
  simp [hsigned] at hstanding

theorem CodesPending.iff_none (h : w.CodesPending) (phone : String)
    (hcodes : w'.codeHashes = w.codeHashes)
    (hclients : ∀ p, p ≠ phone → w'.clients p = w.clients p)
    (hstanding : ∀ p c, w.clients p = some c → w'.standing c = w.standing c)
    (hnobody : ∀ hash, ¬ w'.Awaits phone hash) :
    w'.CodesPending ↔ w.codeHashes phone = none := by
  rw [h.iff_at phone (fun p _ => congrFun hcodes p) hclients fun p _ => hstanding p, hcodes,
    Option.eq_none_iff_forall_not_mem]
  exact forall₂_congr fun hash _ => iff_of_false (hnobody hash) id

/-- A new client has no code. -/
theorem not_awaits_register (handler : Handler) (phone hash : String) :
    ¬ (w.register handler phone).1.Awaits phone hash := by
  rintro ⟨c, hc, hstanding⟩
  obtain rfl : w.created.length = c := by simpa [register] using hc
  rw [standing_register_self] at hstanding
  simp at hstanding

/-! ## What a step does to the codes -/

theorem pending_registered (h : w.CodesPending) (howned : w.Owned) {previous : ℕ}
    {outcome : Outcome} (hw : w.disconnected previous outcome = some w') (handler : Handler)
    (phone : String) : ((w'.popClient phone).register handler phone).1.CodesPending ↔
      w.codeHashes phone = none := by
  have hlength : w'.created.length = w.created.length := (disconnected_same hw).2
  apply h.iff_none phone
  · exact (codeHashes_disconnected hw).1
  · intro p hne
    simp [register, popClient, hne, disconnected_clients hw]
  · intro p c hc
    have hlt : c < (w'.popClient phone).created.length := by
      rw [popClient, hlength]
      exact howned.lt_length hc
    rw [standing_register hlt]
    exact standing_disconnected hw c
  · exact not_awaits_register handler phone

theorem pending_dropped (h : w.CodesPending) {phone : String}
    (hcodes : w'.codeHashes = w.codeHashes) (hclients : w'.clients = w.clients)
    (hstanding : ∀ c, w'.standing c = w.standing c) :
    (w'.popClient phone).CodesPending ↔ w.codeHashes phone = none := by
  apply h.iff_none phone
  · exact hcodes
  · intro p hne
    simp [popClient, hne, hclients]
  · exact fun p c _ => hstanding c
  · rintro hash ⟨c, hc, -⟩
    simp [popClient] at hc

theorem pending_codeSent (h : w.CodesPending) (howned : w.Owned) {phone : String} {client : ℕ}
    (hphone : w.phoneOf client = some phone) (hash : String) (viaApp : Bool) :
    (w.codeSent phone client hash viaApp).1.CodesPending ↔
      w.KeepsCodes (.sendCode phone client) (.sent hash viaApp) := by
  have hother : ∀ c, c ≠ client →
      (w.codeSent phone client hash viaApp).1.standing c = w.standing c := fun c hne =>
    standing_setClient_of_ne (fun c => { c with phoneCodeHash := some hash }) hne
  have hself : (w.codeSent phone client hash viaApp).1.standing client =
      (w.standing client).map fun x => (some hash, x.2) := by
    refine Eq.trans
      (standing_setClient_self (fun c => { c with phoneCodeHash := some hash }) client) ?_
    cases hclient : w.created[client]? <;> simp [standing, hclient]
  have hcodes : (w.codeSent phone client hash viaApp).1.codeHashes phone = some hash := by
    simp [codeSent]
  rw [h.iff_at phone]
  · simp only [hcodes, Option.mem_def, Option.some.injEq, forall_eq', KeepsCodes]
    constructor
    · rintro ⟨c, hc, hstanding⟩
      rcases eq_or_ne c client with rfl | hne
      · rw [hself] at hstanding
        obtain ⟨⟨code, signed⟩, hbefore, hsame⟩ := Option.map_eq_some_iff.mp hstanding
        obtain rfl : signed = false := congrArg Prod.snd hsame
        exact Or.inl ⟨hc, code, hbefore⟩
      · rw [hother c hne] at hstanding
        exact Or.inr ⟨c, hc, hstanding⟩
    · rintro (⟨hc, code, hbefore⟩ | ⟨c, hc, hstanding⟩)
      · exact ⟨client, hc, by rw [hself, hbefore]; rfl⟩
      · refine ⟨c, hc, ?_⟩
        rcases eq_or_ne c client with rfl | hne
        · rw [hself, hstanding]
          rfl
        · rw [hother c hne, hstanding]
  · intro p hne
    simp [codeSent, setClient, hne]
  · exact fun p _ => rfl
  · exact fun p hne c hc => hother c (howned.ne_client hphone hne hc)

theorem standing_signedIn (phone : String) (client : ℕ) :
    (w.signedIn phone client).standing client = (w.standing client).map fun x => (x.1, true) := by
  refine (standing_setClient_self (fun c => { c with signedIn := true }) client).trans ?_
  cases hclient : w.created[client]? <;> simp [standing, hclient]

theorem standing_signedIn_of_ne (phone : String) {client c : ℕ} (h : c ≠ client) :
    (w.signedIn phone client).standing c = w.standing c :=
  standing_setClient_of_ne (fun c => { c with signedIn := true }) h

/-- The code of a login with a code is popped. -/
theorem pending_signIn (h : w.CodesPending) (howned : w.Owned) {phone : String} {client : ℕ}
    (hphone : w.phoneOf client = some phone) :
    ((w.signedIn phone client).popHash phone).CodesPending := by
  apply (h.iff_at phone ?_ ?_ ?_).mpr
  · intro hash hhash
    simp [popHash] at hhash
  · intro p hne
    simp [popHash, signedIn, setClient, hne]
  · exact fun p _ => rfl
  · exact fun p hne c hc => standing_signedIn_of_ne phone (howned.ne_client hphone hne hc)

/-- The code of a login with a password stays. -/
theorem pending_signInPassword (h : w.CodesPending) (howned : w.Owned) {phone : String}
    {client : ℕ} (hphone : w.phoneOf client = some phone) :
    (w.signedIn phone client).CodesPending ↔ w.KeepsCodes (.signInPassword phone client) .done := by
  rw [h.iff_at phone]
  · constructor
    · intro hawaits
      by_contra hkeeps
      obtain ⟨hsome, hc⟩ := not_or.mp hkeeps
      obtain ⟨hash, hhash⟩ := Option.ne_none_iff_exists'.mp hsome
      obtain ⟨c, hc', hstanding⟩ := hawaits hash hhash
      obtain rfl : client = c := Option.some_inj.mp ((not_not.mp hc).symm.trans hc')
      rw [standing_signedIn] at hstanding
      obtain ⟨x, -, hx⟩ := Option.map_eq_some_iff.mp hstanding
      simp at hx
    · rintro (hnone | hc) hash hhash
      · have hhash' : hash ∈ w.codeHashes phone := hhash
        simp [hnone] at hhash'
      · obtain ⟨c, hc', hstanding⟩ := h phone hash hhash
        refine ⟨c, hc', (standing_signedIn_of_ne phone ?_).trans hstanding⟩
        rintro rfl
        exact hc hc'
  · exact fun p _ => rfl
  · exact fun p _ => rfl
  · exact fun p hne c hc => standing_signedIn_of_ne phone (howned.ne_client hphone hne hc)

theorem pending_handleDisconnect (h : w.CodesPending) (phone : String) :
    (w.handleDisconnect phone).1.CodesPending := by
  have hpopped : ∀ p, ((w.popClient p).popHash p).CodesPending := by
    intro p
    apply (h.iff_at p ?_ ?_ ?_).mpr
    · intro hash hhash
      simp [popHash] at hhash
    · intro q hne
      simp [popHash, popClient, hne]
    · intro q hne
      simp [popHash, popClient, hne]
    · exact fun _ _ _ _ => rfl
  cases hclients : w.clients (strip phone) with
  | none =>
      rw [handleDisconnect_of_none hclients]
      generalize strip phone = p
      exact (hpopped p).of_same rfl rfl fun _ _ _ => rfl
  | some client =>
      rw [handleDisconnect_of_some hclients]
      exact hpopped _

/-- A client is registered at once only where there was none, and no code either. -/
theorem pending_replace (h : w.CodesPending) (howned : w.Owned) (handler : Handler)
    (phone : String) : (w.replace handler phone).1.CodesPending := by
  unfold replace
  split
  · exact h
  · rename_i hnone
    refine (h.iff_none phone ?_ ?_ ?_ ?_).mpr (h.none_of_clients hnone)
    · rfl
    · intro p hne
      simp [register, hne]
    · exact fun p c hc => standing_register (howned.lt_length hc)
    · exact not_awaits_register handler phone

theorem pending_handle (h : w.CodesPending) (howned : w.Owned) (config : Config)
    (request : Request) : (w.handle config request).1.CodesPending := by
  cases request with
  | loginStart phone =>
      simp only [handle, handleLoginStart]
      split_ifs
      · exact h
      · exact pending_replace h howned _ _
  | connect phone session =>
      simp only [handle, handleConnect]
      split_ifs
      · exact h
      · exact pending_replace h howned _ _
      · exact h
  | loginCode phone code =>
      simp only [handle, handleLoginCode]
      split
      · exact h
      · split_ifs <;> exact h
  | loginPassword phone password =>
      simp only [handle, handleLoginPassword]
      split <;> exact h
  | disconnect phone => exact pending_handleDisconnect h phone

/-- A step keeps the codes pending exactly if it meets the condition. -/
theorem resume_codes {config : Config} {await : Await} {outcome : Outcome}
    {next : TelegramWorker × Task} (hnext : w.resume config await outcome = some next)
    (h : w.CodesPending) (howned : w.Owned)
    (howns : ∀ p ∈ await.owns?, w.phoneOf p.2 = some p.1) :
    next.1.CodesPending ↔ w.KeepsCodes await outcome := by
  cases resumes hnext with
  | handled request => exact iff_of_true (pending_handle h howned config _) trivial
  | unread request error => exact iff_of_true h trivial
  | replaced handler phone hw =>
      rw [pending_registered h howned hw]
      simp [KeepsCodes, (codeHashes_disconnected hw).2]
  | connected handler phone client =>
      have hsame : (w.setClient client fun c => { c with connected := true }).CodesPending :=
        h.of_same rfl rfl fun _ c _ =>
          standing_setClient (f := fun c => { c with connected := true }) (fun _ => rfl) client c
      cases handler with
      | loginStart => exact iff_of_true hsame trivial
      | connect session => exact iff_of_true hsame trivial
  | unconnected handler phone client error => exact iff_of_true h trivial
  | dropped phone hw =>
      rw [pending_dropped h (codeHashes_disconnected hw).1 (disconnected_clients hw)
        (standing_disconnected hw)]
      simp [KeepsCodes, (codeHashes_disconnected hw).2]
  | sent phone client hash viaApp => exact pending_codeSent h howned (howns (_, _) rfl) _ _
  | unsent phone client error => exact pending_dropped h rfl rfl fun _ => rfl
  | released error hw =>
      exact iff_of_true (h.of_same (codeHashes_disconnected hw).1 (disconnected_clients hw)
        fun _ c _ => standing_disconnected hw c) trivial
  | codeAccepted phone client =>
      exact iff_of_true (pending_signIn h howned (howns (_, _) rfl)) trivial
  | passwordNeeded phone client => exact iff_of_true h trivial
  | codeInvalid phone client error => exact iff_of_true h trivial
  | codeFailed phone client error => exact iff_of_true h trivial
  | passwordAccepted phone client => exact pending_signInPassword h howned (howns (_, _) rfl)
  | passwordFailed phone client error => exact iff_of_true h trivial
  | forgotten phone hw =>
      have hsame : CodesPending _ := h.of_same (codeHashes_disconnected hw).1
        (disconnected_clients hw) fun _ c _ => standing_disconnected hw c
      exact iff_of_true (hsame.of_same rfl rfl fun _ _ _ => rfl) trivial

/-! ## Clients and their phones -/

/-- The registered clients and the client of the next task are those of their
phones, and no client changes its phone. -/
structure Tended (w : TelegramWorker) (next : TelegramWorker × Task) : Prop where
  owned : next.1.Owned
  grows : ∀ c phone, w.phoneOf c = some phone → next.1.phoneOf c = some phone
  task : ∀ await ∈ next.2.await?, ∀ p ∈ await.owns?, next.1.phoneOf p.2 = some p.1

theorem Owned.popClient (h : w.Owned) (phone : String) : (w.popClient phone).Owned := by
  intro p c hc
  rcases eq_or_ne p phone with rfl | hne
  · simp [TelegramWorker.popClient] at hc
  · exact h p c (by simpa [TelegramWorker.popClient, hne] using hc)

theorem Owned.of_same (h : w.Owned) (hclients : w'.clients = w.clients)
    (hphones : ∀ c, w'.phoneOf c = w.phoneOf c) : w'.Owned := by
  intro p c hc
  rw [hphones]
  exact h p c (by rwa [hclients] at hc)

/-- A worker with the same clients and phones, and a task that has no client of its own. -/
theorem Owned.tended (h : w.Owned) {t : Task} (hclients : w'.clients = w.clients)
    (hphones : ∀ c, w'.phoneOf c = w.phoneOf c)
    (htask : ∀ await ∈ t.await?, ∀ p ∈ await.owns?, w.phoneOf p.2 = some p.1) :
    Tended w (w', t) where
  owned := h.of_same hclients hphones
  grows c _ hphone := (hphones c).trans hphone
  task await hawait p hp := (hphones p.2).trans (htask await hawait p hp)

theorem Owned.tended_register (h : w.Owned) (handler : Handler) (phone : String) :
    Tended w (w.register handler phone) where
  owned := by
    intro p c hc
    rcases eq_or_ne p phone with rfl | hne
    · obtain rfl : w.created.length = c := by simpa [register] using hc
      exact phoneOf_register_self handler p
    · exact phoneOf_register (h p c (by simpa [register, hne] using hc))
  grows c p hp := phoneOf_register hp
  task await hawait p hp := by
    obtain rfl : .connect handler phone w.created.length = await := Option.some_inj.mp hawait
    obtain rfl : (phone, w.created.length) = p := Option.some_inj.mp hp
    exact phoneOf_register_self handler phone

theorem requireClient_ok {phone : String} {client : ℕ} (h : w.requireClient phone = .ok client) :
    w.clients phone = some client := by
  unfold requireClient at h
  split at h
  · rename_i c hc
    exact hc.trans (congrArg some (Except.ok.inj h))
  · exact absurd h (by simp)

theorem Owned.tended_handle (h : w.Owned) (config : Config) (request : Request) :
    Tended w (w.handle config request) := by
  have hended : ∀ result, Tended w (w, .ended result) := fun result =>
    h.tended rfl (fun _ => rfl) (by simp [Task.await?])
  have hreplace : ∀ handler phone, Tended w (w.replace handler phone) := by
    intro handler phone
    unfold replace
    split
    · exact h.tended rfl (fun _ => rfl) (by simp [Task.await?, Await.owns?])
    · exact h.tended_register handler phone
  cases request with
  | loginStart phone =>
      simp only [handle, handleLoginStart]
      split_ifs
      · exact hended _
      · exact hreplace _ _
  | connect phone session =>
      simp only [handle, handleConnect]
      split_ifs
      · exact hended _
      · exact hreplace _ _
      · exact hended _
  | loginCode phone code =>
      simp only [handle, handleLoginCode]
      split
      · exact hended _
      · rename_i client hclient
        split_ifs
        · exact hended _
        · refine h.tended rfl (fun _ => rfl) ?_
          simpa [Task.await?, Await.owns?] using h _ _ (requireClient_ok hclient)
  | loginPassword phone password =>
      simp only [handle, handleLoginPassword]
      split
      · exact hended _
      · rename_i client hclient
        refine h.tended rfl (fun _ => rfl) ?_
        simpa [Task.await?, Await.owns?] using h _ _ (requireClient_ok hclient)
  | disconnect phone =>
      simp only [handle]
      cases hclients : w.clients (strip phone) with
      | none =>
          rw [handleDisconnect_of_none hclients]
          generalize strip phone = p
          exact ⟨(h.popClient p).of_same rfl fun _ => rfl, fun _ _ => id,
            by simp [forget, Task.await?]⟩
      | some client =>
          rw [handleDisconnect_of_some hclients]
          generalize strip phone = p
          exact ⟨(h.popClient p).of_same rfl fun _ => rfl, fun _ _ => id,
            by simp [Task.await?, Await.owns?]⟩

theorem Owned.tended_resume (h : w.Owned) {config : Config} {await : Await} {outcome : Outcome}
    {next : TelegramWorker × Task} (hnext : w.resume config await outcome = some next)
    (howns : ∀ p ∈ await.owns?, w.phoneOf p.2 = some p.1) : Tended w next := by
  have hended : ∀ result, Tended w (w, .ended result) := fun result =>
    h.tended rfl (fun _ => rfl) (by simp [Task.await?])
  cases resumes hnext with
  | handled request => exact h.tended_handle config _
  | unread request error => exact hended _
  | replaced handler phone hw =>
      have hsame : Owned _ := h.of_same (disconnected_clients hw) (phoneOf_disconnected hw)
      have hregistered := (hsame.popClient phone).tended_register handler phone
      refine ⟨hregistered.owned, fun c p hp => hregistered.grows c p ?_, hregistered.task⟩
      exact (phoneOf_disconnected hw c).trans hp
  | connected handler phone client =>
      have hphones : ∀ c, (w.setClient client fun c => { c with connected := true }).phoneOf c =
          w.phoneOf c := phoneOf_setClient (f := fun c => { c with connected := true })
        (fun _ => rfl) client
      cases handler with
      | loginStart =>
          refine h.tended rfl hphones ?_
          simpa [Task.await?, Await.owns?] using howns
      | connect session => exact h.tended rfl hphones (by simp [Task.await?])
  | unconnected handler phone client error =>
      exact h.tended rfl (fun _ => rfl) (by simp [Task.await?, Await.owns?])
  | dropped phone hw =>
      have hsame : Owned _ := h.of_same (disconnected_clients hw) (phoneOf_disconnected hw)
      exact ⟨hsame.popClient phone, fun c _ => (phoneOf_disconnected hw c).trans,
        by simp [Task.await?]⟩
  | sent phone client hash viaApp =>
      exact h.tended rfl (phoneOf_setClient (f := fun c => { c with phoneCodeHash := some hash })
        (fun _ => rfl) client) (by simp [Task.await?])
  | unsent phone client error =>
      exact ⟨h.popClient phone, fun _ _ => id, by simp [Task.await?, Await.owns?]⟩
  | released error hw =>
      exact h.tended (disconnected_clients hw) (phoneOf_disconnected hw)
        (by simp [authFailed, Task.await?])
  | codeAccepted phone client =>
      exact h.tended rfl (phoneOf_setClient (f := fun c => { c with signedIn := true })
        (fun _ => rfl) client) (by simp [Task.await?])
  | passwordNeeded phone client => exact hended _
  | codeInvalid phone client error => exact hended _
  | codeFailed phone client error => exact hended _
  | passwordAccepted phone client =>
      exact h.tended rfl (phoneOf_setClient (f := fun c => { c with signedIn := true })
        (fun _ => rfl) client) (by simp [Task.await?])
  | passwordFailed phone client error => exact hended _
  | forgotten phone hw =>
      have hsame : Owned _ := h.of_same (disconnected_clients hw) (phoneOf_disconnected hw)
      exact ⟨hsame.of_same rfl fun _ => rfl, fun c _ => (phoneOf_disconnected hw c).trans,
        by simp [forget, Task.await?]⟩

theorem ends_of_disconnected_none {client : ℕ} {outcome : Outcome}
    (h : w.disconnected client outcome = none) : outcome.ends = false := by
  cases outcome <;> first | rfl | simp [TelegramWorker.disconnected] at h

/-- An outcome that the awaited call does not have breaks nothing. -/
theorem keepsCodes_of_none {config : Config} {await : Await} {outcome : Outcome}
    (hnone : w.resume config await outcome = none) : w.KeepsCodes await outcome := by
  cases await with
  | previousDisconnect handler phone previous =>
      have hends := ends_of_disconnected_none (Option.map_eq_none_iff.mp hnone)
      exact fun htrue => absurd htrue (by simp [hends])
  | failedDisconnect phone client =>
      have hends := ends_of_disconnected_none (Option.map_eq_none_iff.mp hnone)
      exact fun htrue => absurd htrue (by simp [hends])
  | sendCode phone client =>
      cases outcome <;> trivial
  | signInPassword phone client =>
      cases outcome <;> trivial
  | _ => trivial

end TelegramWorker

/-! ## Runs -/

namespace Loop

open TelegramWorker

/-- The clients of the registry and of the tasks are those of their phones. -/
structure Owned (s : Loop) : Prop where
  clients : s.worker.Owned
  tasks : ∀ t ∈ s.tasks, ∀ await ∈ t.await?, ∀ p ∈ await.owns?, s.worker.phoneOf p.2 = some p.1

/-- The event that happens keeps the codes with their clients. -/
def KeepsCodes (s : Loop) : Event → Prop
  | .request _ _ => True
  | .resume i outcome => ∀ t ∈ s.tasks[i]?, ∀ await ∈ t.await?, s.worker.KeepsCodes await outcome

/-- The event leads to a state in which every pending code belongs to the
registered client. -/
def LeadsToPending (config : Config) (s : Loop) (e : Event) : Prop :=
  (step config s e).worker.CodesPending

variable {config : Config} {s : Loop}

theorem owned_step (h : s.Owned) (e : Event) : (step config s e).Owned := by
  cases e with
  | request secret request =>
      refine ⟨h.clients, fun t ht await hawait p hp => ?_⟩
      rcases List.mem_append.mp ht with hold | hnew
      · exact h.tasks t hold await hawait p hp
      · obtain rfl := List.mem_singleton.mp hnew
        unfold Config.accept at hawait
        split at hawait
        · obtain rfl : .json request = await := Option.some_inj.mp hawait
          simp [Await.owns?] at hp
        · simp [Task.await?] at hawait
  | resume i outcome =>
      simp only [step]
      split
      · rename_i await hi
        cases hnext : s.worker.resume config await outcome with
        | none => exact h
        | some next =>
            have htended := h.clients.tended_resume hnext
              (h.tasks _ (List.mem_of_getElem? hi) await rfl)
            refine ⟨htended.owned, fun t ht await' hawait p hp => ?_⟩
            rcases List.mem_or_eq_of_mem_set ht with hold | rfl
            · exact htended.grows _ _ (h.tasks t hold await' hawait p hp)
            · exact htended.task await' hawait p hp
      · exact h

theorem pending_step_iff (h : s.worker.CodesPending) (howned : s.Owned) (e : Event) :
    LeadsToPending config s e ↔ KeepsCodes s e := by
  cases e with
  | request secret request => exact iff_of_true h trivial
  | resume i outcome =>
      simp only [LeadsToPending, step, KeepsCodes]
      cases hi : s.tasks[i]? with
      | none => exact iff_of_true h (by simp)
      | some t =>
          cases t with
          | ended result => exact iff_of_true h (by simp [Task.await?])
          | running await =>
              have howns := howned.tasks _ (List.mem_of_getElem? hi) await rfl
              simp only [Option.mem_def, Option.some.injEq, forall_eq', Task.await?]
              cases hnext : s.worker.resume config await outcome with
              | none => exact iff_of_true h (keepsCodes_of_none hnext)
              | some next => exact resume_codes hnext h howned.clients howns

/-- In every run the pending codes belong to the registered clients exactly if
every step meets the condition. -/
theorem codes_pending_iff (config : Config) (es : List Event) :
    Machine.AllowedList (step config) (LeadsToPending config) initial es ↔
      Machine.AllowedList (step config) KeepsCodes initial es := by
  apply Machine.AllowedList.congr fun s => s.worker.CodesPending ∧ s.Owned
  · refine ⟨fun phone hash hhash => ?_, fun phone c hc => ?_, fun t ht => ?_⟩
    · simp [initial] at hhash
    · simp [initial] at hc
    · simp [initial] at ht
  · exact fun s e h hpending => ⟨hpending, owned_step h.2 e⟩
  · exact fun s e h => pending_step_iff h.1 h.2 e

/-- A login with the code, which Telegram wants completed with the password. -/
def passwordLogin : List Event :=
  [.request none (.loginStart samplePhone), .resume 0 .done, .resume 0 .done,
    .resume 0 (.sent "hash" true), .request none (.loginCode samplePhone "12345"), .resume 1 .done,
    .resume 1 .passwordNeeded, .request none (.loginPassword samplePhone "secret"),
    .resume 2 .done, .resume 2 .done]

/-- The login is finished, and its code is still pending. -/
theorem passwordLogin_pending :
    (passwordLogin.foldl (step sampleConfig) initial).worker.codeHashes samplePhone = some "hash" ∧
      (passwordLogin.foldl (step sampleConfig) initial).worker.clients samplePhone = some 0 ∧
      (passwordLogin.foldl (step sampleConfig) initial).worker.standing 0 =
        some (some "hash", true) ∧
      ¬ (passwordLogin.foldl (step sampleConfig) initial).worker.CodesPending := by
  have hclients : (passwordLogin.foldl (step sampleConfig) initial).worker.clients samplePhone =
      some 0 := by decide +kernel
  have hcode : (passwordLogin.foldl (step sampleConfig) initial).worker.codeHashes samplePhone =
      some "hash" := by decide +kernel
  have hstanding : (passwordLogin.foldl (step sampleConfig) initial).worker.standing 0 =
      some (some "hash", true) := by decide +kernel
  refine ⟨hcode, hclients, hstanding, fun h => ?_⟩
  rw [h.none_of_signedIn hclients hstanding] at hcode
  exact absurd hcode (by simp)

end Loop

end SocialMonitor.Sidecar

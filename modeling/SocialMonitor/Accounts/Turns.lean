import SocialMonitor.Accounts.Service
import SocialMonitor.Runs

/-!
# Operations on the accounts

The operations of the API one after the other, each with the journal of what it
awaited, and what one of them can do to the table.
-/

namespace SocialMonitor.Accounts

open Async Crypto TelegramAuthService

inductive Operation where
  | startLogin (phone : String)
  | submitCode (phone code : String)
  | submitPassword (phone password : String)
  | getStatus
  | reconnect
  | logout
  | restoreAccounts
deriving DecidableEq

/-- The operations of one run, newest first. -/
abbrev Journal := List (Entry Op Answer ApiError)

structure Turn where
  operation : Operation
  journal : Journal
  result : Except ApiError Reply

structure State where
  world : World
  turns : List Turn

inductive Event where
  | operation (operation : Operation) (choices : ℕ → Choice)
  | sidecarRestart

def initial : State := ⟨⟨⟨[], 0⟩, Sidecar.Loop.initial.worker⟩, []⟩

section Machine

variable (setting : Setting)

def program : Operation → Api Reply
  | .startLogin phone => TelegramAuthService.startLogin phone
  | .submitCode phone code => TelegramAuthService.submitCode setting phone code
  | .submitPassword phone password => TelegramAuthService.submitPassword setting phone password
  | .getStatus => TelegramService.getStatus
  | .reconnect => TelegramService.reconnect setting
  | .logout => TelegramService.logout
  | .restoreAccounts => TelegramListener.restoreAccounts setting

def turn (w : World) (operation : Operation) (choices : ℕ → Choice) : Turn × World :=
  let ended := (program setting operation).run (journaled (exec setting)) choices (w, [])
  (⟨operation, ended.2.2, ended.1⟩, ended.2.1)

def step (s : State) : Event → State
  | .operation operation choices =>
      let turned := turn setting s.world operation choices
      ⟨turned.2, turned.1 :: s.turns⟩
  | .sidecarRestart => { s with world := { s.world with sidecar := Sidecar.Loop.initial.worker } }

abbrev Run (s : State) : Prop := Machine.Run (step setting) (fun _ _ => True) initial s

end Machine

/-! ## What a turn shows -/

/-- The phones and sessions of the `connectWithSession` calls. -/
def connects (journal : Journal) : List (String × String) :=
  journal.filterMap fun e =>
    match e.op with
    | .request (.connect phone session) => some (phone, session)
    | _ => none

def saved? (journal : Journal) : Option String :=
  journal.findSome? fun e =>
    match e with
    | ⟨.saveSession _, .ok session⟩ => some session
    | _ => none

/-- What a turn did to the account of a phone. -/
inductive Change where
  | persisted (phone session : String)
  | cleared (phone : String)
deriving DecidableEq

def change? (journal : Journal) : Except ApiError Reply → Option Change
  | .ok (.loggedIn phone) => (saved? journal).map (.persisted phone)
  | .ok (.disconnected phone) => some (.cleared phone)
  | _ => none

def Turn.change? (t : Turn) : Option Change := Accounts.change? t.journal t.result

def Turn.connects (t : Turn) : List (String × String) := Accounts.connects t.journal

/-! ## What an operation does to the table -/

def Effect (w : World) : (op : Op) → Except ApiError (Answer op) → World → Prop
  | .findUnique phone, .ok found, w' => w' = w ∧
      (∀ a ∈ found, a ∈ w.accounts.rows ∧ a.phone = phone) ∧
      (found = none → ∀ a ∈ w.accounts.rows, a.phone ≠ phone)
  | .create phone session connected, .ok _, w' =>
      w' = { w with accounts := w.accounts.create phone session connected }
  | .update id session connected, .ok _, w' =>
      w' = { w with accounts := w.accounts.update id session connected }
  | .findConnected, .ok rows, w' => w' = w ∧ rows.Perm w.accounts.connected
  | .request _, _, w' => w'.accounts = w.accounts
  | _, _, w' => w' = w

theorem exec_effect (setting : Setting) (c : Choice) (op : Op) (w : World) :
    Effect w op (exec setting c op w).1 (exec setting c op w).2 := by
  cases op with
  | findUnique phone =>
      cases hfault : c.fault with
      | some error => simp [exec, Choice.query, hfault, Effect]
      | none =>
          have hmem : ∀ a, a ∈ Table.arranged c.order (w.accounts.withPhone phone) ↔
              a ∈ w.accounts.rows ∧ a.phone = phone := fun a => by
            rw [(Table.arranged_perm _ _).mem_iff, AccountTable.withPhone, List.mem_filter,
              decide_eq_true_iff]
          simp only [exec, Choice.query, hfault, Effect, true_and]
          constructor
          · exact fun a ha => (hmem a).mp (List.mem_of_mem_head? ha)
          · intro hnone a ha hphone
            have hnil := List.head?_eq_none_iff.mp hnone
            simpa [hnil] using (hmem a).mpr ⟨ha, hphone⟩
  | create phone session connected =>
      cases hfault : c.fault <;> simp [exec, Choice.query, hfault, Effect]
  | update id session connected =>
      cases hfault : c.fault with
      | some error => simp [exec, Choice.query, hfault, Effect]
      | none =>
          simp only [exec, Choice.query, hfault]
          split_ifs <;> simp [Effect]
  | findConnected =>
      cases hfault : c.fault with
      | some error => simp [exec, Choice.query, hfault, Effect]
      | none => simpa [exec, Choice.query, hfault, Effect] using Table.arranged_perm _ _
  | request request => simp [exec, Effect]
  | saveSession phone => rfl
  | getStatus => rfl
  | randomBytes => rfl

inductive Applies (setting : Setting) (t : AccountTable) : Option Change → AccountTable → Prop where
  | kept : Applies setting t none t
  | updated (a : TelegramAccount) (iv : Iv) (session encrypted : String) (ha : a ∈ t.rows)
      (hencrypt : setting.encryption.encrypt iv session = .ok encrypted) :
      Applies setting t (some (.persisted a.phone session)) (t.update a.id encrypted true)
  | created (dtoPhone : String) (iv : Iv) (session encrypted : String)
      (hnew : ∀ a ∈ t.rows, a.phone ≠ normalizePhone dtoPhone)
      (hencrypt : setting.encryption.encrypt iv session = .ok encrypted) :
      Applies setting t (some (.persisted (normalizePhone dtoPhone) session))
        (t.create (normalizePhone dtoPhone) encrypted true)
  | cleared (a : TelegramAccount) (ha : a ∈ t.connected) :
      Applies setting t (some (.cleared a.phone)) (t.update a.id "" false)

/-- The session is that of a connected row. -/
def Stored (setting : Setting) (t : AccountTable) (phone session : String) : Prop :=
  ∃ a ∈ t.connected, a.phone = phone ∧ setting.encryption.decrypt a.session = .ok session

section Programs

open Program

variable (setting : Setting) (t : AccountTable)

def Ends (w : World) (h : Journal) (r : Except ApiError Reply) : Prop :=
  Applies setting t (change? h r) w.accounts ∧ ∀ c ∈ connects h, Stored setting t c.1 c.2

/-- The table is as it was, and no session was used. -/
def Kept (w : World) (h : Journal) : Prop := w.accounts = t ∧ connects h = []

variable {setting t} {w : World} {h : Journal}

theorem Kept.ends {r : Except ApiError Reply} (hkept : Kept t w h) (hr : change? h r = none) :
    Ends setting t w h r :=
  ⟨by rw [hr, hkept.1]; exact .kept, by simp [hkept.2]⟩

theorem request_logs {request : Sidecar.Request} (hkept : Kept t w h)
    (hrequest : ∀ phone session, request ≠ .connect phone session) :
    (await (Op.request request)).Logs Effect (fun w' h' _ => Kept t w' h') w h := by
  refine (logs_await _ _ _ _ _).mpr fun r w' heffect => ⟨heffect.trans hkept.1, ?_⟩
  cases request with
  | connect phone session => exact absurd rfl (hrequest phone session)
  | _ => simpa [connects] using hkept.2

theorem encrypt_logs {plaintext : String} (hkept : Kept t w h)
    (hsaved : saved? h = some plaintext) :
    (encrypt setting plaintext).Logs Effect (fun w' h' r => Kept t w' h' ∧
      saved? h' = some plaintext ∧
      ∀ encrypted, r = .ok encrypted →
        ∃ iv, setting.encryption.encrypt iv plaintext = .ok encrypted) w h := by
  refine (logs_call _ _ _ _ _ _).mpr fun r w' heffect => ?_
  obtain rfl : w' = w := heffect
  cases r with
  | error e =>
      exact ⟨by simpa [Kept, connects] using hkept, by simpa [saved?] using hsaved, by simp⟩
  | ok iv =>
      refine (obeys_ofExcept _ _ _ _ _).mpr ⟨?_, ?_, fun encrypted hr => ⟨iv, hr⟩⟩
      · simpa [Kept, connects] using hkept
      · simpa [saved?] using hsaved

theorem upsert_logs {dtoPhone session encrypted : String} {iv : Iv} (hkept : Kept t w h)
    (hencrypt : setting.encryption.encrypt iv session = .ok encrypted) :
    (TelegramAccountRepository.upsert (normalizePhone dtoPhone) encrypted true).Logs Effect
      (fun w' h' r => connects h' = [] ∧ saved? h' = saved? h ∧ match r with
        | .ok _ => Applies setting t (some (.persisted (normalizePhone dtoPhone) session))
            w'.accounts
        | .error _ => w'.accounts = t) w h := by
  obtain ⟨rfl, hconnects⟩ := hkept
  refine (logs_call _ _ _ _ _ _).mpr fun r w' heffect => ?_
  cases r with
  | error e =>
      obtain rfl : w' = w := heffect
      exact ⟨by simpa [connects] using hconnects, by simp [saved?], rfl⟩
  | ok found =>
      obtain ⟨rfl, hfound, hmissing⟩ := heffect
      cases found with
      | some existing =>
          obtain ⟨hmem, hphone⟩ := hfound existing rfl
          refine (logs_await Effect (Op.update existing.id encrypted true) _ _ _).mpr
            fun r w'' heffect => ?_
          refine ⟨by simpa [connects] using hconnects, by simp [saved?], ?_⟩
          cases r with
          | error e => exact congrArg World.accounts heffect
          | ok _ =>
              obtain rfl := heffect
              exact hphone ▸ .updated existing iv session encrypted hmem hencrypt
      | none =>
          refine (logs_await Effect (Op.create (normalizePhone dtoPhone) encrypted true) _ _ _).mpr
            fun r w'' heffect => ?_
          refine ⟨by simpa [connects] using hconnects, by simp [saved?], ?_⟩
          cases r with
          | error e => exact congrArg World.accounts heffect
          | ok _ =>
              obtain rfl := heffect
              exact .created dtoPhone iv session encrypted (hmissing rfl) hencrypt

theorem persistSession_logs {dtoPhone : String} (hkept : Kept t w h) :
    (persistSession setting (normalizePhone dtoPhone)).Logs Effect
      (fun w' h' r => connects h' = [] ∧ match r with
        | .ok _ => ∃ session, saved? h' = some session ∧
            Applies setting t (some (.persisted (normalizePhone dtoPhone) session)) w'.accounts
        | .error _ => w'.accounts = t) w h := by
  refine Logs.bind (fun w' h' session => Kept t w' h' ∧ saved? h' = some session) ?_ ?_
  · refine (logs_await _ _ _ _ _).mpr fun r w' heffect => ?_
    obtain rfl : w' = w := heffect
    have hkept' : Kept t w' (⟨.saveSession (normalizePhone dtoPhone), r⟩ :: h) := by
      simpa [Kept, connects] using hkept
    cases r with
    | error e => exact ⟨hkept'.2, hkept'.1⟩
    | ok session => exact ⟨hkept', by simp [saved?]⟩
  · rintro w₁ h₁ session ⟨hkept₁, hsaved⟩
    refine Logs.bind (fun w' h' encrypted => Kept t w' h' ∧ saved? h' = some session ∧
      ∃ iv, setting.encryption.encrypt iv session = .ok encrypted) ?_ ?_
    · refine (encrypt_logs hkept₁ hsaved).mono (fun _ _ h => h) ?_
      rintro st (e | encrypted) ⟨hkept₂, hsaved₂, hencrypt⟩
      · exact ⟨hkept₂.2, hkept₂.1⟩
      · exact ⟨hkept₂, hsaved₂, hencrypt encrypted rfl⟩
    · rintro w₂ h₂ encrypted ⟨hkept₂, hsaved₂, iv, hencrypt⟩
      refine (upsert_logs hkept₂ hencrypt).mono (fun _ _ h => h) ?_
      rintro st (e | _) ⟨hconnects, hsaved₃, hend⟩
      · exact ⟨hconnects, hend⟩
      · exact ⟨hconnects, session, hsaved₃.trans hsaved₂, hend⟩

/-- The part of a login that follows the answer of the sidecar. -/
theorem loggedIn_logs {dtoPhone : String} (hkept : Kept t w h) :
    ((persistSession setting (normalizePhone dtoPhone)).bind fun _ =>
      (ret (.loggedIn (normalizePhone dtoPhone)) : Api Reply)).Logs Effect
        (Ends setting t) w h := by
  refine Logs.bind (fun w' h' _ => connects h' = [] ∧ ∃ session, saved? h' = some session ∧
    Applies setting t (some (.persisted (normalizePhone dtoPhone) session)) w'.accounts) ?_ ?_
  · refine (persistSession_logs hkept).mono (fun _ _ h => h) ?_
    rintro st (e | _) ⟨hconnects, hend⟩
    · exact Kept.ends ⟨hend, hconnects⟩ rfl
    · exact ⟨hconnects, hend⟩
  · rintro w' h' _ ⟨hconnects, session, hsaved, happlies⟩
    exact ⟨by simpa [change?, hsaved] using happlies, by simp [hconnects]⟩

theorem startLogin_logs {phone : String} (hkept : Kept t w h) :
    (TelegramAuthService.startLogin phone).Logs Effect (Ends setting t) w h := by
  refine Logs.handle (fun w' h' _ => Kept t w' h') ?_ fun w' h' e hkept' => hkept'.ends rfl
  refine Logs.bind (fun w' h' _ => Kept t w' h') ?_ fun w' h' result hkept' => hkept'.ends rfl
  refine Logs.bind (fun w' h' _ => Kept t w' h') ?_ ?_
  · refine (request_logs hkept (by simp)).mono (fun _ _ h => h) ?_
    rintro st (e | reply) hkept'
    · exact hkept'
    · exact hkept'
  · intro w' h' reply hkept'
    cases reply <;> exact hkept'

theorem submitCode_logs {phone code : String} (hkept : Kept t w h) :
    (TelegramAuthService.submitCode setting phone code).Logs Effect (Ends setting t) w h := by
  refine Logs.bind (fun w' h' _ => Kept t w' h') ?_ ?_
  · refine Logs.handle (fun w' h' _ => Kept t w' h') ?_ fun w' h' e hkept' => hkept'.ends rfl
    refine Logs.bind (fun w' h' _ => Kept t w' h') ?_ ?_
    · refine (request_logs hkept (by simp)).mono (fun _ _ h => h) ?_
      rintro st (e | reply) hkept'
      · exact hkept'
      · exact hkept'
    · intro w' h' reply hkept'
      cases reply <;> exact hkept'
  · intro w' h' passwordRequired hkept'
    cases passwordRequired with
    | true => exact hkept'.ends rfl
    | false => exact loggedIn_logs hkept'

theorem submitPassword_logs {phone password : String} (hkept : Kept t w h) :
    (TelegramAuthService.submitPassword setting phone password).Logs Effect
      (Ends setting t) w h := by
  refine Logs.bind (fun w' h' _ => Kept t w' h') ?_ fun w' h' _ hkept' => loggedIn_logs hkept'
  refine Logs.handle (fun w' h' _ => Kept t w' h') ?_ fun w' h' e hkept' => hkept'.ends rfl
  refine Logs.bind (fun w' h' _ => Kept t w' h') ?_ fun w' h' _ hkept' => hkept'
  refine (request_logs hkept (by simp)).mono (fun _ _ h => h) ?_
  rintro st (e | reply) hkept'
  · exact hkept'
  · exact hkept'

theorem getStatus_logs (hkept : Kept t w h) :
    TelegramService.getStatus.Logs Effect (Ends setting t) w h := by
  refine (logs_call _ _ _ _ _ _).mpr fun r w' heffect => ?_
  obtain rfl : w' = w := heffect
  have hkept' : Kept t w' (⟨.getStatus, r⟩ :: h) := by simpa [Kept, connects] using hkept
  cases r with
  | error e => exact hkept'.ends rfl
  | ok status => exact hkept'.ends rfl

theorem logoutAccount_logs {account : TelegramAccount} (hkept : Kept t w h)
    (hmem : account ∈ t.connected) :
    (((TelegramClientManager.disconnect account.phone).handle fun _ => ret ()).bind fun _ =>
      (await (Op.update account.id "" false)).bind fun _ =>
        (ret (.disconnected account.phone) : Api Reply)).Logs Effect (Ends setting t) w h := by
  refine Logs.bind (fun w' h' _ => Kept t w' h') ?_ ?_
  · refine Logs.handle (fun w' h' _ => Kept t w' h') ?_ fun w' h' e hkept' => hkept'
    refine Logs.bind (fun w' h' _ => Kept t w' h') ?_ fun w' h' _ hkept' => hkept'
    refine (request_logs hkept (by simp)).mono (fun _ _ h => h) ?_
    rintro st (e | reply) hkept'
    · exact hkept'
    · exact hkept'
  · rintro w₁ h₁ _ ⟨rfl, hconnects⟩
    refine (logs_call _ _ _ _ _ _).mpr fun r w₂ heffect => ?_
    have hconnects₂ : connects (⟨.update account.id "" false, r⟩ :: h₁) = [] := by
      simpa [connects] using hconnects
    cases r with
    | error e =>
        obtain rfl : w₂ = w₁ := heffect
        exact Kept.ends ⟨rfl, hconnects₂⟩ rfl
    | ok _ =>
        obtain rfl := heffect
        exact ⟨.cleared account hmem, by simp [hconnects₂]⟩

theorem logout_logs (hkept : Kept t w h) :
    TelegramService.logout.Logs Effect (Ends setting t) w h := by
  refine (logs_call _ _ _ _ _ _).mpr fun r w' heffect => ?_
  cases r with
  | error e =>
      obtain rfl : w' = w := heffect
      exact Kept.ends (by simpa [Kept, connects] using hkept) rfl
  | ok accounts =>
      obtain ⟨rfl, hperm⟩ := heffect
      have hkept₁ : Kept t w' (⟨.findConnected, .ok accounts⟩ :: h) := by
        simpa [Kept, connects] using hkept
      cases accounts with
      | nil => exact hkept₁.ends rfl
      | cons account rest =>
          have hmem : account ∈ t.connected := hkept.1 ▸ hperm.mem_iff.mp List.mem_cons_self
          exact logoutAccount_logs hkept₁ hmem

variable (setting t) in
/-- The table is as it was, and the sessions used are those of its rows. -/
def Used (w : World) (h : Journal) : Prop :=
  w.accounts = t ∧ ∀ c ∈ connects h, Stored setting t c.1 c.2

theorem Kept.used (hkept : Kept t w h) : Used setting t w h := ⟨hkept.1, by simp [hkept.2]⟩

theorem Used.ends {r : Except ApiError Reply} (hused : Used setting t w h)
    (hr : change? h r = none) :
    Ends setting t w h r :=
  ⟨by rw [hr, hused.1]; exact .kept, hused.2⟩

theorem connectAccount_logs {account : TelegramAccount} (hused : Used setting t w h)
    (hmem : account ∈ t.connected) :
    ((decrypt setting account.session).bind fun session =>
      TelegramClientManager.connectWithSession account.phone session).Logs Effect
      (fun w' h' _ => Used setting t w' h') w h := by
  cases hdecrypt : setting.encryption.decrypt account.session with
  | error e =>
      rw [decrypt, hdecrypt]
      exact hused
  | ok session =>
      rw [decrypt, hdecrypt]
      refine (logs_call _ _ _ _ _ _).mpr fun r w' heffect => ?_
      have hused' : Used setting t w' (⟨.request (.connect account.phone session), r⟩ :: h) := by
        refine ⟨heffect.trans hused.1, fun c hc => ?_⟩
        rcases List.mem_cons.mp hc with rfl | hc
        · exact ⟨account, hmem, rfl, hdecrypt⟩
        · exact hused.2 c hc
      cases r with
      | error e => exact hused'
      | ok reply => exact hused'

/-- The part of `reconnect` that follows the choice of the account. -/
theorem reconnectAccount_logs {account : TelegramAccount} (hkept : Kept t w h)
    (hmem : account ∈ t.connected) :
    ((((decrypt setting account.session).bind fun session =>
      TelegramClientManager.connectWithSession account.phone session).handle fun e =>
        raise (TelegramService.reconnectFailed e)).bind fun _ =>
          (ret (.status true (some account.phone)) : Api Reply)).Logs Effect
            (Ends setting t) w h := by
  refine Logs.bind (fun w' h' _ => Used setting t w' h') ?_ fun w' h' _ hused => hused.ends rfl
  refine Logs.handle (fun w' h' _ => Used setting t w' h') ?_ fun w' h' e hused => hused.ends rfl
  refine (connectAccount_logs hkept.used hmem).mono (fun _ _ h => h) ?_
  rintro st (e | _) hused
  · exact hused
  · exact hused

theorem reconnect_logs (hkept : Kept t w h) :
    (TelegramService.reconnect setting).Logs Effect (Ends setting t) w h := by
  refine (logs_call _ _ _ _ _ _).mpr fun r w' heffect => ?_
  cases r with
  | error e =>
      obtain rfl : w' = w := heffect
      exact Kept.ends (by simpa [Kept, connects] using hkept) rfl
  | ok accounts =>
      obtain ⟨rfl, hperm⟩ := heffect
      have hkept₁ : Kept t w' (⟨.findConnected, .ok accounts⟩ :: h) := by
        simpa [Kept, connects] using hkept
      cases accounts with
      | nil => exact hkept₁.ends rfl
      | cons account rest =>
          have hmem : account ∈ t.connected := hkept.1 ▸ hperm.mem_iff.mp List.mem_cons_self
          exact reconnectAccount_logs hkept₁ hmem

theorem restoreAccount_logs {account : TelegramAccount} (hused : Used setting t w h)
    (hmem : account ∈ t.connected) :
    (TelegramListener.restoreAccount setting account).Logs Effect
      (Leads (fun w' h' _ => Used setting t w' h') (Ends setting t)) w h := by
  refine Logs.handle (fun w' h' _ => Used setting t w' h') ?_ fun w' h' e hused' => hused'
  refine (connectAccount_logs hused hmem).mono (fun _ _ h => h) ?_
  rintro st (e | _) hused'
  · exact hused'
  · exact hused'

theorem restoreAll_logs {accounts : List TelegramAccount} (hused : Used setting t w h)
    (hmem : ∀ a ∈ accounts, a ∈ t.connected) :
    (accounts.forM (TelegramListener.restoreAccount setting)).Logs Effect
      (Leads (fun w' h' _ => Used setting t w' h') (Ends setting t)) w h := by
  induction accounts generalizing w h with
  | nil => exact hused
  | cons account rest ih =>
      obtain ⟨hfirst, hrest⟩ := List.forall_mem_cons.mp hmem
      refine Logs.bind (fun w' h' _ => Used setting t w' h') ?_ fun w' h' _ hused' =>
        ih hused' hrest
      exact restoreAccount_logs hused hfirst

theorem restoreAccounts_logs (hkept : Kept t w h) :
    (TelegramListener.restoreAccounts setting).Logs Effect (Ends setting t) w h := by
  refine (logs_call _ _ _ _ _ _).mpr fun r w' heffect => ?_
  cases r with
  | error e =>
      obtain rfl : w' = w := heffect
      exact Kept.ends (by simpa [Kept, connects] using hkept) rfl
  | ok accounts =>
      obtain ⟨rfl, hperm⟩ := heffect
      have hkept₁ : Kept t w' (⟨.findConnected, .ok accounts⟩ :: h) := by
        simpa [Kept, connects] using hkept
      have hmem : ∀ a ∈ accounts, a ∈ t.connected := fun a ha => hkept.1 ▸ hperm.mem_iff.mp ha
      have hall : ((accounts.forM (TelegramListener.restoreAccount setting)).bind fun _ =>
          (ret .restored : Api Reply)).Logs Effect (Ends setting t) w'
            (⟨.findConnected, .ok accounts⟩ :: h) :=
        Logs.bind (fun w' h' _ => Used setting t w' h') (restoreAll_logs hkept₁.used hmem)
          fun w' h' _ hused => hused.ends rfl
      exact hall

theorem program_logs (operation : Operation) (hkept : Kept t w h) :
    (program setting operation).Logs Effect (Ends setting t) w h := by
  cases operation with
  | startLogin phone => exact startLogin_logs hkept
  | submitCode phone code => exact submitCode_logs hkept
  | submitPassword phone password => exact submitPassword_logs hkept
  | getStatus => exact getStatus_logs hkept
  | reconnect => exact reconnect_logs hkept
  | logout => exact logout_logs hkept
  | restoreAccounts => exact restoreAccounts_logs hkept

end Programs

/-- Everything a turn can do: one change of the table, and connections with
sessions of connected rows. -/
theorem turn_ends (setting : Setting) (w : World) (operation : Operation) (choices : ℕ → Choice) :
    Applies setting w.accounts (turn setting w operation choices).1.change?
        (turn setting w operation choices).2.accounts ∧
      ∀ c ∈ (turn setting w operation choices).1.connects, Stored setting w.accounts c.1 c.2 :=
  Program.Logs.run (exec_effect setting) (program_logs operation ⟨rfl, rfl⟩) choices

end SocialMonitor.Accounts

import SocialMonitor.Accounts.Sessions

/-!
# Which account is acted on

`reconnect` and `logout` take the first of the connected rows, in whatever order
they come.  The sidecar has a current phone of its own.
-/

namespace SocialMonitor.Accounts

open Async TelegramAuthService

/-- The phone of the connected account that was persisted last. -/
def latest? (t : AccountTable) : List Turn → Option String
  | [] => none
  | turn :: turns =>
      match turn.change? with
      | some (.persisted phone _) =>
          if t.connected.any fun a => a.phone = phone then some phone else latest? t turns
      | _ => latest? t turns

section Statements

variable (setting : Setting) (s : State)

/-- `getStatus` reports the phone as connected. -/
def Reports (w : World) (phone : String) : Prop :=
  ∃ choices, (turn setting w .getStatus choices).1.result = .ok (.status true (some phone))

/-- `reconnect` connects the account that was persisted last, if any. -/
def ReconnectsLatest : Prop :=
  ∀ choices, (turn setting s.world .reconnect choices).1.connects.map Prod.fst =
    if (choices 0).fault.isSome then [] else (latest? s.world.accounts s.turns).toList

/-- After a `logout` that returns `disconnected: true`, with the request to the sidecar given,
there is no client for the phone reported before, and it is reported no more. -/
def LogoutDisconnects (wire : Wire) : Prop :=
  ∀ choices phone phone', (choices 1).wire = wire → Reports setting s.world phone →
    (turn setting s.world .logout choices).1.result = .ok (.disconnected phone') →
    (turn setting s.world .logout choices).2.sidecar.clients phone = none ∧
      ¬ Reports setting (turn setting s.world .logout choices).2 phone

/-- The rows come in the order given and only requests fail. -/
def orderly (order : ℕ) (wire : Wire) : ℕ → Choice := fun _ =>
  ⟨none, order, wire, "", ⟨List.replicate 12 0, rfl⟩⟩

def Served (wire : Wire) : Prop :=
  (∀ reason, wire ≠ .unreachable reason) ∧ setting.sidecar.checkSecret setting.header = .ok ()

end Statements

/-! ## The turns -/

section Turns

variable {setting : Setting} {w : World} {choices : ℕ → Choice} {phone : String}

theorem getStatus_result : (turn setting w .getStatus choices).1.result =
    (setting.receive (.ok (statusOf w.sidecar)) (choices 0).wire).map fun status =>
      .status status.connected (if status.connected then status.phone else none) := by
  simp only [turn, program, TelegramService.getStatus, Program.bind_def, Program.await,
    Program.bind, Program.run, journaled, exec]
  generalize setting.receive (.ok (statusOf w.sidecar)) (choices 0).wire = received
  cases received <;> rfl

theorem reports_iff : Reports setting w phone ↔ w.sidecar.handleHealth = (some phone, true) := by
  unfold Reports
  simp only [getStatus_result]
  constructor
  · rintro ⟨choices, hresult⟩
    cases hwire : (choices 0).wire with
    | answered outcomes =>
        rw [hwire] at hresult
        simp only [Setting.receive, Except.mapError, Except.map, Except.ok.injEq,
          Reply.status.injEq, statusOf] at hresult
        obtain ⟨hconnected, hphone⟩ := hresult
        rw [if_pos hconnected] at hphone
        exact Prod.ext hphone hconnected
    | lost outcomes reason => simp [hwire, Setting.receive, Except.map] at hresult
    | unreachable reason => simp [hwire, Setting.receive, Except.map] at hresult
  · intro hhealth
    refine ⟨fun _ => ⟨none, 0, .answered [], "", ⟨List.replicate 12 0, rfl⟩⟩, ?_⟩
    simp [Setting.receive, Except.mapError, Except.map, statusOf, hhealth]

theorem logout_turn (setting : Setting) (choices : ℕ → Choice) {a : TelegramAccount}
    (hfault : (choices 0).fault = none)
    (hhead : (Table.arranged (choices 0).order w.accounts.connected).head? = some a) :
    (turn setting w .logout choices).2.sidecar =
        (setting.send w.sidecar (.disconnect a.phone) (choices 1).wire).2 ∧
      ((choices 2).fault = none →
        (turn setting w .logout choices).1.result = .ok (.disconnected a.phone)) := by
  have hmem : w.accounts.rows.any (fun b => b.id = a.id) = true := by
    refine List.any_eq_true.mpr ⟨a, ?_, by simp⟩
    exact (AccountTable.mem_connected.mp (Table.head?_arranged hhead)).1
  cases hrows : Table.arranged (choices 0).order w.accounts.connected with
  | nil => simp [hrows] at hhead
  | cons b rest =>
      obtain rfl : b = a := by simpa [hrows] using hhead
      simp only [turn, program, TelegramService.logout, Program.bind_def, Program.await,
        Program.bind, Program.run, journaled, exec, Choice.query, hfault, hrows,
        Program.ofExcept_ok, List.head?_cons, TelegramClientManager.disconnect,
        Program.tryCatch_def, Program.pure_def, Program.handle]
      generalize setting.send w.sidecar (.disconnect b.phone) (choices 1).wire = sent
      obtain ⟨answer, sidecar⟩ := sent
      have hignored : (((Program.ofExcept answer).bind fun _ => Program.ret ()).handle fun _ =>
          Program.ret () : Api Unit) = Program.ret () := by
        cases answer <;> rfl
      simp only [hignored, Program.bind, Program.run, journaled, exec, Choice.query, hmem, if_true]
      constructor
      · cases (choices 2).fault <;> rfl
      · intro hupdate
        simp only [hupdate]
        rfl

theorem exists_of_logout
    (hresult : (turn setting w .logout choices).1.result = .ok (.disconnected phone)) :
    (choices 0).fault = none ∧
      ∃ a, (Table.arranged (choices 0).order w.accounts.connected).head? = some a := by
  simp only [turn, program, TelegramService.logout, Program.bind_def, Program.await, Program.bind,
    Program.run, journaled, exec, Choice.query] at hresult
  cases hfault : (choices 0).fault with
  | some error =>
      rw [hfault] at hresult
      exact absurd hresult (by simp [Program.bind, Program.run])
  | none =>
      refine ⟨rfl, ?_⟩
      cases hrows : Table.arranged (choices 0).order w.accounts.connected with
      | cons a rest => exact ⟨a, rfl⟩
      | nil =>
          rw [hfault, hrows] at hresult
          exact absurd hresult (by simp [Program.bind, Program.run])

theorem reconnect_nothing (h : (choices 0).fault.isSome ∨ w.accounts.connected = []) :
    (turn setting w .reconnect choices).1.connects = [] := by
  simp only [Turn.connects, turn, program, TelegramService.reconnect, Program.bind_def,
    Program.await, Program.bind, Program.run, journaled, exec, Choice.query]
  cases hfault : (choices 0).fault with
  | some error => rfl
  | none =>
      have hnil := h.resolve_left (by simp [hfault])
      have hrows : Table.arranged (choices 0).order w.accounts.connected = [] :=
        List.Perm.eq_nil (hnil ▸ Table.arranged_perm _ _)
      simp only [hrows]
      rfl

theorem reconnect_first {a : TelegramAccount} {session : String} (hfault : (choices 0).fault = none)
    (hhead : (Table.arranged (choices 0).order w.accounts.connected).head? = some a)
    (hdecrypt : setting.encryption.decrypt a.session = .ok session) :
    (turn setting w .reconnect choices).1.connects = [(a.phone, session)] := by
  cases hrows : Table.arranged (choices 0).order w.accounts.connected with
  | nil => simp [hrows] at hhead
  | cons b rest =>
      obtain rfl : b = a := by simpa [hrows] using hhead
      simp only [Turn.connects, turn, program, TelegramService.reconnect, Program.bind_def,
        Program.await, Program.bind, Program.run, journaled, exec, Choice.query, hfault, hrows,
        Program.ofExcept_ok, List.head?_cons, decrypt, hdecrypt,
        TelegramClientManager.connectWithSession, Program.tryCatch_def, Program.pure_def,
        Program.handle]
      generalize setting.send w.sidecar (.connect b.phone session) (choices 1).wire = sent
      obtain ⟨answer, sidecar⟩ := sent
      cases answer <;> rfl

end Turns

/-! ## The account that was persisted last -/

theorem exists_of_latest? {t : AccountTable} {turns : List Turn} {phone : String}
    (h : latest? t turns = some phone) : ∃ a ∈ t.connected, a.phone = phone := by
  induction turns with
  | nil => simp [latest?] at h
  | cons turn turns ih =>
      unfold latest? at h
      split at h
      · split_ifs at h with hany
        · obtain rfl := Option.some_inj.mp h
          obtain ⟨a, ha, hphone⟩ := List.any_eq_true.mp hany
          exact ⟨a, ha, of_decide_eq_true hphone⟩
        · exact ih h
      · exact ih h

theorem latest?_isSome {t : AccountTable} {turns : List Turn}
    {a : TelegramAccount} {session : String}
    (ha : a ∈ t.connected) (h : stored? a.phone turns = some session) :
    ∃ phone, latest? t turns = some phone := by
  induction turns with
  | nil => simp [stored?] at h
  | cons turn turns ih =>
      unfold latest?
      split
      · rename_i phone session' hchange
        split_ifs with hany
        · exact ⟨phone, rfl⟩
        · have hne : phone ≠ a.phone := by
            rintro rfl
            exact hany (List.any_eq_true.mpr ⟨a, ha, by simp⟩)
          rw [stored?_persisted hchange, if_neg hne] at h
          exact ih h
      · rename_i hchange
        cases hnext : turn.change? with
        | none => exact ih (stored?_kept hnext ▸ h)
        | some change =>
            cases change with
            | persisted phone session' => exact absurd hnext (hchange phone session')
            | cleared phone =>
                rw [stored?_cleared hnext] at h
                split_ifs at h
                exact ih h

section Reachable

variable {setting : Setting} {s : State}

theorem AccountTable.Keyed.nodup {t : AccountTable} (h : t.Keyed) : t.connected.Nodup :=
  (List.Nodup.of_map _ h.drawn.nodup).filter _

theorem decrypt_connected (hgcm : setting.encryption.gcm.Lawful) (hsound : Sound setting s)
    {a : TelegramAccount} (ha : a ∈ s.world.accounts.connected) :
    ∃ session, setting.encryption.decrypt a.session = .ok session ∧
      stored? a.phone s.turns = some session := by
  obtain ⟨iv, session, hencrypt, hstored⟩ := hsound.faithful a ha
  exact ⟨session, setting.encryption.decrypt_encrypt hgcm hencrypt, hstored⟩

theorem reconnectsLatest_iff (hgcm : setting.encryption.gcm.Lawful) (hsound : Sound setting s) :
    ReconnectsLatest setting s ↔ s.world.accounts.connected.length ≤ 1 := by
  have hfirst : ∀ (choices : ℕ → Choice) {a : TelegramAccount}, (choices 0).fault = none →
      (Table.arranged (choices 0).order s.world.accounts.connected).head? = some a →
      (turn setting s.world .reconnect choices).1.connects.map Prod.fst = [a.phone] := by
    intro choices a hfault hhead
    obtain ⟨session, hdecrypt, -⟩ := decrypt_connected hgcm hsound (Table.head?_arranged hhead)
    rw [reconnect_first hfault hhead hdecrypt]
    rfl
  constructor
  · intro hlatest
    have hsame : ∀ a ∈ s.world.accounts.connected,
        [a.phone] = (latest? s.world.accounts s.turns).toList := by
      intro a ha
      obtain ⟨n, hn⟩ := Table.exists_arranged_head ha
      rw [← hfirst (orderly n (.unreachable "")) rfl hn, hlatest (orderly n (.unreachable ""))]
      rfl
    cases hrows : s.world.accounts.connected with
    | nil => exact Nat.zero_le 1
    | cons a rest =>
        cases rest with
        | nil => exact le_rfl
        | cons b rest =>
            have ha : a ∈ s.world.accounts.connected := by simp [hrows]
            have hb : b ∈ s.world.accounts.connected := by simp [hrows]
            have hphone : a.phone = b.phone := by
              simpa using (hsame a ha).trans (hsame b hb).symm
            have hnodup := hrows ▸ hsound.keyed.nodup
            have heq := hsound.keyed.unique a (AccountTable.mem_connected.mp ha).1 b
              (AccountTable.mem_connected.mp hb).1 hphone
            simp [heq] at hnodup
  · intro hlength choices
    cases hfault : (choices 0).fault with
    | some error =>
        have hnothing : (turn setting s.world .reconnect choices).1.connects = [] :=
          reconnect_nothing (Or.inl (by simp [hfault]))
        simp [hnothing]
    | none =>
        cases hlatest : latest? s.world.accounts s.turns with
        | none =>
            have hrows : s.world.accounts.connected = [] := by
              refine List.eq_nil_iff_forall_not_mem.mpr fun a ha => ?_
              obtain ⟨session, -, hstored⟩ := decrypt_connected hgcm hsound ha
              obtain ⟨phone, hphone⟩ := latest?_isSome ha hstored
              exact absurd (hlatest.symm.trans hphone) (by simp)
            simp [reconnect_nothing (Or.inr hrows)]
        | some phone =>
            obtain ⟨a, ha, rfl⟩ := exists_of_latest? hlatest
            have hrows : s.world.accounts.connected = [a] := by
              obtain ⟨b, hb⟩ := List.length_eq_one_iff.mp
                  (le_antisymm hlength (List.length_pos_of_mem ha))
              have hmem := ha
              rw [hb] at hmem
              rw [hb, List.mem_singleton.mp hmem]
            have harranged := List.perm_singleton.mp (Table.arranged_perm (choices 0).order [a])
            exact hfirst choices hfault (by rw [hrows, harranged, List.head?_cons])

/-! ## Logout -/

theorem send_disconnect {w : Sidecar.TelegramWorker} {wire : Wire} (hserved : Served setting wire)
    (phone : String) : (setting.send w (.disconnect phone) wire).2.clients =
      Function.update w.clients (Sidecar.strip phone) none := by
  cases wire with
  | answered outcomes => exact Sidecar.TelegramWorker.serve_disconnect_clients w hserved.2 outcomes
  | lost outcomes reason =>
      exact Sidecar.TelegramWorker.serve_disconnect_clients w hserved.2 outcomes
  | unreachable reason => exact absurd rfl (hserved.1 reason)

theorem send_unserved {w : Sidecar.TelegramWorker} {wire : Wire} (hserved : ¬ Served setting wire)
    (phone : String) : (setting.send w (.disconnect phone) wire).2 = w := by
  have hrefused : (∀ reason, wire ≠ .unreachable reason) → ∀ outcomes,
      (setting.serve w (.disconnect phone) outcomes).1 = w := by
    intro hwire outcomes
    cases hcheck : setting.sidecar.checkSecret setting.header with
    | ok _ => exact absurd ⟨hwire, hcheck⟩ hserved
    | error e =>
        simp [Setting.serve, Sidecar.TelegramWorker.serve, Sidecar.Config.check, hcheck]
  cases wire with
  | answered outcomes => exact hrefused (by simp) outcomes
  | lost outcomes reason => exact hrefused (by simp) outcomes
  | unreachable reason => rfl

theorem clients_of_reports {w : World} {phone : String} (h : Reports setting w phone) :
    w.sidecar.clients phone ≠ none := by
  intro hnone
  obtain ⟨hphone, hconnected⟩ := Prod.mk.inj (reports_iff.mp h)
  simp [hphone, hnone] at hconnected

theorem logoutDisconnects_iff
    (hnormalized : ∀ a ∈ s.world.accounts.rows, Sidecar.strip a.phone = a.phone)
    (wire : Wire) : LogoutDisconnects setting s wire ↔
      ∀ phone, Reports setting s.world phone → ∀ a ∈ s.world.accounts.connected,
        a.phone = phone ∧ Served setting wire := by
  constructor
  · intro hlogout phone hreports a ha
    obtain ⟨n, hn⟩ := Table.exists_arranged_head ha
    obtain ⟨hsidecar, hresult⟩ := logout_turn setting (orderly n wire) rfl hn
    obtain ⟨hclients, -⟩ := hlogout (orderly n wire) phone a.phone rfl hreports (hresult rfl)
    rw [hsidecar] at hclients
    by_cases hserved : Served setting wire
    · refine ⟨?_, hserved⟩
      by_contra hne
      change (setting.send s.world.sidecar (.disconnect a.phone) wire).2.clients
        phone = none at hclients
      rw [send_disconnect hserved, hnormalized a (AccountTable.mem_connected.mp ha).1,
        Function.update_of_ne (Ne.symm hne)] at hclients
      exact clients_of_reports hreports hclients
    · change (setting.send s.world.sidecar (.disconnect a.phone) wire).2.clients
        phone = none at hclients
      rw [send_unserved hserved] at hclients
      exact absurd hclients (clients_of_reports hreports)
  · rintro hcondition choices phone phone' rfl hreports hresult
    obtain ⟨hfault, a, hhead⟩ := exists_of_logout hresult
    have ha := Table.head?_arranged hhead
    obtain ⟨rfl, hserved⟩ := hcondition phone hreports a ha
    obtain ⟨hsidecar, -⟩ := logout_turn setting choices hfault hhead
    have hclients : (turn setting s.world .logout choices).2.sidecar.clients a.phone = none := by
      rw [hsidecar, send_disconnect hserved, hnormalized a (AccountTable.mem_connected.mp ha).1,
        Function.update_self]
    exact ⟨hclients, fun hreports' => clients_of_reports hreports' hclients⟩

end Reachable

/-! ## Phones -/

theorem strip_of_clean {phone : String} (h : ∀ c ∈ phone.toList, Sidecar.isSpace c = false) :
    Sidecar.strip phone = phone := by
  have hdrop : ∀ l : List Char, (∀ c ∈ l, Sidecar.isSpace c = false) →
      l.dropWhile Sidecar.isSpace = l := by
    intro l hl
    cases l with
    | nil => rfl
    | cons c l => simp [hl c List.mem_cons_self]
  rw [Sidecar.strip, hdrop _ h, hdrop _ fun c hc => h c (List.mem_reverse.mp hc),
    List.reverse_reverse, String.ofList_toList]

theorem strip_normalizePhone (phone : String) :
    Sidecar.strip (normalizePhone phone) = normalizePhone phone := by
  apply strip_of_clean
  intro c hc
  rw [normalizePhone, String.toList_ofList] at hc
  have hchar := (List.mem_filter.mp hc).2
  simp only [Bool.or_eq_true, decide_eq_true_iff] at hchar
  rcases hchar with hdigit | rfl
  · have hrange : 48 ≤ c.toNat ∧ c.toNat ≤ 57 := by
      simp only [Char.isDigit, Bool.and_eq_true, decide_eq_true_eq, UInt32.le_iff_toNat_le,
        ge_iff_le] at hdigit
      exact hdigit
    unfold Sidecar.isSpace
    generalize c.toNat = n at hrange
    obtain ⟨hlow, hhigh⟩ := hrange
    interval_cases n <;> rfl
  · decide

/-- The sidecar knows the phones of the table by the same name. -/
theorem normalized_of_run {setting : Setting} {s : State} (hrun : Run setting s) :
    ∀ a ∈ s.world.accounts.rows, Sidecar.strip a.phone = a.phone := by
  refine hrun.invariant (fun s => ∀ a ∈ s.world.accounts.rows, Sidecar.strip a.phone = a.phone)
    ?_ ?_
  · exact fun a ha => absurd ha (by simp [initial])
  · intro s e _ hold _
    cases e with
    | sidecarRestart => exact hold
    | operation operation choices =>
        obtain ⟨happlies, -⟩ := turn_ends setting s.world operation choices
        change ∀ a ∈ (turn setting s.world operation choices).2.accounts.rows, _
        generalize (turn setting s.world operation choices).1.change? = change at happlies
        generalize (turn setting s.world operation choices).2.accounts = t at happlies
        have hupdate : ∀ id session connected,
            ∀ a ∈ (s.world.accounts.update id session connected).rows,
              Sidecar.strip a.phone = a.phone := by
          intro id session connected a ha
          obtain ⟨a', ha', rfl⟩ := List.mem_map.mp ha
          split_ifs <;> exact hold a' ha'
        cases happlies with
        | kept => exact hold
        | updated a iv session encrypted ha hencrypt => exact hupdate _ _ _
        | cleared a ha => exact hupdate _ _ _
        | created dtoPhone iv session encrypted hnew hencrypt =>
            intro a ha
            rcases List.mem_append.mp ha with ha | ha
            · exact hold a ha
            · obtain rfl := List.mem_singleton.mp ha
              exact strip_normalizePhone dtoPhone

/-- `reconnect` takes the account that was persisted last exactly if no more
than one is connected, and `logout` disconnects the phone that is reported
exactly if it is that of every connected account and the request is served. -/
theorem accounts_agree_iff {setting : Setting} (hgcm : setting.encryption.gcm.Lawful) {s : State}
    (hrun : Run setting s) :
    (ReconnectsLatest setting s ↔ s.world.accounts.connected.length ≤ 1) ∧
      ∀ wire, LogoutDisconnects setting s wire ↔
        ∀ phone, Reports setting s.world phone → ∀ a ∈ s.world.accounts.connected,
          a.phone = phone ∧ Served setting wire :=
  ⟨reconnectsLatest_iff hgcm (sound_of_run hrun), logoutDisconnects_iff (normalized_of_run hrun)⟩

theorem accounts_agree_loggedIn :
    ReconnectsLatest sampleSetting loggedIn ∧
    LogoutDisconnects sampleSetting loggedIn (.answered []) := by
  have hrows : loggedIn.world.accounts.connected.map TelegramAccount.phone = ["+86138"] := by
    decide +kernel
  have hhealth : loggedIn.world.sidecar.handleHealth = (some "+86138", true) := by decide +kernel
  obtain ⟨hreconnect, hlogout⟩ :=
    @accounts_agree_iff sampleSetting sampleGcm_lawful loggedIn loggedIn_run
  constructor
  · refine hreconnect.mpr ?_
    rw [← List.length_map TelegramAccount.phone, hrows]
    exact le_rfl
  · refine (hlogout (.answered [])).mpr fun phone hreports a ha => ⟨?_, by simp, by decide +kernel⟩
    have hphone := List.mem_map_of_mem (f := TelegramAccount.phone) ha
    rw [hrows, List.mem_singleton] at hphone
    have hreported := (reports_iff.mp hreports).symm.trans hhealth
    rw [hphone, Option.some_inj.mp (Prod.mk.inj hreported).1]

def twoAccounts : State :=
  (login "+86138" "session" ++ login "+86139" "session").foldl (step sampleSetting) initial

theorem accounts_disagree :
    Run sampleSetting twoAccounts ∧ ¬ ReconnectsLatest sampleSetting twoAccounts ∧
    ¬ LogoutDisconnects sampleSetting twoAccounts (.answered []) := by
  refine ⟨Machine.Run.refl.list (by simp [login, Machine.AllowedList]),
    fun hlatest => ?_, fun hlogout => ?_⟩
  · have hconnects := hlatest (orderly 0 (.answered []))
    revert hconnects
    decide +kernel
  · have hreports : Reports sampleSetting twoAccounts.world "+86139" :=
      reports_iff.mpr (by decide +kernel)
    have hclients := (hlogout (orderly 0 (.answered [])) "+86139" "+86138" rfl hreports
        (by decide +kernel)).1
    revert hclients
    decide +kernel

end SocialMonitor.Accounts

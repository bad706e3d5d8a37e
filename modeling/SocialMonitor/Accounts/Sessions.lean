import SocialMonitor.Accounts.Turns

/-!
# Restored sessions

What the turns so far say about the session of a phone, and the rows of the
table that agree with it.
-/

namespace SocialMonitor.Accounts

open Crypto TelegramAuthService

/-- The session of the last login of the phone, unless a logout has cleared it
since.  The turns are given newest first. -/
def stored? (phone : String) : List Turn → Option String
  | [] => none
  | turn :: turns =>
      match turn.change? with
      | some (.persisted phone' session) =>
          if phone' = phone then some session else stored? phone turns
      | some (.cleared phone') => if phone' = phone then none else stored? phone turns
      | none => stored? phone turns

/-- One row for each phone. -/
structure AccountTable.Keyed (t : AccountTable) : Prop where
  drawn : Table.Drawn (t.rows.map TelegramAccount.id) t.nextId
  unique : Table.Unique TelegramAccount.phone t.rows

/-- A connected row holds the session that the turns say is stored. -/
def Faithful (setting : Setting) (s : State) : Prop :=
  ∀ a ∈ s.world.accounts.connected, ∃ iv session,
    setting.encryption.encrypt iv session = .ok a.session ∧ stored? a.phone s.turns = some session

namespace AccountTable

variable {t : AccountTable}

theorem mem_connected {a : TelegramAccount} : a ∈ t.connected ↔ a ∈ t.rows ∧ a.connected = true :=
  List.mem_filter

theorem Keyed.eq_of_id (h : t.Keyed) {a b : TelegramAccount} (ha : a ∈ t.rows) (hb : b ∈ t.rows)
    (hid : a.id = b.id) : a = b := List.inj_on_of_nodup_map h.drawn.nodup ha hb hid

theorem Keyed.mem_update (h : t.Keyed) {a b : TelegramAccount} (ha : a ∈ t.rows) {session : String}
    {connected : Bool} (hb : b ∈ (t.update a.id session connected).rows) :
    b = { a with session := session, connected := connected } ∨ b ∈ t.rows ∧ b.phone ≠ a.phone := by
  obtain ⟨b', hb', rfl⟩ := List.mem_map.mp hb
  split_ifs with hid
  · exact Or.inl (by rw [h.eq_of_id hb' ha hid])
  · exact Or.inr ⟨hb', fun hphone => hid (by rw [h.unique b' hb' a ha hphone])⟩

theorem Keyed.update (h : t.Keyed) (id : Id) (session : String) (connected : Bool) :
    (t.update id session connected).Keyed where
  drawn := by
    have hids : (t.update id session connected).rows.map TelegramAccount.id =
        t.rows.map TelegramAccount.id := by
      simp only [AccountTable.update, List.map_map]
      refine List.map_congr_left fun a _ => ?_
      simp only [Function.comp_apply]
      split_ifs <;> rfl
    rw [hids]
    exact h.drawn
  unique := h.unique.map fun a => by split_ifs <;> rfl

theorem Keyed.create (h : t.Keyed) {phone : String} (hnew : ∀ a ∈ t.rows, a.phone ≠ phone)
    (session : String) (connected : Bool) : (t.create phone session connected).Keyed where
  drawn := by
    simpa [AccountTable.create] using h.drawn.snoc
  unique := h.unique.snoc hnew

end AccountTable

theorem Applies.keyed {setting : Setting} {t t' : AccountTable} {change : Option Change}
    (h : Applies setting t change t') (ht : t.Keyed) : t'.Keyed := by
  cases h with
  | kept => exact ht
  | updated a iv session encrypted ha hencrypt => exact ht.update _ _ _
  | created dtoPhone iv session encrypted hnew hencrypt => exact ht.create hnew _ _
  | cleared a ha => exact ht.update _ _ _

section Faithful

variable {setting : Setting} {turn : Turn} {turns : List Turn} {phone phone' session : String}

theorem stored?_kept (h : turn.change? = none) :
    stored? phone (turn :: turns) = stored? phone turns := by
  simp [stored?, h]

theorem stored?_persisted (h : turn.change? = some (.persisted phone' session)) :
    stored? phone (turn :: turns) =
      if phone' = phone then some session else stored? phone turns := by
  simp [stored?, h]

theorem stored?_cleared (h : turn.change? = some (.cleared phone')) :
    stored? phone (turn :: turns) = if phone' = phone then none else stored? phone turns := by
  simp [stored?, h]

theorem Applies.faithful {w w' : World} (h : Applies setting w.accounts turn.change? w'.accounts)
    (hkeyed : w.accounts.Keyed) (hfaithful : Faithful setting ⟨w, turns⟩) :
    Faithful setting ⟨w', turn :: turns⟩ := by
  intro b hb
  obtain ⟨hb, hconnected⟩ := AccountTable.mem_connected.mp hb
  have hold : b ∈ w.accounts.rows → ∃ iv session,
      setting.encryption.encrypt iv session = .ok b.session ∧
        stored? b.phone turns = some session :=
    fun hmem => hfaithful b (AccountTable.mem_connected.mpr ⟨hmem, hconnected⟩)
  generalize hchange : turn.change? = change at h
  generalize w'.accounts = t' at h hb
  cases h with
  | kept =>
      rw [stored?_kept hchange]
      exact hold hb
  | updated a iv session encrypted ha hencrypt =>
      rw [stored?_persisted hchange]
      rcases hkeyed.mem_update ha hb with rfl | ⟨hb, hne⟩
      · exact ⟨iv, session, hencrypt, if_pos rfl⟩
      · rw [if_neg (Ne.symm hne)]
        exact hold hb
  | created dtoPhone iv session encrypted hnew hencrypt =>
      rw [stored?_persisted hchange]
      rcases List.mem_append.mp hb with hb | hb
      · rw [if_neg (Ne.symm (hnew b hb))]
        exact hold hb
      · obtain rfl := List.mem_singleton.mp hb
        exact ⟨iv, session, hencrypt, if_pos rfl⟩
  | cleared a ha =>
      rw [stored?_cleared hchange]
      rcases hkeyed.mem_update (AccountTable.mem_connected.mp ha).1 hb with rfl | ⟨hb, hne⟩
      · exact absurd hconnected (by simp)
      · rw [if_neg (Ne.symm hne)]
        exact hold hb

end Faithful

/-! ## Every run -/

structure Sound (setting : Setting) (s : State) : Prop where
  keyed : s.world.accounts.Keyed
  faithful : Faithful setting s

theorem sound_of_run {setting : Setting} {s : State} (hrun : Run setting s) : Sound setting s := by
  refine hrun.invariant (Sound setting) ?_ ?_
  · refine ⟨⟨⟨List.nodup_nil, by simp [initial]⟩, fun a ha => absurd ha (by simp [initial])⟩, ?_⟩
    exact fun a ha => absurd ha (by simp [initial, AccountTable.connected])
  · intro s e _ hsound _
    cases e with
    | sidecarRestart => exact ⟨hsound.keyed, hsound.faithful⟩
    | operation operation choices =>
        obtain ⟨happlies, -⟩ := turn_ends setting s.world operation choices
        exact ⟨happlies.keyed hsound.keyed, happlies.faithful hsound.keyed hsound.faithful⟩

theorem Stored.stored? {setting : Setting} (hgcm : setting.encryption.gcm.Lawful) {s : State}
    (hsound : Sound setting s) {phone session : String}
    (h : Stored setting s.world.accounts phone session) :
    Accounts.stored? phone s.turns = some session := by
  obtain ⟨a, ha, rfl, hdecrypt⟩ := h
  obtain ⟨iv, session', hencrypt, hstored⟩ := hsound.faithful a ha
  have hsame := hdecrypt.symm.trans (setting.encryption.decrypt_encrypt hgcm hencrypt)
  rw [hstored, Except.ok.inj hsame]

/-- Every `connectWithSession` of a run carries the session of the last login
of its phone, and none follows a logout that cleared it. -/
theorem connects_stored {setting : Setting} (hgcm : setting.encryption.gcm.Lawful) {s : State}
    (hrun : Run setting s) (newer : List Turn) (turn : Turn) (older : List Turn)
    (hturns : s.turns = newer ++ turn :: older) :
    ∀ c ∈ turn.connects, stored? c.1 older = some c.2 := by
  suffices h : ∀ newer turn older, s.turns = newer ++ turn :: older →
      ∀ c ∈ turn.connects, stored? c.1 older = some c.2 from h newer turn older hturns
  refine hrun.invariant (fun s => ∀ newer turn older, s.turns = newer ++ turn :: older →
    ∀ c ∈ turn.connects, stored? c.1 older = some c.2) ?_ ?_
  · intro newer turn older hnil
    exact absurd hnil (by simp [initial])
  · intro s e hrun ih _ newer turn older hturns
    cases e with
    | sidecarRestart => exact ih newer turn older hturns
    | operation operation choices =>
        cases newer with
        | cons first newer =>
            obtain ⟨-, hrest⟩ := List.cons.inj hturns
            exact ih newer turn older hrest
        | nil =>
            obtain ⟨rfl, rfl⟩ := List.cons.inj hturns
            intro c hc
            exact ((turn_ends setting s.world operation choices).2 c hc).stored?
              hgcm (sound_of_run hrun)

/-! ## A login that is restored -/

/-- A stream cipher whose stream is one byte of the key. -/
def sampleGcm : Gcm where
  encipher key _ plaintext := plaintext.map (· + key.headD 0)
  decipher key _ ciphertext := ciphertext.map (· - key.headD 0)
  tag _ _ _ := List.replicate 16 7

theorem sampleGcm_lawful : sampleGcm.Lawful where
  decipher_encipher key iv plaintext _ := by simp [sampleGcm, Function.comp_def]
  tag_length _ _ _ _ := List.length_replicate

def sampleSetting : Setting where
  encryption := ⟨sampleGcm, List.replicate 32 5⟩
  baseUrl := "http://localhost:9400"
  secret := "secret"
  sidecar := { Sidecar.Loop.sampleConfig with internalSecret := "secret" }

def sampleIv : Iv := ⟨List.replicate 12 9, rfl⟩

def smooth (session : String) : ℕ → Choice := fun _ =>
  ⟨none, 0, .answered [.done, .done, .sent "hash" true], session, sampleIv⟩

def login (phone session : String) : List Event :=
  [.operation (.startLogin phone) (smooth session),
    .operation (.submitCode phone "12345") (smooth session)]

def loggedIn : State := (login "+86 138" "session").foldl (step sampleSetting) initial

theorem loggedIn_run : Run sampleSetting loggedIn :=
  Machine.Run.refl.list (by simp [login, Machine.AllowedList])

theorem connects_stored_reconnect :
    (turn sampleSetting loggedIn.world .reconnect (smooth "")).1.connects =
    [("+86138", "session")] ∧
      ∀ c ∈ (turn sampleSetting loggedIn.world .reconnect (smooth "")).1.connects,
        stored? c.1 loggedIn.turns = some c.2 := by
  constructor
  · decide +kernel
  · have hrun : Run sampleSetting
        (step sampleSetting loggedIn (.operation .reconnect (smooth ""))) :=
      loggedIn_run.step trivial
    exact connects_stored sampleGcm_lawful hrun [] _ _ rfl

end SocialMonitor.Accounts

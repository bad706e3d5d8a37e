import Mathlib.Tactic
import SocialMonitor.Sidecar.Worker

/-!
# Clients that nobody holds

A client that is connected is either registered under its phone or about to be
disconnected, as long as the handlers of one phone leave each other alone.
-/

namespace SocialMonitor.Sidecar

namespace Await

/-- The phone whose entry of `clients` a task goes on to write, and the client
that it takes to be there. -/
def holds? : Await → Option (String × ℕ)
  | previousDisconnect _ phone previous => some (phone, previous)
  | connect _ phone client => some (phone, client)
  | failedDisconnect phone client => some (phone, client)
  | sendCode phone client => some (phone, client)
  | _ => none

def phone? (b : Await) : Option String := b.holds?.map Prod.fst

def connects? : Await → Option String
  | connect _ phone _ => some phone
  | _ => none

def reads? : Await → Option Request
  | json request => some request
  | _ => none

def disconnects? : Await → Option ℕ
  | previousDisconnect _ _ previous => some previous
  | failedDisconnect _ client => some client
  | unsentDisconnect client _ => some client
  | disconnect _ client => some client
  | _ => none

/-- The client of the handler whose failure an outcome cleans up after. -/
def cleans? : Await → Outcome → Option ℕ
  | failedDisconnect _ client, _ => some client
  | sendCode _ client, .failed _ => some client
  | _, _ => none

end Await

def Outcome.isFailed : Outcome → Bool
  | failed _ => true
  | _ => false

namespace TelegramWorker

variable (w : TelegramWorker)

def phoneOf (c : ℕ) : Option String := w.created[c]?.map (·.phone)

/-- The client was connected and not disconnected since. -/
def Connected (c : ℕ) : Prop := ∃ client ∈ w.created[c]?, client.connected = true

instance (c : ℕ) : Decidable (w.Connected c) := by
  unfold Connected
  infer_instance

def Registered (c : ℕ) : Prop := ∃ phone, w.phoneOf c = some phone ∧ w.clients phone = some c

/-- Every connected client is registered under its own phone. -/
def NoLeak : Prop :=
  ∀ c, ∀ client ∈ w.created[c]?, client.connected = true → w.clients client.phone = some c

/-- While the client of a task connects it is registered, and later no other is. -/
def Holds (b : Await) (phone : String) (c : ℕ) : Prop :=
  (∀ x, w.clients phone = some x → x = c) ∧
    ∀ handler, b = .connect handler phone c → w.clients phone = some c

variable {w}

theorem NoLeak.unique (h : w.NoLeak) {c d : ℕ} {client client' : TelegramClient}
    (hc : w.created[c]? = some client) (hd : w.created[d]? = some client')
    (hconnected : client.connected = true) (hconnected' : client'.connected = true)
    (hphone : client.phone = client'.phone) : c = d := by
  have hleft := h c client hc hconnected
  rw [hphone, h d client' hd hconnected'] at hleft
  exact (Option.some_inj.mp hleft).symm

theorem noLeak_iff : w.NoLeak ↔ ∀ c, w.Connected c → w.Registered c := by
  constructor
  · rintro h c ⟨client, hc, hconnected⟩
    exact ⟨client.phone, by simp [phoneOf, Option.mem_def.mp hc], h c client hc hconnected⟩
  · intro h c client hc hconnected
    obtain ⟨phone, hphone, hclients⟩ := h c ⟨client, hc, hconnected⟩
    obtain rfl : client.phone = phone := by simpa [phoneOf, Option.mem_def.mp hc] using hphone
    exact hclients

/-! ## What the operations change -/

theorem phoneOf_setClient {f : TelegramClient → TelegramClient} (hf : ∀ c, (f c).phone = c.phone)
    (k c : ℕ) : (w.setClient k f).phoneOf c = w.phoneOf c := by
  simp only [phoneOf, setClient, List.getElem?_modify]
  cases w.created[c]? with
  | none => rfl
  | some client => split_ifs <;> simp [hf]

theorem connected_setClient {f : TelegramClient → TelegramClient} {k c : ℕ}
    (h : (w.setClient k f).Connected c) : (c ≠ k ∧ w.Connected c) ∨
      c = k ∧ ∃ client ∈ w.created[c]?, (f client).connected = true := by
  obtain ⟨client, hclient, hconnected⟩ := h
  simp only [setClient, List.getElem?_modify] at hclient
  rcases eq_or_ne c k with rfl | hne
  · right
    obtain ⟨client', hclient', rfl⟩ := Option.map_eq_some_iff.mp hclient
    exact ⟨rfl, client', hclient', by simpa using hconnected⟩
  · left
    refine ⟨hne, client, ?_, hconnected⟩
    simpa [Ne.symm hne] using hclient

theorem phoneOf_register {handler : Handler} {phone p : String} {c : ℕ} (h : w.phoneOf c = some p) :
    (w.register handler phone).1.phoneOf c = some p := by
  obtain ⟨client, hclient, rfl⟩ := Option.map_eq_some_iff.mp h
  simp only [phoneOf, register, List.getElem?_append_left (List.getElem?_eq_some_iff.mp hclient).1,
    hclient, Option.map_some]

theorem phoneOf_register_self (handler : Handler) (phone : String) :
    (w.register handler phone).1.phoneOf w.created.length = some phone := by
  simp [phoneOf, register]

theorem connected_register {handler : Handler} {phone : String} {c : ℕ}
    (h : (w.register handler phone).1.Connected c) : w.Connected c := by
  obtain ⟨client, hclient, hconnected⟩ := h
  simp only [register, Option.mem_def, List.getElem?_append] at hclient
  split_ifs at hclient with hlt
  · exact ⟨client, hclient, hconnected⟩
  · obtain rfl := List.mem_singleton.mp (List.mem_of_getElem? hclient)
    simp at hconnected

/-- A client is disconnected, or that fails and nothing changes. -/
theorem disconnected_cases {client : ℕ} {outcome : Outcome} {w' : TelegramWorker}
    (h : w.disconnected client outcome = some w') :
    outcome = .done ∧ w' = w.setClient client (fun c => { c with connected := false }) ∨
      ∃ e, outcome = .failed e ∧ w' = w := by
  cases outcome with
  | done => exact Or.inl ⟨rfl, (Option.some_inj.mp h).symm⟩
  | failed e => exact Or.inr ⟨e, rfl, (Option.some_inj.mp h).symm⟩
  | _ => exact absurd h (by simp [disconnected])

theorem disconnected_clients {client : ℕ} {outcome : Outcome} {w' : TelegramWorker}
    (h : w.disconnected client outcome = some w') : w'.clients = w.clients := by
  rcases disconnected_cases h with ⟨-, rfl⟩ | ⟨e, -, rfl⟩ <;> rfl

theorem phoneOf_disconnected {client : ℕ} {outcome : Outcome} {w' : TelegramWorker}
    (h : w.disconnected client outcome = some w') (c : ℕ) : w'.phoneOf c = w.phoneOf c := by
  rcases disconnected_cases h with ⟨-, rfl⟩ | ⟨e, -, rfl⟩
  · exact phoneOf_setClient (f := fun c => { c with connected := false }) (fun _ => rfl) client c
  · rfl

/-- A client that is disconnected, or was not connected when that failed. -/
theorem disconnected_spec {client : ℕ} {outcome : Outcome} {w' : TelegramWorker}
    (h : w.disconnected client outcome = some w')
    (hfailed : ∀ e, outcome = .failed e → ¬ w.Connected client) :
    w'.clients = w.clients ∧ (∀ c, w'.phoneOf c = w.phoneOf c) ∧
      ∀ c, w'.Connected c → w.Connected c ∧ c ≠ client := by
  refine ⟨disconnected_clients h, phoneOf_disconnected h, fun c hc => ?_⟩
  rcases disconnected_cases h with ⟨-, rfl⟩ | ⟨e, he, rfl⟩
  · rcases connected_setClient hc with ⟨hne, hconnected⟩ | ⟨-, client', -, hfalse⟩
    · exact ⟨hconnected, hne⟩
    · exact absurd hfalse (by simp)
  · refine ⟨hc, ?_⟩
    rintro rfl
    exact hfailed e he hc

theorem handleDisconnect_of_none {phone : String} (h : w.clients (strip phone) = none) :
    w.handleDisconnect phone =
      (((w.popClient (strip phone)).popHash (strip phone)).forget (strip phone)) := by
  simp [handleDisconnect, h]

theorem handleDisconnect_of_some {phone : String} {client : ℕ}
    (h : w.clients (strip phone) = some client) :
    w.handleDisconnect phone = ((w.popClient (strip phone)).popHash (strip phone),
      .running (.disconnect (strip phone) client)) := by
  simp [handleDisconnect, h]

end TelegramWorker

namespace Loop

open TelegramWorker

structure Tidy (s : Loop) : Prop where
  phones : ∀ p c, s.worker.clients p = some c → s.worker.phoneOf c = some p
  own : ∀ (i : ℕ) b p c, s.tasks[i]? = some (.running b) → b.holds? = some (p, c) →
    s.worker.phoneOf c = some p ∧ s.worker.Holds b p c
  single : ∀ (i j : ℕ) a b p c d, s.tasks[i]? = some (.running a) →
    s.tasks[j]? = some (.running b) →
    a.holds? = some (p, c) → b.holds? = some (p, d) → i = j
  live : ∀ c, s.worker.Connected c → s.worker.Registered c ∨
    ∃ (i : ℕ) (b : Await), s.tasks[i]? = some (.running b) ∧ b.disconnects? = some c

def parts? : Request → Option String
  | .disconnect phone => some (strip phone)
  | _ => none

def makes? (config : Config) : Request → Option String
  | .loginStart phone => if strip phone = "" then none else some (strip phone)
  | .connect phone session =>
      if strip phone = "" then none
      else if config.validSession session then some (strip phone) else none
  | _ => none

/-- A client is made for a phone that no other task is at work on, and a phone
is disconnected while no client of it connects. -/
def Undisturbed (config : Config) (s : Loop) (request : Request) : Prop :=
  (∀ phone ∈ makes? config request, ∀ t ∈ s.tasks, ∀ b ∈ t.await?, b.phone? ≠ some phone) ∧
    ∀ phone ∈ parts? request, ∀ t ∈ s.tasks, ∀ b ∈ t.await?, b.connects? ≠ some phone

/-- Requests for one phone leave each other alone, and no connected client fails
to be disconnected. -/
def Orderly (config : Config) (s : Loop) : Event → Prop
  | .request _ _ => True
  | .resume i outcome => ∀ t ∈ s.tasks[i]?, ∀ await ∈ t.await?,
      (∀ request ∈ await.reads?, outcome = .done → Undisturbed config s request) ∧
        ∀ c ∈ await.disconnects?, outcome.isFailed = true → ¬ s.worker.Connected c

instance {config : Config} {s : Loop} {request : Request} :
    Decidable (Undisturbed config s request) := by
  unfold Undisturbed
  infer_instance

instance {config : Config} {s : Loop} {e : Event} : Decidable (Orderly config s e) :=
  match e with
  | .request _ _ => .isTrue trivial
  | .resume i outcome => inferInstanceAs (Decidable (∀ t ∈ s.tasks[i]?, ∀ await ∈ t.await?,
      (∀ request ∈ await.reads?, outcome = .done → Undisturbed config s request) ∧
        ∀ c ∈ await.disconnects?, outcome.isFailed = true → ¬ s.worker.Connected c))

namespace Tidy

variable {s : Loop} {i : ℕ} {await : Await} {w : TelegramWorker} {t : Task}

theorem initial : Tidy Loop.initial where
  phones := by simp [Loop.initial]
  own := by simp [Loop.initial]
  single := by simp [Loop.initial]
  live := by simp [Loop.initial, Connected]

/-- A connected client is registered, or disconnected by this task or another. -/
theorem live_of (h : Tidy s) (hi : s.tasks[i]? = some (.running await)) {c : ℕ}
    (hc : s.worker.Connected c) : s.worker.Registered c ∨ await.disconnects? = some c ∨
      ∃ (j : ℕ) (b : Await), j ≠ i ∧ s.tasks[j]? = some (.running b) ∧ b.disconnects? = some c := by
  rcases h.live c hc with hreg | ⟨j, b, hj, hb⟩
  · exact Or.inl hreg
  · rcases eq_or_ne j i with rfl | hne
    · obtain rfl : b = await := by simpa [hi] using hj.symm
      exact Or.inr (Or.inl hb)
    · exact Or.inr (Or.inr ⟨j, b, hne, hj, hb⟩)

/-- What a step of a task has to show: it changes the entry of one phone only,
and what it takes to be there, no other task does. -/
theorem advance (h : Tidy s) (hi : s.tasks[i]? = some (.running await)) (phone : String)
    (hphone : ∀ c p, s.worker.phoneOf c = some p → w.phoneOf c = some p)
    (hclients : ∀ q, q ≠ phone → w.clients q = s.worker.clients q)
    (hnew : ∀ c, w.clients phone = some c → w.phoneOf c = some phone)
    (hothers : ∀ (j : ℕ) b c, j ≠ i → s.tasks[j]? = some (.running b) → b.holds? = some (phone, c) →
      w.Holds b phone c)
    (htask : ∀ b p c, t = .running b → b.holds? = some (p, c) →
      p = phone ∧ w.phoneOf c = some phone ∧ w.Holds b phone c ∧
        ∀ (j : ℕ) b' d, j ≠ i → s.tasks[j]? = some (.running b') → b'.holds? ≠ some (phone, d))
    (hlive : ∀ c, w.Connected c → w.Registered c ∨ (∃ b, t = .running b ∧ b.disconnects? = some c) ∨
      ∃ (j : ℕ) (b : Await), j ≠ i ∧ s.tasks[j]? = some (.running b) ∧ b.disconnects? = some c) :
    Tidy (s.advance i (w, t)) := by
  have hlt : i < s.tasks.length := (List.getElem?_eq_some_iff.mp hi).1
  have hsame : (s.advance i (w, t)).tasks[i]? = some t := by simp [Loop.advance, hlt]
  have hother : ∀ j, j ≠ i → (s.advance i (w, t)).tasks[j]? = s.tasks[j]? := fun j hj =>
    List.getElem?_set_ne (Ne.symm hj)
  constructor
  · intro p c hc
    rcases eq_or_ne p phone with rfl | hne
    · exact hnew c hc
    · exact hphone c p (h.phones p c ((hclients p hne).symm.trans hc))
  · intro j b p c hj hb
    rcases eq_or_ne j i with rfl | hne
    · obtain rfl := Option.some_inj.mp (hsame.symm.trans hj)
      obtain ⟨rfl, hphone', hholds, -⟩ := htask b p c rfl hb
      exact ⟨hphone', hholds⟩
    · rw [hother j hne] at hj
      obtain ⟨hphone', hholds⟩ := h.own j b p c hj hb
      refine ⟨hphone c p hphone', ?_⟩
      rcases eq_or_ne p phone with rfl | hp
      · exact hothers j b c hne hj hb
      · have hp' : w.clients p = s.worker.clients p := hclients p hp
        unfold Holds
        change (∀ x, w.clients p = some x → x = c) ∧ ∀ handler, _ → w.clients p = some c
        rw [hp']
        exact hholds
  · intro j k a b p c d hj hk ha hb
    rcases eq_or_ne j i with rfl | hji <;> rcases eq_or_ne k j with rfl | hkj
    · rfl
    · obtain rfl := Option.some_inj.mp (hsame.symm.trans hj)
      rw [hother k hkj] at hk
      obtain ⟨rfl, -, -, hfree⟩ := htask a p c rfl ha
      exact absurd hb (hfree k b d hkj hk)
    · rfl
    · rcases eq_or_ne k i with rfl | hki
      · obtain rfl := Option.some_inj.mp (hsame.symm.trans hk)
        rw [hother j hji] at hj
        obtain ⟨rfl, -, -, hfree⟩ := htask b p d rfl hb
        exact absurd ha (hfree j a c hji hj)
      · rw [hother j hji] at hj
        rw [hother k hki] at hk
        exact h.single j k a b p c d hj hk ha hb
  · intro c hc
    rcases hlive c hc with hreg | ⟨b, rfl, hb⟩ | ⟨j, b, hne, hj, hb⟩
    · exact Or.inl hreg
    · exact Or.inr ⟨i, b, hsame, hb⟩
    · exact Or.inr ⟨j, b, (hother j hne).trans hj, hb⟩

theorem others_free (h : Tidy s) (hi : s.tasks[i]? = some (.running await)) {phone : String} {c : ℕ}
    (ha : await.holds? = some (phone, c)) (j : ℕ) (b : Await) (d : ℕ) (hne : j ≠ i)
    (hj : s.tasks[j]? = some (.running b)) : b.holds? ≠ some (phone, d) :=
  fun hb => hne (h.single j i b await phone d c hj hi hb ha)

theorem eq_of_clients (h : Tidy s) (hi : s.tasks[i]? = some (.running await))
    {phone : String} {c x : ℕ}
    (ha : await.holds? = some (phone, c)) (hx : s.worker.clients phone = some x) : x = c :=
  (h.own i await phone c hi ha).2.1 x hx

theorem keep (h : Tidy s) (hi : s.tasks[i]? = some (.running await))
    (hphone : ∀ c, w.phoneOf c = s.worker.phoneOf c) (hclients : w.clients = s.worker.clients)
    (htask : ∀ b, t = .running b → b.holds? = none)
    (hlive : ∀ c, w.Connected c → s.worker.Connected c ∧ await.disconnects? ≠ some c) :
    Tidy (s.advance i (w, t)) := by
  refine h.advance hi "" (fun c p hc => (hphone c).trans hc)
    (fun q _ => congrFun hclients q) ?_ ?_ ?_ ?_
  · intro c hc
    rw [hphone]
    exact h.phones "" c (hclients ▸ hc)
  · intro j b c _ hj hb
    have hholds := (h.own j b "" c hj hb).2
    unfold Holds
    rw [hclients]
    exact hholds
  · intro b p c hb hp
    rw [htask b hb] at hp
    exact absurd hp (by simp)
  · intro c hc
    obtain ⟨hconnected, hne⟩ := hlive c hc
    rcases h.live_of hi hconnected with ⟨p, hp, hreg⟩ | hself | hother
    · exact Or.inl ⟨p, (hphone c).trans hp, hclients ▸ hreg⟩
    · exact absurd hself hne
    · exact Or.inr (Or.inr hother)

/-- The step of a task that waited for a client of its phone to be disconnected:
every client that is still connected is registered under another phone, or is
for another task to disconnect. -/
theorem live_disconnected (h : Tidy s) (hi : s.tasks[i]? = some (.running await)) {phone : String}
    {client c : ℕ} (hholds : await.holds? = some (phone, client))
    (hdisconnects : await.disconnects? = some client) (hc : s.worker.Connected c)
    (hne : c ≠ client) :
    (∃ p, p ≠ phone ∧ s.worker.phoneOf c = some p ∧ s.worker.clients p = some c) ∨
      ∃ (j : ℕ) (b : Await), j ≠ i ∧ s.tasks[j]? = some (.running b) ∧ b.disconnects? = some c := by
  rcases h.live_of hi hc with ⟨p, hp, hreg⟩ | hself | hother
  · refine Or.inl ⟨p, ?_, hp, hreg⟩
    rintro rfl
    exact hne (h.eq_of_clients hi hholds hreg)
  · rw [hdisconnects] at hself
    exact absurd (Option.some_inj.mp hself).symm hne
  · exact Or.inr hother

/-- A new client takes the place that is free. -/
theorem registered (h : Tidy s) (hi : s.tasks[i]? = some (.running await)) (handler : Handler)
    (phone : String) (hphone : ∀ c, w.phoneOf c = s.worker.phoneOf c)
    (hclients : ∀ q, q ≠ phone → w.clients q = s.worker.clients q)
    (hfree : ∀ (j : ℕ) b d, j ≠ i → s.tasks[j]? = some (.running b) → b.holds? ≠ some (phone, d))
    (hlive : ∀ c, w.Connected c →
      (∃ p, p ≠ phone ∧ s.worker.phoneOf c = some p ∧ s.worker.clients p = some c) ∨
        ∃ (j : ℕ) (b : Await), j ≠ i ∧ s.tasks[j]? = some (.running b) ∧ b.disconnects? = some c) :
    Tidy (s.advance i (w.register handler phone)) := by
  have hself : (w.register handler phone).1.clients phone = some w.created.length :=
    Function.update_self ..
  have hother : ∀ q, q ≠ phone → (w.register handler phone).1.clients q = s.worker.clients q :=
    fun q hq => (Function.update_of_ne hq _ _).trans (hclients q hq)
  have hkeep : ∀ c p, s.worker.phoneOf c = some p →
      (w.register handler phone).1.phoneOf c = some p :=
    fun c p hc => phoneOf_register ((hphone c).trans hc)
  refine h.advance hi phone hkeep hother ?_ ?_ ?_ ?_
  · intro c hc
    obtain rfl := Option.some_inj.mp (hself.symm.trans hc)
    exact phoneOf_register_self handler phone
  · intro j b c hne hj hb
    exact absurd hb (hfree j b c hne hj)
  · intro b p c hb hp
    obtain rfl : b = .connect handler phone w.created.length := by
      simpa [register, eq_comm] using hb
    obtain ⟨rfl, rfl⟩ : phone = p ∧ w.created.length = c := by simpa [Await.holds?] using hp
    refine ⟨rfl, phoneOf_register_self handler phone, ⟨fun x hx => ?_, fun _ _ => hself⟩, hfree⟩
    exact (Option.some_inj.mp (hself.symm.trans hx)).symm
  · intro c hc
    rcases hlive c (connected_register hc) with ⟨p, hp, hphone', hreg⟩ | htask
    · exact Or.inl ⟨p, hkeep c p hphone', (hother p hp).trans hreg⟩
    · exact Or.inr (Or.inr htask)

/-! ## Steps -/

theorem replaced (h : Tidy s) (hi : s.tasks[i]? = some (.running await))
    (handler : Handler) (phone : String)
    (hfree : ∀ b d, .running b ∈ s.tasks → b.holds? ≠ some (phone, d))
    (hdisconnects : await.disconnects? = none) :
    Tidy (s.advance i (s.worker.replace handler phone)) := by
  have hothers : ∀ (j : ℕ) b d, j ≠ i → s.tasks[j]? = some (.running b) →
      b.holds? ≠ some (phone, d) :=
    fun j b d _ hj => hfree b d (List.mem_of_getElem? hj)
  unfold replace
  cases hclients : s.worker.clients phone with
  | none =>
      refine h.registered hi handler phone (fun _ => rfl) (fun _ _ => rfl) hothers fun c hc => ?_
      rcases h.live_of hi hc with ⟨p, hp, hreg⟩ | hself | hother
      · refine Or.inl ⟨p, ?_, hp, hreg⟩
        rintro rfl
        simp [hclients] at hreg
      · simp [hdisconnects] at hself
      · exact Or.inr hother
  | some previous =>
      refine h.advance hi phone (fun _ _ => id) (fun _ _ => rfl) (h.phones phone) ?_ ?_ ?_
      · intro j b c hne hj hb
        exact absurd hb (hothers j b c hne hj)
      · intro b p c hb hp
        obtain rfl : b = .previousDisconnect handler phone previous := by simpa [eq_comm] using hb
        obtain ⟨rfl, rfl⟩ : phone = p ∧ previous = c := by simpa [Await.holds?] using hp
        refine ⟨rfl, h.phones _ _ hclients, ⟨fun x hx => ?_, fun _ hconnect => by simp at hconnect⟩,
          hothers⟩
        exact Option.some_inj.mp (hx.symm.trans hclients)
      · intro c hc
        rcases h.live_of hi hc with hreg | hself | hother
        · exact Or.inl hreg
        · simp [hdisconnects] at hself
        · exact Or.inr (Or.inr hother)

theorem previousDisconnected (h : Tidy s) {handler : Handler} {phone : String} {previous : ℕ}
    (hi : s.tasks[i]? = some (.running (.previousDisconnect handler phone previous)))
    {outcome : Outcome} (hw : s.worker.disconnected previous outcome = some w)
    (hfailed : ∀ e, outcome = .failed e → ¬ s.worker.Connected previous) :
    Tidy (s.advance i ((w.popClient phone).register handler phone)) := by
  obtain ⟨hclients, hphone, hconnected⟩ := disconnected_spec hw hfailed
  refine h.registered hi handler phone hphone (fun q hq => ?_) (h.others_free hi rfl) fun c hc => ?_
  · rw [popClient, hclients]
    exact Function.update_of_ne hq _ _
  · obtain ⟨hc, hne⟩ := hconnected c hc
    exact h.live_disconnected hi rfl rfl hc hne

theorem failedDisconnected (h : Tidy s) {phone : String} {client : ℕ}
    (hi : s.tasks[i]? = some (.running (.failedDisconnect phone client)))
    {outcome : Outcome} (hw : s.worker.disconnected client outcome = some w)
    (hfailed : ∀ e, outcome = .failed e → ¬ s.worker.Connected client) (e : ApiError) :
    Tidy (s.advance i (w.popClient phone, .ended (.error e))) := by
  obtain ⟨hclients, hphone, hconnected⟩ := disconnected_spec hw hfailed
  have hother : ∀ q, q ≠ phone → (w.popClient phone).clients q = s.worker.clients q :=
    fun q hq => by
    rw [popClient, hclients]
    exact Function.update_of_ne hq _ _
  have hnone : (w.popClient phone).clients phone = none := Function.update_self ..
  refine h.advance hi phone (fun c p hc => (hphone c).trans hc) hother ?_ ?_ ?_ ?_
  · simp [hnone]
  · intro j b c hne hj hb
    exact absurd hb (h.others_free hi rfl j b c hne hj)
  · simp
  · intro c hc
    obtain ⟨hc, hne⟩ := hconnected c hc
    rcases h.live_disconnected hi rfl rfl hc hne with ⟨p, hp, hphone', hreg⟩ | htask
    · exact Or.inl ⟨p, (hphone c).trans hphone', (hother p hp).trans hreg⟩
    · exact Or.inr (Or.inr htask)

/-- A registration is given up while its client is still to be disconnected. -/
theorem popped (h : Tidy s) (hi : s.tasks[i]? = some (.running await)) (phone : String)
    (hclients : w.clients = Function.update s.worker.clients phone none)
    (hcreated : w.created = s.worker.created)
    (hothers : ∀ (j : ℕ) b c, j ≠ i → s.tasks[j]? = some (.running b) → b.holds? = some (phone, c) →
      ∀ handler, b ≠ .connect handler phone c)
    (hdisconnects : await.disconnects? = none) (htask : ∀ b, t = .running b → b.holds? = none)
    (hclient : ∀ c, s.worker.clients phone = some c → ∃ b, t = .running b ∧
      b.disconnects? = some c) :
    Tidy (s.advance i (w, t)) := by
  have hphone : ∀ c, w.phoneOf c = s.worker.phoneOf c := fun c => by rw [phoneOf, phoneOf, hcreated]
  have hconnected : ∀ c, w.Connected c → s.worker.Connected c := fun c hc => by
    simpa only [Connected, hcreated] using hc
  have hnone : w.clients phone = none := by rw [hclients, Function.update_self]
  have hother : ∀ q, q ≠ phone → w.clients q = s.worker.clients q := fun q hq => by
    rw [hclients, Function.update_of_ne hq]
  refine h.advance hi phone (fun c p hc => (hphone c).trans hc) hother ?_ ?_ ?_ ?_
  · simp [hnone]
  · intro j b c hne hj hb
    refine ⟨by simp [hnone], fun handler hconnect => ?_⟩
    exact absurd hconnect (hothers j b c hne hj hb handler)
  · intro b p c hb hp
    rw [htask b hb] at hp
    exact absurd hp (by simp)
  · intro c hc
    rcases h.live_of hi (hconnected c hc) with ⟨p, hp, hreg⟩ | hself | htask'
    · rcases eq_or_ne p phone with rfl | hne
      · exact Or.inr (Or.inl (hclient c hreg))
      · exact Or.inl ⟨p, (hphone c).trans hp, (hother p hne).trans hreg⟩
    · simp [hdisconnects] at hself
    · exact Or.inr (Or.inr htask')

theorem connected (h : Tidy s) {handler : Handler} {phone : String} {client : ℕ}
    (hi : s.tasks[i]? = some (.running (.connect handler phone client))) :
    Tidy (s.advance i (s.worker.connectDone handler phone client)) := by
  obtain ⟨hphone, hunique, hheld⟩ := h.own i _ phone client hi rfl
  have hregistered : s.worker.clients phone = some client := hheld handler rfl
  have hothers := h.others_free hi rfl
  have hdone : (s.worker.connectDone handler phone client).1.clients = s.worker.clients ∧
      (∀ c, (s.worker.connectDone handler phone client).1.phoneOf c = s.worker.phoneOf c) ∧
      ∀ c, (s.worker.connectDone handler phone client).1.Connected c → c = client ∨
        s.worker.Connected c := by
    have hset : ∀ c, (s.worker.setClient client fun c => { c with connected := true }).Connected c →
        c = client ∨ s.worker.Connected c := fun c hc => by
      rcases connected_setClient hc with ⟨-, hc⟩ | ⟨rfl, -⟩
      · exact Or.inr hc
      · exact Or.inl rfl
    cases handler <;> exact ⟨rfl, fun c => phoneOf_setClient (by simp) client c, hset⟩
  obtain ⟨hclients, hsame, hconnected⟩ := hdone
  refine h.advance hi phone (fun c p hc => (hsame c).trans hc)
    (fun q _ => congrFun hclients q) ?_ ?_ ?_ ?_
  · intro c hc
    exact (hsame c).trans (h.phones phone c ((congrFun hclients phone).symm.trans hc))
  · intro j b c hne hj hb
    exact absurd hb (hothers j b c hne hj)
  · intro b p c hb hp
    cases handler with
    | connect session => simp at hb
    | loginStart =>
        obtain rfl : b = .sendCode phone client := by simpa [connectDone, eq_comm] using hb
        obtain ⟨rfl, rfl⟩ : phone = p ∧ client = c := by simpa [Await.holds?] using hp
        refine ⟨rfl, (hsame _).trans hphone, ⟨fun x hx => hunique x hx, ?_⟩, hothers⟩
        exact fun _ hconnect => by simp at hconnect
  · intro c hc
    rcases hconnected c hc with rfl | hc
    · exact Or.inl ⟨phone, (hsame _).trans hphone, (congrFun hclients phone).trans hregistered⟩
    · rcases h.live_of hi hc with ⟨p, hp, hreg⟩ | hself | htask
      · exact Or.inl ⟨p, (hsame c).trans hp, (congrFun hclients p).trans hreg⟩
      · simp [Await.disconnects?] at hself
      · exact Or.inr (Or.inr htask)

theorem connectFailed (h : Tidy s) {handler : Handler} {phone : String} {client : ℕ}
    (hi : s.tasks[i]? = some (.running (.connect handler phone client))) :
    Tidy (s.advance i (s.worker, .running (.failedDisconnect phone client))) := by
  obtain ⟨hphone, hunique, -⟩ := h.own i _ phone client hi rfl
  have hothers := h.others_free hi rfl
  refine h.advance hi phone (fun _ _ => id) (fun _ _ => rfl) (h.phones phone) ?_ ?_ ?_
  · intro j b c hne hj hb
    exact absurd hb (hothers j b c hne hj)
  · intro b p c hb hp
    obtain rfl : b = .failedDisconnect phone client := by simpa [eq_comm] using hb
    obtain ⟨rfl, rfl⟩ : phone = p ∧ client = c := by simpa [Await.holds?] using hp
    exact ⟨rfl, hphone, ⟨hunique, fun _ hconnect => by simp at hconnect⟩, hothers⟩
  · intro c hc
    rcases h.live_of hi hc with hreg | hself | htask
    · exact Or.inl hreg
    · simp [Await.disconnects?] at hself
    · exact Or.inr (Or.inr htask)

theorem handled (h : Tidy s) {config : Config} {request : Request}
    (hi : s.tasks[i]? = some (.running (.json request))) (hrequest : Undisturbed config s request) :
    Tidy (s.advance i (s.worker.handle config request)) := by
  have hsame : ∀ t : Task, (∀ b, t = .running b → b.holds? = none) →
      Tidy (s.advance i (s.worker, t)) := fun t ht =>
    h.keep hi (fun _ => rfl) rfl ht fun c hc => ⟨hc, by simp [Await.disconnects?]⟩
  have hmakes : ∀ phone ∈ makes? config request, ∀ b d, .running b ∈ s.tasks →
      b.holds? ≠ some (phone, d) := by
    intro phone hphone b d hb hholds
    exact hrequest.1 phone hphone _ hb b rfl (by simp [Await.phone?, hholds])
  cases request with
  | loginStart phone =>
      simp only [handle, handleLoginStart]
      split_ifs with hphone
      · exact hsame _ (by simp)
      · exact h.replaced hi .loginStart _ (hmakes _ (by simp [makes?, hphone])) rfl
  | connect phone session =>
      simp only [handle, handleConnect]
      split_ifs with hphone hsession
      · exact hsame _ (by simp)
      · exact h.replaced hi (.connect session) _ (hmakes _ (by simp [makes?, hphone, hsession])) rfl
      · exact hsame _ (by simp)
  | loginCode phone code =>
      simp only [handle, handleLoginCode]
      split
      · exact hsame _ (by simp)
      · split_ifs
        · exact hsame _ (by simp)
        · exact hsame _ (by simp [Await.holds?])
  | loginPassword phone password =>
      simp only [handle, handleLoginPassword]
      split
      · exact hsame _ (by simp)
      · exact hsame _ (by simp [Await.holds?])
  | disconnect phone =>
      have hothers : ∀ (j : ℕ) b c, j ≠ i → s.tasks[j]? = some (.running b) →
          b.holds? = some (strip phone, c) → ∀ handler, b ≠ .connect handler (strip phone) c := by
        rintro j b c - hj - handler rfl
        exact hrequest.2 _ rfl _ (List.mem_of_getElem? hj) _ rfl rfl
      simp only [handle]
      cases hclients : s.worker.clients (strip phone) with
      | none =>
          rw [handleDisconnect_of_none hclients, forget]
          refine h.popped hi (strip phone) ?_ ?_ hothers rfl (by simp) (by simp [hclients])
          · rw [popHash, popClient]
          · rw [popHash, popClient]
      | some client =>
          rw [handleDisconnect_of_some hclients]
          refine h.popped hi (strip phone) ?_ ?_ hothers rfl (by simp [Await.holds?])
            fun c hc => ⟨_, rfl, hclients.symm.trans hc⟩
          · rw [popHash, popClient]
          · rw [popHash, popClient]

theorem disconnected (h : Tidy s) {client : ℕ} (hi : s.tasks[i]? = some (.running await))
    (hdisconnects : await.disconnects? = some client) {outcome : Outcome} {w' : TelegramWorker}
    (hw : s.worker.disconnected client outcome = some w')
    (hfailed : ∀ e, outcome = .failed e → ¬ s.worker.Connected client)
    (hclients : w.clients = w'.clients) (hcreated : w.created = w'.created)
    {r : Except ApiError Reply} :
    Tidy (s.advance i (w, .ended r)) := by
  obtain ⟨hsame, hphone, hconnected⟩ := disconnected_spec hw hfailed
  refine h.keep hi (fun c => ?_) (hclients.trans hsame) (by simp) fun c hc => ?_
  · rw [← hphone, phoneOf, phoneOf, hcreated]
  · obtain ⟨hc, hne⟩ := hconnected c (by simpa only [Connected, hcreated] using hc)
    refine ⟨hc, ?_⟩
    rw [hdisconnects]
    exact fun heq => hne (Option.some_inj.mp heq).symm

theorem changed (h : Tidy s) (hi : s.tasks[i]? = some (.running await)) (client : ℕ)
    (f : TelegramClient → TelegramClient) (hphone : ∀ c, (f c).phone = c.phone)
    (hconnected : ∀ c, (f c).connected = c.connected) (hclients : w.clients = s.worker.clients)
    (hcreated : w.created = (s.worker.setClient client f).created)
    (hdisconnects : await.disconnects? = none)
    {r : Except ApiError Reply} : Tidy (s.advance i (w, .ended r)) := by
  refine h.keep hi (fun c => ?_) hclients (by simp) fun c hc => ⟨?_, by simp [hdisconnects]⟩
  · rw [← phoneOf_setClient (w := s.worker) hphone client c, phoneOf, phoneOf, hcreated]
  · have hset : (s.worker.setClient client f).Connected c := by
      simpa only [Connected, hcreated] using hc
    rcases connected_setClient hset with ⟨-, hc⟩ | ⟨-, client', hclient', hc⟩
    · exact hc
    · exact ⟨client', hclient', (hconnected client').symm.trans hc⟩

theorem signedIn (h : Tidy s) (hi : s.tasks[i]? = some (.running await))
    (phone : String) (client : ℕ)
    (hdisconnects : await.disconnects? = none) (hclients : w.clients = s.worker.clients)
    (hcreated : w.created = (s.worker.signedIn phone client).created) {r : Except ApiError Reply} :
    Tidy (s.advance i (w, .ended r)) :=
  h.changed hi client (fun c => { c with signedIn := true }) (fun _ => rfl)
    (fun _ => rfl) hclients hcreated
    hdisconnects

theorem resumed (h : Tidy s) {config : Config} (hi : s.tasks[i]? = some (.running await))
    {outcome : Outcome}
    (horder : Orderly config s (.resume i outcome)) {next : TelegramWorker × Task}
    (hnext : s.worker.resume config await outcome = some next) : Tidy (s.advance i next) := by
  obtain ⟨hrequest, hdisconnects⟩ := horder _ hi await rfl
  have hfailed : ∀ c, await.disconnects? = some c → ∀ e, outcome = .failed e →
      ¬ s.worker.Connected c :=
    fun c hc e he => hdisconnects c hc (by rw [he]; rfl)
  have hended : ∀ r, await.disconnects? = none → Tidy (s.advance i (s.worker, .ended r)) :=
    fun r hr =>
    h.keep hi (fun _ => rfl) rfl (by simp) fun c hc => ⟨hc, by simp [hr]⟩
  cases resumes hnext with
  | handled request => exact h.handled hi (hrequest _ rfl rfl)
  | unread request error => exact hended _ rfl
  | replaced handler phone hw => exact h.previousDisconnected hi hw (hfailed _ rfl)
  | connected handler phone client => exact h.connected hi
  | unconnected handler phone client error => exact h.connectFailed hi
  | dropped phone hw => exact h.failedDisconnected hi hw (hfailed _ rfl) _
  | sent phone client hash viaApp =>
      refine h.changed hi client (fun c => { c with phoneCodeHash := some hash }) ?_ ?_ ?_ ?_ rfl
      · exact fun _ => rfl
      · exact fun _ => rfl
      · rfl
      · rfl
  | unsent phone client error =>
      refine h.popped hi phone rfl rfl ?_ rfl (by simp [Await.holds?]) fun c hc => ?_
      · intro j b c hne hj hb
        exact absurd hb (h.others_free hi rfl j b c hne hj)
      · obtain rfl := h.eq_of_clients hi rfl hc
        exact ⟨_, rfl, rfl⟩
  | released error hw => refine h.disconnected hi rfl hw (hfailed _ rfl) ?_ ?_ <;> rfl
  | codeAccepted phone client => refine h.signedIn hi phone client rfl ?_ ?_ <;> rfl
  | passwordNeeded phone client => exact hended _ rfl
  | codeInvalid phone client error => exact hended _ rfl
  | codeFailed phone client error => exact hended _ rfl
  | passwordAccepted phone client => refine h.signedIn hi phone client rfl ?_ ?_ <;> rfl
  | passwordFailed phone client error => exact hended _ rfl
  | forgotten phone hw =>
      unfold forget
      refine h.disconnected hi rfl hw (hfailed _ rfl) ?_ ?_ <;> rfl

theorem spawned (h : Tidy s) (ht : ∀ b, t = .running b → b.holds? = none) :
    Tidy { s with tasks := s.tasks ++ [t] } := by
  have hold : ∀ {j : ℕ} {b p} {c : ℕ}, (s.tasks ++ [t])[j]? = some (.running b) →
      b.holds? = some (p, c) →
      s.tasks[j]? = some (.running b) := fun {j b p c} hj hb => by
    rw [List.getElem?_append] at hj
    split_ifs at hj with hlt
    · exact hj
    · obtain rfl := List.mem_singleton.mp (List.mem_of_getElem? hj)
      rw [ht b rfl] at hb
      exact absurd hb (by simp)
  refine ⟨h.phones, fun j b p c hj hb => h.own j b p c (hold hj hb) hb,
    fun j k a b p c d hj hk ha hb => h.single j k a b p c d (hold hj ha) (hold hk hb) ha hb,
      fun c hc => ?_⟩
  rcases h.live c hc with hreg | ⟨j, b, hj, hb⟩
  · exact Or.inl hreg
  · exact Or.inr ⟨j, b, (List.getElem?_append_left (List.getElem?_eq_some_iff.mp hj).1).trans hj,
      hb⟩

/-- Every event in order keeps the registry tidy. -/
theorem step {config : Config} {e : Event} (h : Tidy s) (horder : Orderly config s e) :
    Tidy (s.step config e) := by
  cases e with
  | request secret request =>
      refine h.spawned fun b hb => ?_
      unfold Config.accept at hb
      split at hb
      · obtain rfl : Await.json request = b := by simpa using hb
        rfl
      · simp at hb
  | resume i outcome =>
      simp only [Loop.step]
      split
      · rename_i await hi
        cases hnext : s.worker.resume config await outcome with
        | none => exact h
        | some next => exact h.resumed hi horder hnext
      · exact h

theorem cleaned (h : Tidy s) {config : Config} (hi : s.tasks[i]? = some (.running await))
    {outcome : Outcome}
    {client : ℕ} (hclient : await.cleans? outcome = some client) {phone : String} {c : ℕ}
    (hc : s.worker.clients phone = some c)
    (hgone : (s.step config (.resume i outcome)).worker.clients phone ≠ some c) : c = client := by
  have hpop : ∀ (w : TelegramWorker) (q : String), w.clients = s.worker.clients →
      (w.popClient q).clients phone ≠ some c → phone = q := fun w q hw hne => by
    by_contra hphone
    refine hne ?_
    rw [popClient, hw]
    exact (Function.update_of_ne hphone _ _).trans hc
  cases await with
  | failedDisconnect q client' =>
      obtain rfl : client' = client := by simpa [Await.cleans?] using hclient
      cases hw : s.worker.disconnected client' outcome with
      | none => simp [Loop.step, hi, TelegramWorker.resume, hw, hc] at hgone
      | some w =>
          have hphone : phone = q :=
            hpop w q (disconnected_clients hw)
              (by simpa [Loop.step, hi, TelegramWorker.resume, hw, Loop.advance] using hgone)
          exact h.eq_of_clients hi rfl (hphone ▸ hc)
  | sendCode q client' =>
      cases outcome with
      | failed e =>
          obtain rfl : client' = client := by simpa [Await.cleans?] using hclient
          have hphone : phone = q :=
            hpop s.worker q rfl
              (by simpa [Loop.step, hi, TelegramWorker.resume, Loop.advance] using hgone)
          exact h.eq_of_clients hi rfl (hphone ▸ hc)
      | _ => simp [Await.cleans?] at hclient
  | _ => simp [Await.cleans?] at hclient

end Tidy

theorem tidy_of_run {config : Config} {s : Loop}
    (hrun : Machine.Run (step config) (Orderly config) initial s) :
    Tidy s :=
  hrun.invariant Tidy Tidy.initial fun _ _ _ h horder => h.step horder

/-- The sidecar never leaks a client. -/
theorem no_leak {config : Config} {s : Loop}
    (hrun : Machine.Run (step config) (Orderly config) initial s) :
    (s.Idle → s.worker.NoLeak) ∧
      ∀ (i : ℕ) await outcome client phone c, s.tasks[i]? = some (.running await) →
        await.cleans? outcome = some client → s.worker.clients phone = some c →
        (s.step config (.resume i outcome)).worker.clients phone ≠ some c → c = client := by
  have htidy := tidy_of_run hrun
  constructor
  · intro hidle
    refine noLeak_iff.mpr fun c hc => ?_
    rcases htidy.live c hc with hreg | ⟨i, b, hi, -⟩
    · exact hreg
    · exact absurd (hidle _ (List.mem_of_getElem? hi)) (by simp [Task.await?])
  · intro i await outcome client phone c hi hclient hc hgone
    exact htidy.cleaned hi hclient hc hgone

/-! ## Two logins of one phone -/

def sampleConfig : Config := ⟨1, "0123456789abcdef", "", fun _ => true⟩

def samplePhone : String := "+8613800138000"

/-- The client of a login that cannot connect again replaces one that was connected. -/
def relogin : List Event :=
  [.request none (.connect samplePhone "session"), .resume 0 .done, .resume 0 .done,
    .request none (.loginStart samplePhone), .resume 1 .done, .resume 1 .done,
      .resume 1 (.failed "timeout"),
    .resume 1 .done]

theorem no_leak_relogin : (relogin.foldl (step sampleConfig) initial).worker.NoLeak := by
  have hrun : Machine.Run (step sampleConfig) (Orderly sampleConfig) initial
      (relogin.foldl (step sampleConfig) initial) :=
    Machine.Run.refl.list (by decide +kernel)
  exact (no_leak hrun).1 (by decide +kernel)

/-- The account is connected twice at once, and the first client connects after
the second has taken its place. -/
def doubleConnect : List Event :=
  [.request none (.connect samplePhone "session"), .request none (.connect samplePhone "session"),
    .resume 0 .done, .resume 1 .done, .resume 1 .done, .resume 0 .done, .resume 1 .done]

theorem doubleConnect_leaks :
    Machine.Run (step sampleConfig) (fun _ _ => True) initial
      (doubleConnect.foldl (step sampleConfig) initial) ∧
      (doubleConnect.foldl (step sampleConfig) initial).Idle ∧
      ¬ (doubleConnect.foldl (step sampleConfig) initial).worker.NoLeak := by
  refine ⟨Machine.Run.refl.list (by simp [Machine.AllowedList, doubleConnect]), by decide +kernel,
    ?_⟩
  have hlost : ∃ client ∈ (doubleConnect.foldl (step sampleConfig) initial).worker.created[0]?,
      client.connected = true ∧
        (doubleConnect.foldl (step sampleConfig) initial).worker.clients client.phone ≠ some 0 := by
    decide +kernel
  obtain ⟨client, hclient, hconnected, hgone⟩ := hlost
  exact fun h => hgone (h 0 client hclient hconnected)

end Loop

end SocialMonitor.Sidecar

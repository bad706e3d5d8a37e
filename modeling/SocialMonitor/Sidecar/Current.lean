import SocialMonitor.Sidecar.Leaks

/-!
# The current account

A client is authorised once `sign_in` has succeeded on it, or when it was built
from a stored session that Telegram still takes.  `alive` tells these sessions.
-/

namespace SocialMonitor.Sidecar

def Request.makes? (config : Config) : Request → Option (Handler × String)
  | .loginStart phone => if strip phone = "" then none else some (.loginStart, strip phone)
  | .connect phone session =>
      if strip phone = "" then none
      else if config.validSession session then some (.connect session, strip phone) else none
  | _ => none

namespace Await

/-- The phone of which an outcome leaves the clean-up of a failure to the task. -/
def drops? : Await → Outcome → Option String
  | failedDisconnect phone _, _ => some phone
  | sendCode phone _, .failed _ => some phone
  | _, _ => none

def selects? : Await → Outcome → Option String
  | connect (.connect _) phone _, .done => some phone
  | signIn phone _, .done => some phone
  | signInPassword phone _, .done => some phone
  | _, _ => none

def signs? : Await → Outcome → Option ℕ
  | signIn _ client, .done => some client
  | signInPassword _ client, .done => some client
  | _, _ => none

/-- The phone whose client the task has taken out of the registry for good. -/
def leaves? : Await → Option String
  | disconnect phone _ => some phone
  | _ => none

end Await

/-- A stored session that is taken; the empty one is that of a new client. -/
def Handler.Live (alive : String → Bool) (handler : Handler) : Prop :=
  handler.session ≠ "" ∧ alive handler.session = true

instance {alive : String → Bool} {handler : Handler} : Decidable (handler.Live alive) := by
  unfold Handler.Live
  infer_instance

namespace TelegramWorker

variable (alive : String → Bool) (w : TelegramWorker)

/-- The client can receive messages. -/
def Authorised (c : ℕ) : Prop :=
  ∃ client ∈ w.created[c]?,
    client.signedIn = true ∨ (client.session ≠ "" ∧ alive client.session = true)

instance (c : ℕ) : Decidable (w.Authorised alive c) := by
  unfold Authorised
  infer_instance

def places? (config : Config) : Await → Outcome → Option (Handler × String)
  | .json request, .done =>
      (request.makes? config).filter fun made => (w.clients made.2).isNone
  | .previousDisconnect handler phone _, _ => some (handler, phone)
  | _, _ => none

variable {alive w}

/-! ## What a step does to the registry and the current phone -/

inductive Effect (alive : String → Bool) (config : Config) (w : TelegramWorker) (await : Await)
    (outcome : Outcome) (w' : TelegramWorker) (t : Task) : Prop where
  | kept (hclients : w'.clients = w.clients) (hcurrent : w'.currentPhone = w.currentPhone)
      (hleaves : await.leaves? = none)
  | placed (handler : Handler) (phone : String)
      (hplaces : w.places? config await outcome = some (handler, phone))
      (hclients : w'.clients = Function.update w.clients phone (some w.created.length))
      (hcurrent : w'.currentPhone = w.currentPhone)
      (hknown : w.created.length < w'.created.length)
      (hlive : handler.Live alive → w'.Authorised alive w.created.length)
      (hleaves : await.leaves? = none)
  | dropped (phone : String) (hdrops : await.drops? outcome = some phone)
      (hclients : w'.clients = Function.update w.clients phone none)
      (hcurrent : w'.currentPhone = w.currentPhone) (hleaves : await.leaves? = none)
  | selected (phone : String) (hselects : await.selects? outcome = some phone)
      (hclients : w'.clients = w.clients) (hcurrent : w'.currentPhone = some phone)
      (hsigns : ∀ c, await.signs? outcome = some c → c < w.created.length →
        w'.Authorised alive c)
      (hleaves : await.leaves? = none)
  | popped (phone : String) (client : ℕ)
      (hclients : w'.clients = Function.update w.clients phone none)
      (hcurrent : w'.currentPhone = w.currentPhone)
      (htask : t = .running (.disconnect phone client)) (hleaves : await.leaves? = none)
  | forgotten (phone : String) (hclients : w'.clients = w.clients)
      (hcurrent : w'.currentPhone = if w.currentPhone = some phone then none else w.currentPhone)
      (hleaves : ∀ q, await.leaves? = some q → q = phone)

/-- No client is lost, and none loses its authorisation. -/
def Grows (alive : String → Bool) (w w' : TelegramWorker) : Prop :=
  w.created.length ≤ w'.created.length ∧ ∀ c, w.Authorised alive c → w'.Authorised alive c

theorem Grows.of_eq {w' : TelegramWorker} (h : w'.created = w.created) : Grows alive w w' := by
  simp [Grows, Authorised, h]

theorem Grows.setClient {f : TelegramClient → TelegramClient}
    (hsession : ∀ client, (f client).session = client.session)
    (hsigned : ∀ client, client.signedIn = true → (f client).signedIn = true) (k : ℕ)
    {w' : TelegramWorker} (h : w'.created = (w.setClient k f).created) : Grows alive w w' := by
  refine ⟨by simp [h, TelegramWorker.setClient], fun c hc => ?_⟩
  obtain ⟨client, hclient, hauth⟩ := hc
  simp only [Authorised, h, TelegramWorker.setClient, List.getElem?_modify,
    Option.mem_def.mp hclient]
  split_ifs
  · exact ⟨f client, rfl, hauth.imp (hsigned client) (by rw [hsession]; exact id)⟩
  · exact ⟨client, rfl, hauth⟩

theorem Grows.trans {w' w'' : TelegramWorker} (h : Grows alive w w') (h' : Grows alive w' w'') :
    Grows alive w w'' :=
  ⟨h.1.trans h'.1, fun c hc => h'.2 c (h.2 c hc)⟩

theorem Grows.register (handler : Handler) (phone : String) :
    Grows alive w (w.register handler phone).1 := by
  refine ⟨by simp [TelegramWorker.register], fun c hc => ?_⟩
  obtain ⟨client, hclient, hauth⟩ := hc
  refine ⟨client, ?_, hauth⟩
  exact (List.getElem?_append_left (List.getElem?_eq_some_iff.mp hclient).1).trans hclient

theorem Grows.disconnected {client : ℕ} {outcome : Outcome} {w' : TelegramWorker}
    (h : w.disconnected client outcome = some w') : Grows alive w w' := by
  rcases disconnected_cases h with ⟨-, rfl⟩ | ⟨e, -, rfl⟩
  · exact .setClient (f := fun c => { c with connected := false }) (fun _ => rfl) (fun _ => id)
      client rfl
  · exact .of_eq rfl

theorem disconnected_same {client : ℕ} {outcome : Outcome} {w' : TelegramWorker}
    (h : w.disconnected client outcome = some w') :
    w'.currentPhone = w.currentPhone ∧ w'.created.length = w.created.length := by
  rcases disconnected_cases h with ⟨-, rfl⟩ | ⟨e, -, rfl⟩
  · exact ⟨rfl, by simp [TelegramWorker.setClient]⟩
  · exact ⟨rfl, rfl⟩

theorem authorised_register {handler : Handler} (phone : String) (h : handler.Live alive) :
    (w.register handler phone).1.Authorised alive w.created.length :=
  ⟨⟨phone, handler.session, false, false, none⟩, by simp [TelegramWorker.register], Or.inr h⟩

theorem authorised_signedIn (phone : String) {c : ℕ} (h : c < w.created.length) :
    (w.signedIn phone c).Authorised alive c := by
  refine ⟨{ w.created[c] with signedIn := true }, ?_, Or.inl rfl⟩
  simp [TelegramWorker.signedIn, TelegramWorker.setClient, h]

theorem signIn_effect {config : Config} {await : Await} {outcome : Outcome} {phone : String}
    {client : ℕ} {w' : TelegramWorker} {t : Task} (hselects : await.selects? outcome = some phone)
    (hsigns : await.signs? outcome = some client) (hleaves : await.leaves? = none)
    (hcreated : w'.created = (w.signedIn phone client).created) (hclients : w'.clients = w.clients)
    (hcurrent : w'.currentPhone = some phone) :
    Grows alive w w' ∧ Effect alive config w await outcome w' t := by
  refine ⟨.setClient (f := fun c => { c with signedIn := true }) (fun _ => rfl)
    (fun _ _ => rfl) client
    hcreated, .selected phone hselects hclients hcurrent (fun c hc hlt => ?_) hleaves⟩
  obtain rfl : client = c := Option.some_inj.mp (hsigns.symm.trans hc)
  have hauth : (w.signedIn phone client).Authorised alive client := authorised_signedIn phone hlt
  simpa only [Authorised, hcreated] using hauth

theorem replace_effect {config : Config} {await : Await} {outcome : Outcome} (handler : Handler)
    (phone : String)
    (hplaces : w.clients phone = none → w.places? config await outcome = some (handler, phone))
    (hleaves : await.leaves? = none) :
    Grows alive w (w.replace handler phone).1 ∧ Effect alive config w await outcome
      (w.replace handler phone).1 (w.replace handler phone).2 := by
  unfold replace
  split
  · exact ⟨.of_eq rfl, .kept rfl rfl hleaves⟩
  · rename_i hnone
    refine ⟨.register handler phone, .placed handler phone (hplaces hnone) rfl rfl ?_ ?_ hleaves⟩
    · simp [TelegramWorker.register]
    · exact authorised_register phone

theorem handle_effect (config : Config) (request : Request) :
    Grows alive w (w.handle config request).1 ∧ Effect alive config w (.json request) .done
      (w.handle config request).1 (w.handle config request).2 := by
  have hkept : ∀ t, Grows alive w w ∧ Effect alive config w (.json request) .done w t := fun t =>
    ⟨.of_eq rfl, .kept rfl rfl rfl⟩
  cases request with
  | loginStart phone =>
      simp only [handle, handleLoginStart]
      split_ifs with hphone
      · exact hkept _
      · refine replace_effect .loginStart (strip phone) (fun hnone => ?_) rfl
        simp [places?, Request.makes?, hphone, hnone]
  | connect phone session =>
      simp only [handle, handleConnect]
      split_ifs with hphone hsession
      · exact hkept _
      · refine replace_effect (.connect session) (strip phone) (fun hnone => ?_) rfl
        simp [places?, Request.makes?, hphone, hsession, hnone]
      · exact hkept _
  | loginCode phone code =>
      simp only [handle, handleLoginCode]
      split
      · exact hkept _
      · split_ifs
        · exact hkept _
        · exact hkept _
  | loginPassword phone password =>
      simp only [handle, handleLoginPassword]
      split
      · exact hkept _
      · exact hkept _
  | disconnect phone =>
      simp only [handle]
      cases hclients : w.clients (strip phone) with
      | none =>
          rw [handleDisconnect_of_none hclients]
          generalize strip phone = p at *
          refine ⟨.of_eq rfl, .forgotten p ?_ rfl (by simp [Await.leaves?])⟩
          exact Function.update_eq_self_iff.mpr hclients.symm
      | some client =>
          rw [handleDisconnect_of_some hclients]
          generalize strip phone = p
          exact ⟨.of_eq rfl, .popped p client rfl rfl rfl rfl⟩

theorem register_effect {config : Config} {handler : Handler} {phone : String} {previous : ℕ}
    {outcome : Outcome} {w' : TelegramWorker} (hw : w.disconnected previous outcome = some w') :
    Grows alive w ((w'.popClient phone).register handler phone).1 ∧
      Effect alive config w (.previousDisconnect handler phone previous) outcome
        ((w'.popClient phone).register handler phone).1
        ((w'.popClient phone).register handler phone).2 := by
  obtain ⟨hcurrent, hlength⟩ := disconnected_same hw
  have hpopped : Grows alive w (w'.popClient phone) := (Grows.disconnected hw).trans (.of_eq rfl)
  refine ⟨hpopped.trans (.register handler phone), .placed handler phone rfl ?_ hcurrent ?_ ?_ rfl⟩
  · simp only [TelegramWorker.register, popClient, Function.update_idem,
      disconnected_clients hw, hlength]
  · simp [TelegramWorker.register, popClient, hlength]
  · rw [← hlength]
    exact authorised_register (w := w'.popClient phone) phone

theorem resume_effect {config : Config} {await : Await} {outcome : Outcome}
    {next : TelegramWorker × Task} (hnext : w.resume config await outcome = some next) :
    Grows alive w next.1 ∧ Effect alive config w await outcome next.1 next.2 := by
  have hkept : ∀ t, await.leaves? = none →
      Grows alive w w ∧ Effect alive config w await outcome w t := fun t hleaves =>
    ⟨.of_eq rfl, .kept rfl rfl hleaves⟩
  cases resumes hnext with
  | handled request => exact handle_effect config _
  | unread request error => exact hkept _ rfl
  | replaced handler phone hw => exact register_effect hw
  | connected handler phone client =>
      have hgrows : Grows alive w (w.setClient client fun c => { c with connected := true }) :=
        .setClient (f := fun c => { c with connected := true }) (fun _ => rfl)
          (fun _ => id) client rfl
      cases handler with
      | loginStart => exact ⟨hgrows, .kept rfl rfl rfl⟩
      | connect session =>
          exact ⟨hgrows, .selected phone rfl rfl rfl (by simp [Await.signs?]) rfl⟩
  | unconnected handler phone client error => exact hkept _ rfl
  | dropped phone hw =>
      refine ⟨(Grows.disconnected hw).trans (.of_eq rfl),
        .dropped _ rfl ?_ (disconnected_same hw).1 rfl⟩
      simp only [popClient, disconnected_clients hw]
  | sent phone client hash viaApp =>
      exact ⟨.setClient (f := fun c => { c with phoneCodeHash := some hash }) (fun _ => rfl)
        (fun _ => id) client rfl, .kept rfl rfl rfl⟩
  | unsent phone client error => exact ⟨.of_eq rfl, .dropped _ rfl rfl rfl rfl⟩
  | released error hw =>
      exact ⟨.disconnected hw, .kept (disconnected_clients hw) (disconnected_same hw).1 rfl⟩
  | codeAccepted phone client => exact signIn_effect rfl rfl rfl rfl rfl rfl
  | passwordNeeded phone client => exact hkept _ rfl
  | codeInvalid phone client error => exact hkept _ rfl
  | codeFailed phone client error => exact hkept _ rfl
  | passwordAccepted phone client => exact signIn_effect rfl rfl rfl rfl rfl rfl
  | passwordFailed phone client error => exact hkept _ rfl
  | forgotten phone hw =>
      refine ⟨(Grows.disconnected hw).trans (.of_eq rfl), .forgotten phone ?_ ?_ ?_⟩
      · simp only [forget, disconnected_clients hw]
      · simp only [forget, (disconnected_same hw).1]
      · simp [Await.leaves?]

end TelegramWorker

namespace Loop

open TelegramWorker

variable (alive : String → Bool)

/-- `handle_disconnect` has taken the client of the phone out and waits for it. -/
def Leaving (s : Loop) (phone : String) : Prop :=
  ∃ t ∈ s.tasks, ∃ await ∈ t.await?, await.leaves? = some phone

/-- The client of the current phone is replaced by one with a live session only
and is not dropped after a failure, and a phone becomes the current one with a
client that is authorised. -/
def Honest (config : Config) (s : Loop) : Event → Prop
  | .request _ _ => True
  | .resume i outcome => ∀ t ∈ s.tasks[i]?, ∀ await ∈ t.await?,
      (∀ made ∈ s.worker.places? config await outcome,
        s.worker.currentPhone = some made.2 → made.1.Live alive) ∧
      (∀ phone ∈ await.drops? outcome,
        s.worker.currentPhone = some phone → s.worker.clients phone = none) ∧
      ∀ phone ∈ await.selects? outcome, ∃ c ∈ s.worker.clients phone,
        await.signs? outcome = some c ∨ s.worker.Authorised alive c

instance {config : Config} {s : Loop} {e : Event} : Decidable (Honest alive config s e) :=
  match e with
  | .request _ _ => .isTrue trivial
  | .resume i outcome => inferInstanceAs (Decidable (∀ t ∈ s.tasks[i]?, ∀ await ∈ t.await?,
      (∀ made ∈ s.worker.places? config await outcome,
        s.worker.currentPhone = some made.2 → made.1.Live alive) ∧
      (∀ phone ∈ await.drops? outcome,
        s.worker.currentPhone = some phone → s.worker.clients phone = none) ∧
      ∀ phone ∈ await.selects? outcome, ∃ c ∈ s.worker.clients phone,
        await.signs? outcome = some c ∨ s.worker.Authorised alive c))

/-- The client of the current phone is authorised, unless it is being disconnected. -/
structure Current (s : Loop) : Prop where
  known : ∀ phone c, s.worker.clients phone = some c → c < s.worker.created.length
  authorised : ∀ phone, s.worker.currentPhone = some phone →
    ∀ c, s.worker.clients phone = some c → s.worker.Authorised alive c
  leaving : ∀ phone, s.worker.currentPhone = some phone →
    s.worker.clients phone = none → s.Leaving phone

namespace Current

variable {alive} {config : Config} {s : Loop} {i : ℕ} {await : Await} {outcome : Outcome}
  {w : TelegramWorker} {t : Task}

theorem initial : Current alive Loop.initial where
  known := by simp [Loop.initial]
  authorised := by simp [Loop.initial]
  leaving := by simp [Loop.initial]

/-- Tasks that go on, end or come in do not end the disconnection by another. -/
theorem leaving_of_ne {phone : String} (hleaving : s.Leaving phone)
    (hi : s.tasks[i]? = some (.running await)) (hne : await.leaves? ≠ some phone) :
    (s.advance i (w, t)).Leaving phone := by
  obtain ⟨t', ht', await', hawait', hleaves⟩ := hleaving
  obtain ⟨j, hj⟩ := List.getElem?_of_mem ht'
  have hji : j ≠ i := by
    rintro rfl
    obtain rfl := Option.some_inj.mp (hi.symm.trans hj)
    obtain rfl : await = await' := Option.some_inj.mp hawait'
    exact hne hleaves
  refine ⟨t', List.mem_of_getElem? (i := j) ?_, await', hawait', hleaves⟩
  exact (List.getElem?_set_ne (Ne.symm hji)).trans hj

theorem leaving_self {phone : String} {client : ℕ} (hi : s.tasks[i]? = some (.running await)) :
    (s.advance i (w, .running (.disconnect phone client))).Leaving phone := by
  have hself : (s.advance i (w, .running (.disconnect phone client))).tasks[i]? =
      some (.running (.disconnect phone client)) := by
    simp [Loop.advance, (List.getElem?_eq_some_iff.mp hi).1]
  exact ⟨_, List.mem_of_getElem? hself, .disconnect phone client, rfl, rfl⟩

theorem of_popped {phone q : String} {c : ℕ}
    (hclients : w.clients = Function.update s.worker.clients q none)
    (hc : w.clients phone = some c) :
    s.worker.clients phone = some c := by
  rcases eq_or_ne phone q with rfl | hne
  · simp [hclients] at hc
  · simpa [hclients, hne] using hc

/-- A step that honours the current phone keeps its client authorised. -/
theorem advance (h : Current alive s) (hi : s.tasks[i]? = some (.running await))
    (hhonest : Honest alive config s (.resume i outcome)) (hgrows : s.worker.Grows alive w)
    (heffect : s.worker.Effect alive config await outcome w t) :
    Current alive (s.advance i (w, t)) := by
  obtain ⟨hplaced, hdropped, hselected⟩ := hhonest _ hi await rfl
  cases heffect with
  | kept hclients hcurrent hleaves =>
      refine ⟨fun phone c hc => ?_, fun phone hphone c hc => ?_, fun phone hphone hnone => ?_⟩
      · exact (h.known phone c (hclients ▸ hc)).trans_le hgrows.1
      · exact hgrows.2 c (h.authorised phone (hcurrent ▸ hphone) c (hclients ▸ hc))
      · exact leaving_of_ne (h.leaving phone (hcurrent ▸ hphone) (hclients ▸ hnone))
          hi (by simp [hleaves])
  | placed handler q hplaces hclients hcurrent hknown hlive hleaves =>
      have hself : w.clients q = some s.worker.created.length := by simp [hclients]
      have hother : ∀ phone, phone ≠ q → w.clients phone = s.worker.clients phone :=
        fun phone hne => by
        simp [hclients, hne]
      refine ⟨fun phone c hc => ?_, fun phone hphone c hc => ?_, fun phone hphone hnone => ?_⟩
      · rcases eq_or_ne phone q with rfl | hne
        · obtain rfl := Option.some_inj.mp (hself.symm.trans hc)
          exact hknown
        · exact (h.known phone c ((hother phone hne).symm.trans hc)).trans_le hgrows.1
      · replace hphone := hcurrent.symm.trans hphone
        rcases eq_or_ne phone q with rfl | hne
        · obtain rfl := Option.some_inj.mp (hself.symm.trans hc)
          exact hlive (hplaced _ hplaces hphone)
        · exact hgrows.2 c (h.authorised phone hphone c ((hother phone hne).symm.trans hc))
      · replace hphone := hcurrent.symm.trans hphone
        rcases eq_or_ne phone q with rfl | hne
        · exact absurd (hself.symm.trans hnone) (by simp)
        · exact leaving_of_ne (h.leaving phone hphone ((hother phone hne).symm.trans hnone)) hi
            (by simp [hleaves])
  | dropped q hdrops hclients hcurrent hleaves =>
      refine ⟨fun phone c hc => ?_, fun phone hphone c hc => ?_, fun phone hphone hnone => ?_⟩
      · exact (h.known phone c (of_popped hclients hc)).trans_le hgrows.1
      · exact hgrows.2 c (h.authorised phone (hcurrent ▸ hphone) c (of_popped hclients hc))
      · replace hphone := hcurrent.symm.trans hphone
        have hnone' : s.worker.clients phone = none := by
          rcases eq_or_ne phone q with rfl | hne
          · exact hdropped phone hdrops hphone
          · simpa [Loop.advance, hclients, hne] using hnone
        exact leaving_of_ne (h.leaving phone hphone hnone') hi (by simp [hleaves])
  | selected q hselects hclients hcurrent hsigns hleaves =>
      obtain ⟨c', hc', hauth⟩ := hselected q hselects
      have hauth' : w.Authorised alive c' := by
        rcases hauth with hsigned | hauth
        · exact hsigns c' hsigned (h.known q c' hc')
        · exact hgrows.2 c' hauth
      refine ⟨fun phone c hc => ?_, fun phone hphone c hc => ?_, fun phone hphone hnone => ?_⟩
      · exact (h.known phone c (hclients ▸ hc)).trans_le hgrows.1
      · obtain rfl := Option.some_inj.mp (hcurrent.symm.trans hphone)
        obtain rfl : c' = c := Option.some_inj.mp (hc'.symm.trans (hclients ▸ hc))
        exact hauth'
      · obtain rfl := Option.some_inj.mp (hcurrent.symm.trans hphone)
        exact absurd (hc'.symm.trans (hclients ▸ hnone)) (by simp)
  | popped q client hclients hcurrent htask hleaves =>
      refine ⟨fun phone c hc => ?_, fun phone hphone c hc => ?_, fun phone hphone hnone => ?_⟩
      · exact (h.known phone c (of_popped hclients hc)).trans_le hgrows.1
      · exact hgrows.2 c (h.authorised phone (hcurrent ▸ hphone) c (of_popped hclients hc))
      · rcases eq_or_ne phone q with rfl | hne
        · subst htask
          exact leaving_self hi
        · have hnone' : s.worker.clients phone = none := by
            simpa [Loop.advance, hclients, hne] using hnone
          exact leaving_of_ne (h.leaving phone (hcurrent ▸ hphone) hnone') hi (by simp [hleaves])
  | forgotten q hclients hcurrent hleaves =>
      have hstill : ∀ phone, w.currentPhone = some phone →
          s.worker.currentPhone = some phone ∧ phone ≠ q := fun phone hphone => by
        replace hphone := hcurrent.symm.trans hphone
        split_ifs at hphone with hforgot
        refine ⟨hphone, ?_⟩
        rintro rfl
        exact hforgot hphone
      refine ⟨fun phone c hc => ?_, fun phone hphone c hc => ?_, fun phone hphone hnone => ?_⟩
      · exact (h.known phone c (hclients ▸ hc)).trans_le hgrows.1
      · exact hgrows.2 c (h.authorised phone (hstill phone hphone).1 c (hclients ▸ hc))
      · obtain ⟨hphone, hne⟩ := hstill phone hphone
        exact leaving_of_ne (h.leaving phone hphone (hclients ▸ hnone)) hi
          fun hleaves' => hne (hleaves phone hleaves')

theorem spawned (h : Current alive s) : Current alive { s with tasks := s.tasks ++ [t] } where
  known := h.known
  authorised := h.authorised
  leaving phone hphone hnone := by
    obtain ⟨t', ht', hleaves⟩ := h.leaving phone hphone hnone
    exact ⟨t', List.mem_append_left _ ht', hleaves⟩

theorem step {e : Event} (h : Current alive s) (hhonest : Honest alive config s e) :
    Current alive (s.step config e) := by
  cases e with
  | request secret request => exact h.spawned
  | resume i outcome =>
      simp only [Loop.step]
      split
      · rename_i await hi
        cases hnext : s.worker.resume config await outcome with
        | none => exact h
        | some next =>
            obtain ⟨hgrows, heffect⟩ := resume_effect hnext
            exact h.advance hi hhonest hgrows heffect
      · exact h

end Current

theorem current_of_run {alive} {config : Config} {s : Loop}
    (hrun : Machine.Run (step config) (Honest alive config) initial s) : Current alive s :=
  hrun.invariant (Current alive) Current.initial fun _ _ _ h hhonest => h.step hhonest

theorem Idle.not_leaving {s : Loop} (h : s.Idle) (phone : String) : ¬ s.Leaving phone := by
  rintro ⟨t, ht, await, hawait, -⟩
  exact absurd ((h t ht).symm.trans hawait) (by simp)

/-- The current account is logged in, and `/status` does not pretend it is. -/
theorem current_authorised {alive} {config : Config} {s : Loop}
    (hrun : Machine.Run (step config) (Honest alive config) initial s) :
    (∀ phone, s.worker.currentPhone = some phone → ¬ s.Leaving phone →
      ∃ c, s.worker.clients phone = some c ∧ s.worker.Authorised alive c) ∧
    ∀ phone, s.worker.handleHealth = (some phone, true) →
      ∃ c, s.worker.clients phone = some c ∧ s.worker.Authorised alive c := by
  have hcurrent := current_of_run hrun
  constructor
  · intro phone hphone hstays
    cases hclients : s.worker.clients phone with
    | none => exact absurd (hcurrent.leaving phone hphone hclients) hstays
    | some c => exact ⟨c, rfl, hcurrent.authorised phone hphone c hclients⟩
  · intro phone hhealth
    obtain ⟨hphone, hconnected⟩ := Prod.mk.inj hhealth
    cases hclients : s.worker.clients phone with
    | none => simp [hphone, hclients] at hconnected
    | some c => exact ⟨c, rfl, hcurrent.authorised phone hphone c hclients⟩

/-! ## A login of the current phone -/

/-- A login with a code, after which another login of the phone is only begun. -/
def codeLogin : List Event :=
  [.request none (.loginStart samplePhone), .resume 0 .done, .resume 0 .done,
    .resume 0 (.sent "hash" true), .request none (.loginCode samplePhone "12345"), .resume 1 .done,
    .resume 1 .done]

def secondLogin : List Event :=
  codeLogin ++ [.request none (.loginStart samplePhone), .resume 2 .done, .resume 2 .done,
    .resume 2 .done, .resume 2 (.sent "hash" true)]

theorem current_authorised_codeLogin :
    ∃ c, (codeLogin.foldl (step sampleConfig) initial).worker.clients samplePhone = some c ∧
      (codeLogin.foldl (step sampleConfig) initial).worker.Authorised (fun _ => false) c := by
  have hrun : Machine.Run (step sampleConfig) (Honest (fun _ => false) sampleConfig) initial
      (codeLogin.foldl (step sampleConfig) initial) :=
    Machine.Run.refl.list (by decide +kernel)
  have hidle : (codeLogin.foldl (step sampleConfig) initial).Idle := by decide +kernel
  exact (current_authorised hrun).1 samplePhone (by decide +kernel) (hidle.not_leaving samplePhone)

theorem secondLogin_unauthorised :
    Machine.Run (step sampleConfig) (fun _ _ => True) initial
        (secondLogin.foldl (step sampleConfig) initial) ∧
      (secondLogin.foldl (step sampleConfig) initial).Idle ∧
      (secondLogin.foldl (step sampleConfig) initial).worker.handleHealth =
        (some samplePhone, true) ∧
      ¬ ∃ c, (secondLogin.foldl (step sampleConfig) initial).worker.clients samplePhone = some c ∧
        (secondLogin.foldl (step sampleConfig) initial).worker.Authorised (fun _ => true) c := by
  have hclients : (secondLogin.foldl (step sampleConfig) initial).worker.clients samplePhone =
      some 1 := by
    decide +kernel
  refine ⟨Machine.Run.refl.list (by simp [Machine.AllowedList, secondLogin, codeLogin]), ?_, ?_, ?_⟩
  · decide +kernel
  · decide +kernel
  · rintro ⟨c, hc, hauth⟩
    obtain rfl := Option.some_inj.mp (hclients.symm.trans hc)
    revert hauth
    decide +kernel

end Loop

end SocialMonitor.Sidecar

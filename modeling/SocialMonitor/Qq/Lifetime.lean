import SocialMonitor.Qq.Connection

/-!
# Shutdown and abandonment

`onModuleDestroy` ends what it knows of.  A call of `connect` that is in progress
goes on, and a call that cannot make its socket arms no timer.
-/

namespace SocialMonitor.Qq

open Js Reconnect

namespace QqGatewayService

variable {valid : String → Bool} {s : QqGatewayService}

abbrev Reached (valid : String → Bool) (s t : QqGatewayService) : Prop :=
  Machine.Run (step valid) (fun _ _ => True) s t

/-! ## Shutdown -/

/-- From here on no socket is created, no timer is armed and no socket is open. -/
def Final (valid : String → Bool) (s : QqGatewayService) : Prop :=
  ∀ t, Reached valid s t → t.sockets.length = s.sockets.length ∧
    t.heartbeatTimer = none ∧ t.reconnectTimer = none ∧ ∀ w ∈ t.sockets, ¬ w.readyState.Open

/-- No call of `connect` will open a socket, and no socket but `this.ws` is open. -/
structure Settled (valid : String → Bool) (s : QqGatewayService) : Prop where
  calls : ∀ g ∈ s.connecting, g.Doomed valid
  sockets : ∀ k, ∀ w ∈ s.sockets[k]?, w.readyState.Open → s.ws = some k

theorem final_of_quiet (h : s.client.Quiet valid) : Final valid s := by
  intro t hrun
  have hclient := hrun.map (fun _ _ => True) client Event.act (fun s e => s.client_step valid e)
      (fun _ _ => id)
  have hquiet := hclient.invariant
    (fun c => c.Quiet valid ∧ c.sockets.length = s.client.sockets.length) ⟨h, rfl⟩
    fun c e _ hc _ => ⟨(Client.quiet_step hc.1 e).1, (Client.quiet_step hc.1 e).2.trans hc.2⟩
  obtain ⟨hquiet, hlength⟩ := hquiet
  refine ⟨by simpa [client] using hlength, by simpa [client] using hquiet.heartbeat,
    by simpa [client] using hquiet.timer, fun w hw => hquiet.sockets w.readyState ?_⟩
  exact List.mem_map_of_mem hw

theorem quiet_destroy (h : Settled valid s) : (step valid s .destroy).client.Quiet valid := by
  rw [client_step]
  apply Client.quiet_stop h.calls
  intro k p hk hp
  rw [client_sockets_getElem?] at hk
  obtain ⟨w, hw, rfl⟩ := Option.map_eq_some_iff.mp hk
  exact h.sockets k w hw hp

/-- What is left open by the shutdown stays open. -/
theorem Final.sockets (h : Final valid (step valid s .destroy)) {k : ℕ} {w : WebSocket}
    (hk : s.sockets[k]? = some w) (hw : w.readyState.Open) : s.ws = some k := by
  by_contra hne
  have hstate : (step valid s .destroy).client.sockets[k]? = some w.readyState := by
    rw [client_step]
    exact (Client.getElem?_closeCurrent
      (c := { s.client with stopped := true, heartbeat := false, timer := false })
      hne).trans (by simp [client, hk])
  rw [client_sockets_getElem?] at hstate
  obtain ⟨w', hw', hsame⟩ := Option.map_eq_some_iff.mp hstate
  exact (h _ .refl).2.2.2 w' (List.mem_of_getElem? hw') (hsame ▸ hw)

/-- A call that the shutdown finds in progress opens its socket. -/
theorem Final.calls {url : String} (hurl : url ≠ "") (hvalid : valid url = true)
    (h : Final valid (step valid s .destroy)) {g : Stage String} (hg : g ∈ s.connecting) :
    g.Doomed valid := by
  by_contra hopens
  obtain ⟨i, hi⟩ := List.mem_iff_getElem?.mp hg
  have hcalls : (step valid s .destroy).client.connecting = s.connecting := by
    rw [client_step]
    exact Client.connecting_closeCurrent _
  have hopen := Client.foldl_callEvents (c := (step valid s .destroy).client)
      (hcalls ▸ hi) hopens hvalid
  rw [← map_act_callEvents hurl, ← client_foldl] at hopen
  have hcall : Machine.AllowedList (step valid) (fun _ _ => True) (step valid s .destroy)
      (callEvents i url g) := by
    cases g <;> simp [callEvents, Machine.AllowedList]
  have hlength := (h _ (Machine.Run.refl.list hcall)).1
  have hgrown := congrArg (fun c : Client String => c.sockets.length) hopen
  simp [client, hlength] at hgrown

theorem shutdown_final_iff {url : String} (hurl : url ≠ "") (hvalid : valid url = true) :
    Final valid (step valid s .destroy) ↔ Settled valid s := by
  constructor
  · exact fun h => ⟨fun g hg => h.calls hurl hvalid hg, fun k w hw hopen => h.sockets hw hopen⟩
  · exact fun h => final_of_quiet (quiet_destroy h)

def onlineEvents : List Event := callEvents 0 gatewayUrl .resolving ++ [.opened 0]

/-- A bot that is connected is shut down for good. -/
theorem shutdown_final_online :
    Final onlyGateway (step onlyGateway (onlineEvents.foldl (step onlyGateway) started)
      .destroy) := by
  have hclient : (onlineEvents.foldl (step onlyGateway) started).client =
      ⟨some 0, false, false, false, [.opened], []⟩ := by
    rw [client_foldl]
    decide +kernel
  have hcalls : (onlineEvents.foldl (step onlyGateway) started).connecting = [] :=
    congrArg Client.connecting hclient
  have hlength : (onlineEvents.foldl (step onlyGateway) started).sockets.length = 1 := by
    simpa [client] using congrArg (fun c : Client String => c.sockets.length) hclient
  refine (shutdown_final_iff (show gatewayUrl ≠ "" by decide) (by decide)).mpr ?_
  constructor
  · simp [hcalls]
  · intro k w hw _
    have hlt := (List.getElem?_eq_some_iff.mp hw).1
    obtain rfl : k = 0 := by omega
    exact congrArg Client.current hclient

/-- The first call of `connect` survives a shutdown. -/
theorem shutdown_not_final : Reached onlyGateway started started ∧
    ¬ Final onlyGateway (step onlyGateway started .destroy) :=
  ⟨.refl, fun h => h.calls (g := .resolving) (show gatewayUrl ≠ "" by decide)
    (by decide) List.mem_cons_self⟩

/-! ## Abandonment -/

/-- A call of `connect` is in progress, the reconnect timer is pending, or a
socket that is not closed reports to the service. -/
def Attended (s : QqGatewayService) : Prop :=
  s.connecting ≠ [] ∨ s.reconnectTimer ≠ none ∨ ∃ w ∈ s.sockets, w.readyState ≠ .closed

/-- A socket is constructed for a valid address only. -/
def UrlAccepted (valid : String → Bool) (s : QqGatewayService) : Event → Prop
  | .authorized i (some _) => ∀ url, s.connecting[i]? = some (.authorizing url) → valid url = true
  | _ => True

theorem attended_iff : Attended s ↔ s.client.Attended := by
  simp [Attended, Client.Attended, client, Option.isSome_iff_ne_none]

theorem accepted_of_urlAccepted {e : Event} (h : UrlAccepted valid s e) :
    s.client.Accepted valid e.act := by
  cases e with
  | authorized i token =>
      cases token with
      | none => exact fun hgranted => absurd hgranted (by simp)
      | some token => exact fun _ => h
  | message k data =>
      rcases act_message k data with hact | hact | hact <;> rw [hact] <;> trivial
  | _ => trivial

theorem never_stranded (hrun : Machine.Run (step valid) (UrlAccepted valid) started s)
    (hup : s.shuttingDown = false) : Attended s := by
  have hclient := hrun.map (Client.Accepted valid) client Event.act
      (fun s e => s.client_step valid e) (fun _ _ => accepted_of_urlAccepted)
  have hattended := hclient.invariant (fun c => c.stopped = false → c.Attended)
    (fun _ => Or.inl (by simp [client, started, onModuleInit, QqGatewayService.connect]))
    fun c e _ hc haccepted hstopped =>
      Client.attended_step (hc (Client.running_of_step hstopped)) haccepted hstopped
  exact attended_iff.mpr (hattended hup)

/-- The address that the platform gives is refused. -/
def refusedEvents : List Event :=
  [.resolved 0 (some ⟨true, some "gateway.example/ws"⟩), .authorized 0 (some "tok123")]

/-- Nothing is left that would connect again. -/
theorem refused_stranded :
    Reached onlyGateway started (refusedEvents.foldl (step onlyGateway) started) ∧
    (refusedEvents.foldl (step onlyGateway) started).shuttingDown = false ∧
    ¬ Attended (refusedEvents.foldl (step onlyGateway) started) := by
  have hclient : (refusedEvents.foldl (step onlyGateway) started).client =
      ⟨none, false, false, false, [], []⟩ := by
    rw [client_foldl]
    decide +kernel
  refine ⟨Machine.Run.refl.list (by simp [Machine.AllowedList, refusedEvents]),
    congrArg Client.stopped hclient, ?_⟩
  rw [attended_iff, hclient]
  simp [Client.Attended]

/-- The bot is connected, loses its socket, and cannot resolve the address again. -/
def lostEvents : List Event := onlineEvents ++ [.closed 0, .reconnect, .resolved 0 none]

theorem lost_attended : Attended (lostEvents.foldl (step onlyGateway) started) := by
  have hrun : Machine.Run (step onlyGateway) (UrlAccepted onlyGateway) started
      (lostEvents.foldl (step onlyGateway) started) := by
    refine Machine.Run.refl.list ⟨trivial, ?_, trivial, trivial, trivial, trivial, trivial⟩
    have hcalls : (step onlyGateway started
        (.resolved 0 (some ⟨true, some gatewayUrl⟩))).connecting =
        [.authorizing gatewayUrl] := by decide +kernel
    intro url hurl
    obtain rfl : gatewayUrl = url := by simpa [hcalls] using hurl
    decide
  have hup : (lostEvents.foldl (step onlyGateway) started).client.stopped = false := by
    rw [client_foldl]
    decide +kernel
  exact never_stranded hrun hup

end QqGatewayService

end SocialMonitor.Qq

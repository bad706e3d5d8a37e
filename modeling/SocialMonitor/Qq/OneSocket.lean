import SocialMonitor.Qq.Connection

/-!
# One live socket

The handlers of a socket are closures over the service, not over the socket: the
end of an old socket is taken for the end of the current one.  As long as the
old ones end first, the current socket is the only one that lives.
-/

namespace SocialMonitor.Qq

open Js Reconnect

namespace QqGatewayService

variable {valid : String → Bool} {s : QqGatewayService}

/-- Every live socket is `this.ws`. -/
def OneSocket (s : QqGatewayService) : Prop :=
  ∀ k, ∀ w ∈ s.sockets[k]?, w.readyState.Live → s.ws = some k

/-- A socket that is not `this.ws` is closed only while there is no `this.ws`
and no call of `connect`, or after the shutdown. -/
def ClosesInOrder (s : QqGatewayService) : Event → Prop
  | .closed k =>
      ∀ w ∈ s.sockets[k]?, w.readyState ≠ .closed →
        s.ws = some k ∨ s.ws = none ∧ (s.connecting = [] ∨ s.shuttingDown = true)
  | _ => True

instance {e : Event} : Decidable (ClosesInOrder s e) := by
  cases e <;> unfold ClosesInOrder <;> infer_instance

theorem readyState_eq_some {k : ℕ} {p : ReadyState} :
    s.readyState k = some p ↔ ∃ w ∈ s.sockets[k]?, w.readyState = p := by
  simp [readyState]

theorem closesInOrder_iff {e : Event} : ClosesInOrder s e ↔ s.client.InOrder e.act := by
  cases e with
  | closed k =>
      simp only [ClosesInOrder, Event.act, Client.InOrder, client_sockets_getElem?,
        readyState_eq_some]
      constructor
      · rintro h ⟨p, ⟨w, hw, rfl⟩, hp⟩
        exact h w hw hp
      · exact fun h w hw hp => h ⟨_, ⟨w, hw, rfl⟩, hp⟩
  | message k data =>
      refine iff_of_true trivial ?_
      rcases act_message k data with hact | hact | hact <;> rw [hact] <;> trivial
  | _ => exact Iff.rfl

theorem oneSocket_iff : OneSocket s ↔ ¬ s.client.Strayed := by
  simp only [OneSocket, Client.Strayed, client_sockets_getElem?, readyState_eq_some]
  constructor
  · rintro h ⟨k, p, ⟨w, hw, rfl⟩, hp, hne⟩
    exact hne (h k w hw hp)
  · intro h k w hw hp
    by_contra hne
    exact h ⟨k, _, ⟨w, hw, rfl⟩, hp, hne⟩

theorem single_of_run (hrun : Machine.Run (step valid) ClosesInOrder started s) :
    s.client.Single := by
  have hclient := hrun.map Client.InOrder client Event.act (fun s e => s.client_step valid e)
      (fun _ _ => closesInOrder_iff.mp)
  exact hclient.invariant Client.Single Client.single_start fun _ _ _ h horder =>
    Client.single_step h horder

theorem scheduleReconnect_ws : s.scheduleReconnect.ws = s.ws ∧
    s.scheduleReconnect.heartbeatTimer = s.heartbeatTimer := by
  unfold scheduleReconnect
  split_ifs <;> exact ⟨rfl, rfl⟩

theorem handleClose_ws : s.handleClose.ws = none ∧ s.handleClose.heartbeatTimer = none := by
  unfold handleClose
  dsimp only
  split_ifs
  · exact ⟨rfl, rfl⟩
  · exact scheduleReconnect_ws

theorem one_socket (hrun : Machine.Run (step valid) ClosesInOrder started s) :
    OneSocket s ∧ ∀ k, ClosesInOrder s (.closed k) → s.ws ≠ some k →
      (step valid s (.closed k)).ws = s.ws ∧
        (step valid s (.closed k)).heartbeatTimer = s.heartbeatTimer := by
  have hsingle := single_of_run hrun
  refine ⟨oneSocket_iff.mpr hsingle.not_strayed, fun k horder hk => ?_⟩
  have hidle : ∀ p, s.readyState k = some p → p ≠ .closed → s.ws = none ∧
      s.heartbeatTimer = none := by
    intro p hp hne
    obtain ⟨w, hw, rfl⟩ := readyState_eq_some.mp hp
    rcases horder w hw hne with hws | ⟨hnone, -⟩
    · exact absurd hws hk
    · exact ⟨hnone, by simpa [client] using hsingle.heartbeat_eq_false hnone⟩
  simp only [step]
  split
  · exact ⟨rfl, rfl⟩
  · exact ⟨rfl, rfl⟩
  · rename_i p hne hp
    obtain ⟨hnone, hbeat⟩ := hidle p hp hne
    rw [hnone, hbeat]
    exact handleClose_ws

/-! ## Old sockets that end late -/

/-- The events by which a client opens two sockets. -/
def splitEvents (g : Stage String) (url : String) : List Event :=
  .reconnect ::
    (match g with
      | .resolving => .resolved 0 none
      | .authorizing _ => .authorized 0 none) ::
    (callEvents 0 url .resolving ++ .reconnect :: callEvents 0 url .resolving)

theorem map_act_splitEvents (g : Stage String) {url : String} (hurl : url ≠ "") :
    (splitEvents g url).map Event.act = Client.splitEvents g url := by
  cases g <;>
    simp [splitEvents, Client.splitEvents, Client.bothEvents, map_act_callEvents hurl, Event.act,
      Stage.failure, resolveGatewayUrl]

theorem splitEvents_inOrder (g : Stage String) (url : String) (s : QqGatewayService) :
    Machine.AllowedList (step valid) ClosesInOrder s (splitEvents g url) := by
  cases g <;> simp [splitEvents, callEvents, Machine.AllowedList, ClosesInOrder]

/-- The order cannot be given up: after a socket that ends out of order the
service may lose a live socket without another one. -/
theorem late_close_splits {url : String} (hurl : url ≠ "") (hvalid : valid url = true)
    (hrun : Machine.Run (step valid) ClosesInOrder started s) {e : Event}
    (horder : ¬ ClosesInOrder s e) :
    ∃ t, Machine.Run (step valid) ClosesInOrder (step valid s e) t ∧ ¬ OneSocket t := by
  obtain ⟨k, rfl⟩ : ∃ k, e = .closed k := by
    cases e with
    | closed k => exact ⟨k, rfl⟩
    | _ => exact absurd trivial horder
  rw [closesInOrder_iff] at horder
  rcases (single_of_run hrun).strayed hvalid horder with hstrayed | ⟨g, hstrayed⟩
  · refine ⟨_, .refl, ?_⟩
    rw [oneSocket_iff, client_step, not_not]
    exact hstrayed
  · refine ⟨_, Machine.Run.refl.list (splitEvents_inOrder g url _), ?_⟩
    rw [oneSocket_iff, client_foldl, map_act_splitEvents g hurl, client_step, not_not]
    exact hstrayed

def helloFrame : List Char := "\x7b\"op\":10,\"d\":\x7b\"heartbeat_interval\":45000\x7d\x7d".toList

def reconnectFrame : List Char := "\x7b\"op\":7\x7d".toList

def reconnectEvents : List Event :=
  callEvents 0 gatewayUrl .resolving ++
    [.opened 0, .message 0 helloFrame, .message 0 reconnectFrame]

/-- The old socket ends before the timer fires. -/
def earlyEvents : List Event :=
  reconnectEvents ++ [.closed 0, .reconnect] ++ callEvents 0 gatewayUrl .resolving

/-- The old socket is still closing when the new one has been greeted. -/
def lateEvents : List Event :=
  reconnectEvents ++ [.reconnect] ++ callEvents 0 gatewayUrl .resolving ++
    [.opened 1, .message 1 helloFrame]

theorem act_frames : (Event.message 0 helloFrame).act = .hello 0 ∧
    (Event.message 1 helloFrame).act = .hello 1 ∧
    (Event.message 0 reconnectFrame).act = .drop 0 := by
  decide +kernel

theorem reconnect_client : (reconnectEvents.foldl (step onlyGateway) started).client =
    ⟨none, false, true, false, [.closing true], []⟩ := by
  obtain ⟨hhello, -, hreconnect⟩ := act_frames
  rw [client_foldl, reconnectEvents, List.map_append, map_act_callEvents (by decide)]
  simp only [List.map_cons, List.map_nil, hhello, hreconnect]
  rfl

theorem one_socket_early : OneSocket (earlyEvents.foldl (step onlyGateway) started) ∧
    (earlyEvents.foldl (step onlyGateway) started).ws = some 1 := by
  have hclosed : ClosesInOrder (reconnectEvents.foldl (step onlyGateway) started) (.closed 0) := by
    rw [closesInOrder_iff, reconnect_client]
    exact fun _ => Or.inr ⟨rfl, Or.inl rfl⟩
  have hrun : Machine.Run (step onlyGateway) ClosesInOrder started
      (earlyEvents.foldl (step onlyGateway) started) := by
    rw [earlyEvents, List.append_assoc, List.foldl_append]
    have hfirst : Machine.Run (step onlyGateway) ClosesInOrder started
        (reconnectEvents.foldl (step onlyGateway) started) :=
      Machine.Run.refl.list
        (by simp [Machine.AllowedList, reconnectEvents, callEvents, ClosesInOrder])
    refine hfirst.list ⟨hclosed, ?_⟩
    simp [Machine.AllowedList, callEvents, ClosesInOrder]
  have hearly : (earlyEvents.foldl (step onlyGateway) started).client =
      ⟨some 1, false, false, false, [.closed, .connecting], []⟩ := by
    rw [earlyEvents, List.append_assoc, List.foldl_append, client_foldl, reconnect_client,
      List.map_append, map_act_callEvents (by decide)]
    rfl
  refine ⟨(one_socket hrun).1, ?_⟩
  rw [← client_current, hearly]

/-- The end of the old socket takes the new one from the service. -/
theorem late_close_strays :
    Machine.Run (step onlyGateway) (fun _ _ => True) started
      (lateEvents.foldl (step onlyGateway) started) ∧
      (lateEvents.foldl (step onlyGateway) started).ws = some 1 ∧
      (lateEvents.foldl (step onlyGateway) started).heartbeatTimer ≠ none ∧
      (step onlyGateway (lateEvents.foldl (step onlyGateway) started) (.closed 0)).ws = none ∧
      (step onlyGateway (lateEvents.foldl (step onlyGateway) started) (.closed 0)).heartbeatTimer =
        none ∧
      ¬ OneSocket (step onlyGateway (lateEvents.foldl (step onlyGateway) started) (.closed 0)) := by
  have hlate : (lateEvents.foldl (step onlyGateway) started).client =
      ⟨some 1, true, false, false, [.closing true, .opened], []⟩ := by
    obtain ⟨-, hhello, -⟩ := act_frames
    rw [lateEvents, List.append_assoc, List.append_assoc, List.foldl_append, client_foldl,
      reconnect_client, List.map_append, List.map_append, map_act_callEvents (by decide)]
    simp only [List.map_cons, List.map_nil, hhello]
    rfl
  have hclosed : (step onlyGateway (lateEvents.foldl (step onlyGateway) started)
      (.closed 0)).client =
      ⟨none, false, true, false, [.closed, .opened], []⟩ := by
    rw [client_step, hlate]
    rfl
  refine ⟨Machine.Run.refl.list ?_, ?_, ?_, ?_, ?_, ?_⟩
  · simp [Machine.AllowedList, lateEvents, reconnectEvents, callEvents]
  · rw [← client_current, hlate]
  · rw [← Option.isSome_iff_ne_none, ← client_heartbeat, hlate]
  · rw [← client_current, hclosed]
  · rw [← Option.not_isSome_iff_eq_none, ← client_heartbeat, hclosed]
    simp
  · rw [oneSocket_iff, hclosed]
    exact fun h => h ⟨1, .opened, rfl, trivial, by simp⟩

end QqGatewayService

end SocialMonitor.Qq

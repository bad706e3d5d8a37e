import SocialMonitor.Runs

/-!
# A client that reconnects

The life of the connections of a client: it opens one socket after another, and
keeps the last of them as its current one.  A connection is prepared in two
stages, each of which may fail; a failure and the end of a socket arm a timer.
-/

namespace Reconnect

/-- A closing socket whether `close` was called on it. -/
inductive ReadyState where
  | connecting
  | opened
  | closing (called : Bool)
  | closed
deriving DecidableEq

namespace ReadyState

/-- `close` was not called, and the socket is not closed. -/
def Live : ReadyState → Prop
  | connecting => True
  | opened => True
  | closing called => called = false
  | closed => False

instance : DecidablePred Live
  | connecting => .isTrue trivial
  | opened => .isTrue trivial
  | closing called => inferInstanceAs (Decidable (called = false))
  | closed => .isFalse id

def Open (p : ReadyState) : Prop := p = connecting ∨ p = opened

instance : DecidablePred Open := fun p => inferInstanceAs (Decidable (p = connecting ∨ p = opened))

def close : ReadyState → ReadyState
  | closed => closed
  | _ => closing true

theorem Open.live {p : ReadyState} : p.Open → p.Live := by
  rintro (rfl | rfl) <;> trivial

@[simp] theorem close_not_live (p : ReadyState) : ¬ p.close.Live := by
  cases p <;> simp [close, Live]

@[simp] theorem close_eq_closed {p : ReadyState} : p.close = closed ↔ p = closed := by
  cases p <;> simp [close]

end ReadyState

inductive Stage (U : Type) where
  | resolving
  | authorizing (url : U)
deriving DecidableEq

structure Client (U : Type) where
  current : Option ℕ
  heartbeat : Bool
  timer : Bool
  stopped : Bool
  sockets : List ReadyState
  connecting : List (Stage U)
deriving DecidableEq

/-- What happens to a client; `idle` stands for what its connections do not notice. -/
inductive Event (U : Type) where
  | resolved (i : ℕ) (url : Option U)
  | authorized (i : ℕ) (granted : Bool)
  | opened (k : ℕ)
  | hello (k : ℕ)
  | drop (k : ℕ)
  | closing (k : ℕ)
  | closed (k : ℕ)
  | timer
  | stop
  | idle
deriving DecidableEq

namespace Stage

variable {U : Type}

/-- The event by which the first call gives up in this stage. -/
def failure : Stage U → Event U
  | resolving => .resolved 0 none
  | authorizing _ => .authorized 0 false

def Doomed (valid : U → Bool) : Stage U → Prop
  | resolving => False
  | authorizing url => valid url = false

end Stage

namespace Client

variable {U : Type}

def schedule (c : Client U) : Client U := { c with timer := c.timer || !c.stopped }

def connect (c : Client U) : Client U := { c with connecting := c.connecting ++ [.resolving] }

def closeCurrent (c : Client U) : Client U :=
  match c.current with
  | some k => { c with sockets := c.sockets.modify k .close, current := none }
  | none => c

def settle (c : Client U) (i : ℕ) : Client U := { c with connecting := c.connecting.eraseIdx i }

def setSocket (c : Client U) (k : ℕ) (p : ReadyState) : Client U :=
  { c with sockets := c.sockets.set k p }

def start : Client U := connect ⟨none, false, false, false, [], []⟩

/-- `valid` tells the addresses that a socket can be made for. -/
def step (valid : U → Bool) (c : Client U) : Event U → Client U
  | .resolved i url =>
      match c.connecting[i]?, url with
      | some .resolving, some url => { c with connecting := c.connecting.set i (.authorizing url) }
      | some .resolving, none => (c.settle i).schedule
      | _, _ => c
  | .authorized i granted =>
      match c.connecting[i]? with
      | some (.authorizing url) =>
          if granted then
            if valid url then
              { c.settle i with
                current := some c.sockets.length
                sockets := c.sockets ++ [.connecting] }
            else c.settle i
          else (c.settle i).schedule
      | _ => c
  | .opened k => if c.sockets[k]? = some .connecting then c.setSocket k .opened else c
  | .hello k => if c.sockets[k]? = some .opened then { c with heartbeat := true } else c
  | .drop k =>
      if c.sockets[k]? = some .opened
      then ({ c with heartbeat := false }.closeCurrent).schedule else c
  | .closing k => if c.sockets[k]? = some .opened then c.setSocket k (.closing false) else c
  | .closed k =>
      match c.sockets[k]? with
      | none => c
      | some .closed => c
      | some _ => ({ c.setSocket k .closed with heartbeat := false, current := none }).schedule
  | .timer => if c.timer then { c with timer := false }.connect else c
  | .stop => ({ c with stopped := true, heartbeat := false, timer := false }).closeCurrent
  | .idle => c

/-! ## One live socket -/

/-- A socket that is not the current one may only end while nothing newer is
under way. -/
def InOrder (c : Client U) : Event U → Prop
  | .closed k =>
      (∃ p, c.sockets[k]? = some p ∧ p ≠ .closed) →
        c.current = some k ∨ c.current = none ∧ (c.connecting = [] ∨ c.stopped = true)
  | _ => True

/-- At most one of a call, the timer and the current socket carries the client on. -/
structure Single (c : Client U) : Prop where
  live : ∀ k p, c.sockets[k]? = some p → p.Live → c.current = some k
  current : ∀ k, c.current = some k → ∃ p, c.sockets[k]? = some p ∧ p.Live
  heartbeat : c.heartbeat = true → c.current ≠ none
  pending : c.connecting.length + c.timer.toNat + c.current.toList.length ≤ 1

theorem single_start : Single (start : Client U) where
  live := by simp [start, connect]
  current := by simp [start, connect]
  heartbeat := by simp [start, connect]
  pending := by simp [start, connect]

namespace Single

variable {c : Client U}

theorem current_of_connecting (h : Single c) {i : ℕ} {g : Stage U}
    (hi : c.connecting[i]? = some g) :
    c.current = none ∧ c.timer = false ∧ (c.settle i).connecting = [] := by
  have hlt : i < c.connecting.length := (List.getElem?_eq_some_iff.mp hi).1
  have hpending := h.pending
  have hsettle : (c.settle i).connecting.length = 0 := by
    simp only [settle, List.length_eraseIdx_of_lt hlt]
    omega
  refine ⟨?_, ?_, List.length_eq_zero_iff.mp hsettle⟩
  · cases hc : c.current with
    | none => rfl
    | some k =>
        simp only [hc, Option.toList_some, List.length_singleton] at hpending
        omega
  · cases ht : c.timer with
    | false => rfl
    | true =>
        simp only [ht, Bool.toNat_true] at hpending
        omega

theorem of_none (hlive : ∀ (k : ℕ) (p : ReadyState), c.sockets[k]? = some p → ¬ p.Live)
    (hnone : c.current = none)
    (hbeat : c.heartbeat = false) (hpending : c.connecting.length + c.timer.toNat ≤ 1) :
    Single c where
  live := fun k p hk hp => absurd hp (hlive k p hk)
  current := by simp [hnone]
  heartbeat := by simp [hbeat]
  pending := by simpa [hnone] using hpending

theorem not_live (h : Single c) (hnone : c.current = none) {k : ℕ} {p : ReadyState}
    (hk : c.sockets[k]? = some p) : ¬ p.Live := fun hp => by
  simpa [hnone] using h.live k p hk hp

theorem heartbeat_eq_false (h : Single c) (hnone : c.current = none) : c.heartbeat = false := by
  cases hbeat : c.heartbeat with
  | false => rfl
  | true => exact absurd hnone (h.heartbeat hbeat)

end Single

namespace Single

variable {valid : U → Bool} {c : Client U}

/-- After the end or the replacement of whatever was current nothing is live. -/
theorem modify_not_live (h : Single c) {k : ℕ} (hk : c.current = some k)
    {f : ReadyState → ReadyState}
    (hf : ∀ p, ¬ (f p).Live) {j : ℕ} {p : ReadyState} (hj : (c.sockets.modify k f)[j]? = some p) :
    ¬ p.Live := fun hp => by
  rw [List.getElem?_modify] at hj
  split_ifs at hj with hjk
  · obtain ⟨q, -, rfl⟩ := Option.map_eq_some_iff.mp hj
    exact hf q hp
  · have hcurrent := h.live j p (by simpa using hj) hp
    rw [hk] at hcurrent
    exact hjk (Option.some_inj.mp hcurrent)

theorem closeCurrent_not_live (h : Single c) {j : ℕ} {p : ReadyState}
    (hj : c.closeCurrent.sockets[j]? = some p) : ¬ p.Live := by
  unfold closeCurrent at hj
  split at hj
  · rename_i k hk
    exact h.modify_not_live hk ReadyState.close_not_live hj
  · rename_i hnone
    exact h.not_live hnone hj

theorem setSocket (h : Single c) {k : ℕ} {p q : ReadyState} (hk : c.sockets[k]? = some p)
    (hp : p.Live) (hq : q.Live) : Single (c.setSocket k q) where
  live j r hj hr := by
    simp only [Client.setSocket, List.getElem?_set] at hj
    split_ifs at hj with hjk
    · subst hjk
      exact h.live k p hk hp
    · exact h.live j r hj hr
  current j hj := by
    obtain ⟨r, hjr, hr⟩ := h.current j hj
    rcases eq_or_ne k j with rfl | hne
    · exact ⟨q, by simp [Client.setSocket, (List.getElem?_eq_some_iff.mp hk).1], hq⟩
    · exact ⟨r, by simpa [Client.setSocket, List.getElem?_set_ne hne] using hjr, hr⟩
  heartbeat := h.heartbeat
  pending := h.pending

theorem settle_schedule (h : Single c) {i : ℕ} {g : Stage U} (hi : c.connecting[i]? = some g) :
    Single (c.settle i).schedule := by
  obtain ⟨hnone, -, hconnecting⟩ := h.current_of_connecting hi
  refine of_none (fun k p hk => h.not_live (p := p) hnone hk) hnone (h.heartbeat_eq_false hnone) ?_
  have hle := Bool.toNat_le ((c.settle i).timer || !(c.settle i).stopped)
  simpa [schedule, hconnecting] using hle

theorem resolved (h : Single c) (i : ℕ) (url : Option U) :
    Single (c.step valid (.resolved i url)) := by
  cases hi : c.connecting[i]? with
  | none => simpa [step, hi] using h
  | some g =>
      cases g with
      | authorizing _ => simpa [step, hi] using h
      | resolving =>
          cases url with
          | none => simpa [step, hi] using h.settle_schedule hi
          | some url =>
              simp only [step, hi]
              exact ⟨h.live, h.current, h.heartbeat, by simpa using h.pending⟩

theorem authorized (h : Single c) (i : ℕ) (granted : Bool) :
    Single (c.step valid (.authorized i granted)) := by
  cases hi : c.connecting[i]? with
  | none => simpa [step, hi] using h
  | some g =>
      cases g with
      | resolving => simpa [step, hi] using h
      | authorizing url =>
          obtain ⟨hnone, htimer, hconnecting⟩ := h.current_of_connecting hi
          simp only [step, hi]
          split_ifs
          · constructor
            · intro k p hk hp
              rw [List.getElem?_append] at hk
              split_ifs at hk with hlt
              · exact absurd hp (h.not_live hnone hk)
              · have hlen := (List.getElem?_eq_some_iff.mp hk).1
                simp only [List.length_cons, List.length_nil] at hlen
                exact congrArg some (by omega)
            · intro k hk
              obtain rfl := Option.some_inj.mp hk
              exact ⟨.connecting, by simp, trivial⟩
            · simp
            · have : (c.settle i).timer = false := htimer
              simp [hconnecting, this]
          · refine of_none (fun k p hk => h.not_live (p := p) hnone hk) hnone
              (h.heartbeat_eq_false hnone) ?_
            have : (c.settle i).timer = false := htimer
            simp [hconnecting, this]
          · exact h.settle_schedule hi

theorem dropped (h : Single c) {k : ℕ} (hk : c.current = some k) :
    Single ({ c with heartbeat := false }.closeCurrent).schedule := by
  have hpending := h.pending
  have hle := Bool.toNat_le (c.timer || !c.stopped)
  apply of_none
  · intro j p hj
    refine h.closeCurrent_not_live (j := j) ?_
    simpa [schedule, closeCurrent, hk] using hj
  · simp [schedule, closeCurrent, hk]
  · simp [schedule, closeCurrent, hk]
  · simp [hk] at hpending
    simpa [schedule, closeCurrent, hk, hpending.1] using hle

theorem ended (h : Single c) {k : ℕ} {p : ReadyState} (hk : c.sockets[k]? = some p)
    (hp : p ≠ .closed) (horder : InOrder c (.closed k)) :
    Single ({ c.setSocket k .closed with heartbeat := false, current := none }).schedule := by
  have hcase := horder ⟨p, hk, hp⟩
  have hpending := h.pending
  apply of_none
  · intro j q hj hq
    simp only [schedule, Client.setSocket, List.getElem?_set] at hj
    split_ifs at hj with hjk
    · obtain rfl := Option.some_inj.mp hj
      exact hq
    · have hcurrent := h.live j q hj hq
      rcases hcase with hcase | ⟨hcase, -⟩ <;> simp [hcase] at hcurrent
      exact hjk hcurrent
  · rfl
  · rfl
  · have hle := Bool.toNat_le (c.timer || !c.stopped)
    rcases hcase with hcase | ⟨hcase, hempty | hstopped⟩
    · simp [hcase] at hpending
      simpa [schedule, Client.setSocket, hpending.1] using hle
    · simpa [schedule, Client.setSocket, hempty] using hle
    · simpa [schedule, Client.setSocket, hstopped, hcase] using hpending

end Single

/-- Every event in order keeps the connections single. -/
theorem single_step {valid : U → Bool} {c : Client U} {e : Event U} (h : Single c)
    (horder : InOrder c e) : Single (c.step valid e) := by
  have hopened : ∀ {k}, c.sockets[k]? = some .opened → c.current = some k := fun hk =>
    h.live _ _ hk trivial
  cases e with
  | resolved i url => exact h.resolved i url
  | authorized i granted => exact h.authorized i granted
  | opened k =>
      simp only [step]
      split_ifs with hk
      · exact h.setSocket hk trivial trivial
      · exact h
  | hello k =>
      simp only [step]
      split_ifs with hk
      · exact ⟨h.live, h.current, fun _ => by simp [hopened hk], h.pending⟩
      · exact h
  | drop k =>
      simp only [step]
      split_ifs with hk
      · exact h.dropped (hopened hk)
      · exact h
  | closing k =>
      simp only [step]
      split_ifs with hk
      · exact h.setSocket hk trivial rfl
      · exact h
  | closed k =>
      simp only [step]
      split
      · exact h
      · exact h
      · rename_i p hp hk
        exact h.ended hk hp horder
  | timer =>
      simp only [step]
      split_ifs with htimer
      · have hpending := h.pending
        refine ⟨h.live, h.current, h.heartbeat, ?_⟩
        simp only [htimer, Bool.toNat_true] at hpending
        simp only [connect, List.length_append, List.length_singleton, Bool.toNat_false]
        omega
      · exact h
  | stop =>
      have hpending := h.pending
      simp only [step]
      cases hc : c.current with
      | none =>
          refine Single.of_none (fun k p hk => h.not_live (k := k) hc ?_) ?_ ?_ ?_
          · simpa [closeCurrent, hc] using hk
          all_goals simp_all [closeCurrent]
          omega
      | some k =>
          refine Single.of_none (fun j p hj => h.closeCurrent_not_live (j := j) ?_) ?_ ?_ ?_
          · simpa [closeCurrent, hc] using hj
          all_goals simp_all [closeCurrent]
  | idle => exact h

/-! ## Two lives -/

/-- A live socket that is not the current one. -/
def Strayed (c : Client U) : Prop :=
  ∃ k p, c.sockets[k]? = some p ∧ p.Live ∧ c.current ≠ some k

theorem Single.not_strayed {c : Client U} (h : Single c) : ¬ Strayed c := by
  rintro ⟨k, p, hk, hp, hne⟩
  exact hne (h.live k p hk hp)

variable {valid : U → Bool}

/-- The events by which the call `i` opens its socket from a stage. -/
def callEvents (i : ℕ) (url : U) : Stage U → List (Event U)
  | .resolving => [.resolved i (some url), .authorized i true]
  | .authorizing _ => [.authorized i true]

theorem foldl_callEvents {c : Client U} {i : ℕ} {g : Stage U} {url : U}
    (hi : c.connecting[i]? = some g)
    (hg : ¬ g.Doomed valid) (hvalid : valid url = true) :
    (callEvents i url g).foldl (step valid) c =
      { c.settle i with
        current := some c.sockets.length
        sockets := c.sockets ++ [.connecting] } := by
  have hlt : i < c.connecting.length := (List.getElem?_eq_some_iff.mp hi).1
  cases g with
  | resolving =>
      have hset : (c.connecting.set i (.authorizing url))[i]? = some (.authorizing url) :=
        List.getElem?_set_self hlt
      simp only [callEvents, List.foldl_cons, List.foldl_nil, step, hi, hset, hvalid, if_true,
        settle, List.eraseIdx_set_eq]
  | authorizing u =>
      have hu : valid u = true := by simpa [Stage.Doomed] using hg
      simp [callEvents, step, hi, hu]

/-- The events by which a call and the timer open two sockets. -/
def bothEvents (url : U) : List (Event U) :=
  callEvents 0 url .resolving ++ .timer :: callEvents 0 url .resolving

theorem strayed_of_both {c : Client U} {url : U} (hc : c.connecting = [.resolving])
    (htimer : c.timer = true) (hvalid : valid url = true) :
    Strayed ((bothEvents url).foldl (step valid) c) := by
  have hopen : ∀ c : Client U, c.connecting = [.resolving] →
      (callEvents 0 url .resolving).foldl (step valid) c =
        { c.settle 0 with
          current := some c.sockets.length
          sockets := c.sockets ++ [.connecting] } :=
    fun c hc => foldl_callEvents (by simp [hc]) id hvalid
  rw [bothEvents, List.foldl_append, hopen c hc, List.foldl_cons]
  have htimer' : (c.settle 0).timer = true := htimer
  simp only [step, htimer', if_true]
  rw [hopen _ (by simp [connect, settle, hc])]
  exact ⟨c.sockets.length, .connecting, by simp [connect, settle], trivial, by simp [connect]⟩

/-- The events that lead to two sockets once the end of an old socket has armed
the timer during a call. -/
def splitEvents (g : Stage U) (url : U) : List (Event U) := .timer :: g.failure :: bothEvents url

theorem strayed_of_call {c : Client U} {g : Stage U} {url : U} (hc : c.connecting = [g])
    (htimer : c.timer = true) (hstopped : c.stopped = false) (hvalid : valid url = true) :
    Strayed ((splitEvents g url).foldl (step valid) c) := by
  have hcall : ([Event.timer, g.failure].foldl (step valid) c).connecting = [.resolving] ∧
      ([Event.timer, g.failure].foldl (step valid) c).timer = true := by
    cases g <;> simp [step, htimer, hc, connect, settle, schedule, hstopped, Stage.failure]
  exact strayed_of_both hcall.1 hcall.2 hvalid

/-- Out of order, the end of a socket leaves a live socket astray, at once or
after further events in order. -/
theorem Single.strayed {c : Client U} (h : Single c) {k : ℕ} {url : U} (hvalid : valid url = true)
    (horder : ¬ InOrder c (.closed k)) :
    Strayed (c.step valid (.closed k)) ∨
      ∃ g, Strayed ((splitEvents g url).foldl (step valid) (c.step valid (.closed k))) := by
  simp only [InOrder, Classical.not_imp, not_or, not_and] at horder
  obtain ⟨⟨p, hk, hp⟩, hne, hnone⟩ := horder
  have hstep : c.step valid (.closed k) =
      ({ c.setSocket k .closed with heartbeat := false, current := none }).schedule := by
    cases p <;> first | exact absurd rfl hp | simp [step, hk]
  rw [hstep]
  cases hcurrent : c.current with
  | some j =>
      left
      obtain ⟨q, hj, hq⟩ := h.current j hcurrent
      have hkj : k ≠ j := by
        rintro rfl
        exact hne hcurrent
      exact ⟨j, q, by simpa [schedule, Client.setSocket, List.getElem?_set_ne hkj] using hj, hq,
        by simp [schedule]⟩
  | none =>
      right
      obtain ⟨hempty, hstopped⟩ := hnone hcurrent
      have hpending := h.pending
      obtain ⟨g, hg⟩ : ∃ g, c.connecting = [g] := by
        apply List.length_eq_one_iff.mp
        have hpos := List.length_pos_iff.mpr hempty
        omega
      have hrunning : c.stopped = false := by simpa using hstopped
      refine ⟨g, strayed_of_call ?_ ?_ ?_ hvalid⟩
      · simpa [schedule, Client.setSocket] using hg
      · simp [schedule, Client.setSocket, hrunning]
      · simpa [schedule, Client.setSocket] using hrunning

/-! ## Stopped for good -/

structure Quiet (valid : U → Bool) (c : Client U) : Prop where
  stopped : c.stopped = true
  heartbeat : c.heartbeat = false
  timer : c.timer = false
  sockets : ∀ p ∈ c.sockets, ¬ p.Open
  calls : ∀ g ∈ c.connecting, g.Doomed valid

namespace Quiet

variable {c : Client U}

theorem not_open (h : Quiet valid c) {k : ℕ} {p : ReadyState} (hp : p.Open) :
    c.sockets[k]? ≠ some p :=
  fun hk => h.sockets p (List.mem_of_getElem? hk) hp

theorem schedule_eq (h : Quiet valid c) : c.schedule = c := by
  rcases c with ⟨current, heartbeat, timer, stopped, sockets, connecting⟩
  obtain rfl : stopped = true := h.stopped
  obtain rfl : timer = false := h.timer
  rfl

theorem settle (h : Quiet valid c) (i : ℕ) : Quiet valid (c.settle i) :=
  ⟨h.stopped, h.heartbeat, h.timer, h.sockets, fun g hg => h.calls g (List.mem_of_mem_eraseIdx hg)⟩

theorem setSocket (h : Quiet valid c) (k : ℕ) {p : ReadyState} (hp : ¬ p.Open) :
    Quiet valid { c.setSocket k p with heartbeat := false, current := none } := by
  refine ⟨h.stopped, rfl, h.timer, fun q hq => ?_, h.calls⟩
  rcases List.mem_or_eq_of_mem_set hq with hmem | rfl
  · exact h.sockets q hmem
  · exact hp

theorem closeCurrent (h : Quiet valid c) : Quiet valid c.closeCurrent := by
  unfold Client.closeCurrent
  split
  · rename_i k hk
    refine ⟨h.stopped, h.heartbeat, h.timer, fun p hp => ?_, h.calls⟩
    obtain ⟨i, hi⟩ := List.mem_iff_getElem?.mp hp
    rw [List.getElem?_modify] at hi
    obtain ⟨q, hq, rfl⟩ := Option.map_eq_some_iff.mp hi
    split_ifs
    · exact fun hopen => q.close_not_live hopen.live
    · exact h.sockets q (List.mem_of_getElem? hq)
  · exact h

end Quiet

theorem length_closeCurrent (c : Client U) : c.closeCurrent.sockets.length = c.sockets.length := by
  unfold closeCurrent
  split <;> simp

theorem stopped_closeCurrent (c : Client U) : c.closeCurrent.stopped = c.stopped := by
  unfold closeCurrent
  split <;> rfl

theorem connecting_closeCurrent (c : Client U) : c.closeCurrent.connecting = c.connecting := by
  unfold closeCurrent
  split <;> rfl

theorem getElem?_closeCurrent {c : Client U} {k : ℕ} (hk : c.current ≠ some k) :
    c.closeCurrent.sockets[k]? = c.sockets[k]? := by
  unfold closeCurrent
  split
  · rename_i j hj
    have hjk : j ≠ k := by
      rintro rfl
      exact hk hj
    simp [hjk]
  · rfl

/-- A quiet client stays quiet and opens no socket, whatever happens. -/
theorem quiet_step {c : Client U} (h : Quiet valid c) (e : Event U) :
    Quiet valid (c.step valid e) ∧ (c.step valid e).sockets.length = c.sockets.length := by
  cases e with
  | resolved i url =>
      simp only [step]
      split
      · rename_i hi
        exact (h.calls _ (List.mem_of_getElem? hi)).elim
      · rename_i hi
        exact (h.calls _ (List.mem_of_getElem? hi)).elim
      · exact ⟨h, rfl⟩
  | authorized i granted =>
      simp only [step]
      split
      · rename_i url hi
        have hdoomed : valid url = false := h.calls _ (List.mem_of_getElem? hi)
        rw [(h.settle i).schedule_eq, hdoomed]
        simp only [Bool.false_eq_true, if_false, ite_self]
        exact ⟨h.settle i, rfl⟩
      · exact ⟨h, rfl⟩
  | opened k =>
      simp only [step, if_neg (h.not_open (.inl rfl))]
      exact ⟨h, trivial⟩
  | hello k =>
      simp only [step, if_neg (h.not_open (.inr rfl))]
      exact ⟨h, trivial⟩
  | drop k =>
      simp only [step, if_neg (h.not_open (.inr rfl))]
      exact ⟨h, trivial⟩
  | closing k =>
      simp only [step, if_neg (h.not_open (.inr rfl))]
      exact ⟨h, trivial⟩
  | closed k =>
      simp only [step]
      split
      · exact ⟨h, rfl⟩
      · exact ⟨h, rfl⟩
      · have hquiet := h.setSocket k (p := .closed) (by simp [ReadyState.Open])
        rw [hquiet.schedule_eq]
        exact ⟨hquiet, by simp [Client.setSocket]⟩
  | timer =>
      simp only [step, h.timer, Bool.false_eq_true, if_false]
      exact ⟨h, trivial⟩
  | stop =>
      simp only [step]
      exact ⟨Quiet.closeCurrent ⟨rfl, rfl, rfl, h.sockets, h.calls⟩, length_closeCurrent _⟩
  | idle => exact ⟨h, rfl⟩

/-- A client that is stopped when its calls are doomed and only its current
socket is open is quiet. -/
theorem quiet_stop {c : Client U} (hcalls : ∀ g ∈ c.connecting, g.Doomed valid)
    (hsockets : ∀ k p, c.sockets[k]? = some p → p.Open → c.current = some k) :
    Quiet valid (c.step valid .stop) := by
  cases hcurrent : c.current with
  | none =>
      simp only [step, closeCurrent, hcurrent]
      refine ⟨rfl, rfl, rfl, fun p hp hopen => ?_, hcalls⟩
      obtain ⟨k, hk⟩ := List.mem_iff_getElem?.mp hp
      simpa [hcurrent] using hsockets k p hk hopen
  | some j =>
      simp only [step, closeCurrent, hcurrent]
      refine ⟨rfl, rfl, rfl, fun p hp hopen => ?_, hcalls⟩
      obtain ⟨k, hk⟩ := List.mem_iff_getElem?.mp hp
      rw [List.getElem?_modify] at hk
      obtain ⟨q, hq, rfl⟩ := Option.map_eq_some_iff.mp hk
      split_ifs at hopen with hjk
      · exact q.close_not_live hopen.live
      · have hcase := hsockets k q hq hopen
        rw [hcurrent] at hcase
        exact hjk (Option.some_inj.mp hcase)

/-! ## Never left alone -/

/-- Something is under way that will connect or be noticed. -/
def Attended (c : Client U) : Prop :=
  c.connecting ≠ [] ∨ c.timer = true ∨ ∃ p ∈ c.sockets, p ≠ .closed

def Accepted (valid : U → Bool) (c : Client U) : Event U → Prop
  | .authorized i granted =>
      granted = true → ∀ url, c.connecting[i]? = some (.authorizing url) → valid url = true
  | _ => True

theorem attended_schedule {c : Client U} (h : c.schedule.stopped = false) :
    Attended c.schedule := by
  have hstopped : c.stopped = false := h
  exact Or.inr (Or.inl (by simp [schedule, hstopped]))

theorem attended_setSocket {c : Client U} {k : ℕ} {p q : ReadyState} (hk : c.sockets[k]? = some p)
    (hq : q ≠ .closed) : Attended (c.setSocket k q) := by
  have hlt : k < c.sockets.length := (List.getElem?_eq_some_iff.mp hk).1
  exact Or.inr (Or.inr ⟨q, List.mem_set hlt q, hq⟩)

/-- Until it is stopped the client stays attended. -/
theorem attended_step {c : Client U} {e : Event U} (h : Attended c) (haccepted : Accepted valid c e)
    (hstopped : (c.step valid e).stopped = false) : Attended (c.step valid e) := by
  cases e with
  | resolved i url =>
      simp only [step] at hstopped ⊢
      split
      · rename_i hi
        left
        have hlt := (List.getElem?_eq_some_iff.mp hi).1
        simpa using List.ne_nil_of_length_pos (Nat.zero_lt_of_lt hlt)
      · rename_i hi
        simp only [hi] at hstopped
        exact attended_schedule hstopped
      · exact h
  | authorized i granted =>
      simp only [step] at hstopped ⊢
      split
      · rename_i url hi
        simp only [hi] at hstopped
        cases granted with
        | false => exact attended_schedule hstopped
        | true =>
            rw [if_pos rfl, if_pos (haccepted rfl url hi)]
            exact Or.inr (Or.inr ⟨.connecting, by simp, by simp⟩)
      · exact h
  | opened k =>
      simp only [step]
      split_ifs with hk
      · exact attended_setSocket hk (by simp)
      · exact h
  | hello k =>
      simp only [step]
      split_ifs with hk
      · exact h
      · exact h
  | drop k =>
      simp only [step] at hstopped ⊢
      split_ifs at hstopped ⊢ with hk
      · exact attended_schedule hstopped
      · exact h
  | closing k =>
      simp only [step]
      split_ifs with hk
      · exact attended_setSocket hk (by simp)
      · exact h
  | closed k =>
      simp only [step] at hstopped ⊢
      split
      · exact h
      · exact h
      · rename_i p hne hk
        simp only [hk] at hstopped
        exact attended_schedule (by simpa using hstopped)
  | timer =>
      simp only [step]
      split_ifs with htimer
      · exact Or.inl (by simp [connect])
      · exact h
  | stop =>
      have hstop : (c.step valid .stop).stopped = true := stopped_closeCurrent _
      rw [hstop] at hstopped
      exact absurd hstopped (by simp)
  | idle => exact h

theorem running_of_step {c : Client U} {e : Event U} (h : (c.step valid e).stopped = false) :
    c.stopped = false := by
  cases e with
  | resolved i url =>
      simp only [step] at h
      split at h <;> exact h
  | authorized i granted =>
      simp only [step] at h
      split at h
      · split_ifs at h <;> exact h
      · exact h
  | opened k =>
      simp only [step] at h
      split_ifs at h <;> exact h
  | hello k =>
      simp only [step] at h
      split_ifs at h <;> exact h
  | drop k =>
      simp only [step] at h
      split_ifs at h
      · exact (stopped_closeCurrent { c with heartbeat := false }).symm.trans h
      · exact h
  | closing k =>
      simp only [step] at h
      split_ifs at h <;> exact h
  | closed k =>
      simp only [step] at h
      split at h <;> exact h
  | timer =>
      simp only [step] at h
      split_ifs at h <;> exact h
  | stop =>
      have hstop : (c.step valid .stop).stopped = true := stopped_closeCurrent _
      rw [hstop] at h
      exact absurd h (by simp)
  | idle => exact h

end Client

end Reconnect

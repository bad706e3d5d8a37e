import SocialMonitor.Qq.Connection

/-!
# The frames of the gateway

What one frame does to the service, for every text that may arrive.  The payload
is taken as it is parsed: a frame breaks the service when it has no properties,
when it asks for an impossible heartbeat, or when it names a group without a
text.
-/

namespace SocialMonitor.Qq

open Js Reconnect

theorem QQOpcode.code_injective : Function.Injective QQOpcode.code := by
  intro a b h
  cases a <;> cases b <;> first | rfl | exact absurd h (by decide)

namespace QqGatewayService

variable (s : QqGatewayService)

/-! ## Operation codes -/

section Operations

variable {payload : Json} {op op' : QQOpcode}

theorem hasOp_eq_true : hasOp payload op = true ↔ payload.get? "op" = some (.num op.code) := by
  unfold hasOp
  split
  · rename_i x hx
    simp [hx]
  · rename_i hx
    simpa using fun h => hx _ h

theorem hasOp_eq (h : hasOp payload op = true) : hasOp payload op' = decide (op = op') := by
  rw [Bool.eq_iff_iff, hasOp_eq_true, hasOp_eq_true.mp h, decide_eq_true_iff]
  simp [QQOpcode.code_injective.eq_iff]

theorem isNull_of_hasOp (h : hasOp payload op = true) : payload.isNull = false := by
  have hop := hasOp_eq_true.mp h
  cases payload <;> first | rfl | simp [Json.get?] at hop

/-- A payload with an operation code that the service acts on. -/
def Recognized (payload : Json) : Prop :=
  ∃ op ∈ [QQOpcode.hello, .dispatch, .reconnect, .invalidSession], hasOp payload op = true

end Operations

/-- The numeric `s` of a dispatch frame. -/
def sequenceOf (payload : Json) : Option Number :=
  match payload.get? "s" with
  | some (.num seq) => some seq
  | _ => none

section Handlers

variable {payload : Json}

theorem handlePayload_hello (h : hasOp payload .hello = true) : s.handlePayload payload =
    match heartbeatIntervalOf (payload.get? "d") with
    | .ok interval =>
        (({ s with
            heartbeatInterval := if interval.truthy then interval
              else defaultHeartbeatMs } : QqGatewayService).startHeartbeat.identify, .ok ())
    | .error e => (s, .error e) := by
  unfold handlePayload
  exact (if_neg (by simp [isNull_of_hasOp h])).trans (if_pos h)

theorem handlePayload_dispatch (h : hasOp payload .dispatch = true) : s.handlePayload payload =
    ({ s with lastSeq := (sequenceOf payload).or s.lastSeq } : QqGatewayService).handleDispatch
      (typeOf payload) (payload.get? "d") := by
  rw [handlePayload, if_neg (by simp [isNull_of_hasOp h]), if_neg (by simp [hasOp_eq h]), if_pos h]
  unfold sequenceOf
  dsimp only
  congr 1
  cases payload.get? "s" with
  | none => rfl
  | some v => cases v <;> rfl

theorem handlePayload_reconnect (h : hasOp payload .reconnect = true) :
    s.handlePayload payload = (s.closeAndReconnect, .ok ()) := by
  rw [handlePayload, if_neg (by simp [isNull_of_hasOp h]), if_neg (by simp [hasOp_eq h]),
    if_neg (by simp [hasOp_eq h]), if_neg (by simp [hasOp_eq h]), if_pos h]

theorem handlePayload_invalidSession (h : hasOp payload .invalidSession = true) :
    s.handlePayload payload =
      (({ s with sessionId := none } : QqGatewayService).closeAndReconnect, .ok ()) := by
  rw [handlePayload, if_neg (by simp [isNull_of_hasOp h]), if_neg (by simp [hasOp_eq h]),
    if_neg (by simp [hasOp_eq h]), if_neg (by simp [hasOp_eq h]), if_neg (by simp [hasOp_eq h]),
    if_pos h]

theorem hasOp_of_not_recognized (h : ¬ Recognized payload) :
    hasOp payload .hello = false ∧ hasOp payload .dispatch = false ∧
      hasOp payload .reconnect = false ∧ hasOp payload .invalidSession = false := by
  have hop : ∀ op ∈ [QQOpcode.hello, .dispatch, .reconnect, .invalidSession],
      hasOp payload op = false := fun op hmem => Bool.eq_false_iff.mpr fun hop => h ⟨op, hmem, hop⟩
  exact ⟨hop _ (by simp), hop _ (by simp), hop _ (by simp), hop _ (by simp)⟩

theorem handlePayload_other (h : ¬ Recognized payload) : s.handlePayload payload =
    (s, if payload.isNull then .error (.nullProperty "op") else .ok ()) := by
  obtain ⟨hhello, hdispatch, hreconnect, hinvalid⟩ := hasOp_of_not_recognized h
  unfold handlePayload
  rw [hhello, hdispatch, hreconnect, hinvalid]
  cases payload.isNull <;> cases hasOp payload .heartbeatAck <;> rfl

/-- The operations that a payload may have. -/
theorem payload_cases (payload : Json) : hasOp payload .hello = true ∨
    hasOp payload .dispatch = true ∨ hasOp payload .reconnect = true ∨
    hasOp payload .invalidSession = true ∨ ¬ Recognized payload := by
  by_cases h : Recognized payload
  · obtain ⟨op, hmem, hop⟩ := h
    simp only [List.mem_cons, List.not_mem_nil, or_false] at hmem
    rcases hmem with rfl | rfl | rfl | rfl <;> simp [hop]
  · simp [h]

end Handlers

/-! ## Frames that break the service -/

/-- A finite number of at least one. -/
def AtLeastOneMs : Number → Prop
  | .finite x => 1 ≤ x.val
  | _ => False

def SoundHeartbeat : Prop := ∀ interval ∈ s.heartbeatTimer, AtLeastOneMs interval

/-- The text is JSON, of an object with an operation code that the service acts on. -/
def Known (data : List Char) : Prop := ∃ payload ∈ jsonParse data, Recognized payload

/-- The frame does not throw, does nothing unless it is known, and leaves no
impossible heartbeat. -/
structure Unbroken (data : List Char) : Prop where
  returns : (s.handleMessage data).2 = .ok ()
  unknown : ¬ Known data → (s.handleMessage data).1 = s
  heartbeat : (s.handleMessage data).1.SoundHeartbeat

/-- `heartbeat_interval` has a numeric value, which is at least one unless it is
replaced by the default. -/
def SoundInterval (d : Option Json) : Prop :=
  ∃ interval, heartbeatIntervalOf d = .ok interval ∧
    (interval.truthy = true → AtLeastOneMs interval)

/-- The group that a dispatch adds has a text. -/
def GroupHasText (payload : Json) : Prop :=
  (typeOf payload).isText "GROUP_ADD_ROBOT" = true →
    ∀ group ∈ truthy? (payload.get? "d") "group_openid", ∃ text, group.toText = .ok text

/-- What a frame needs of itself. -/
structure HarmlessPayload (payload : Json) : Prop where
  notNull : payload.isNull = false
  interval : hasOp payload .hello = true → SoundInterval (payload.get? "d")
  group : hasOp payload .dispatch = true → GroupHasText payload

/-- The frame arms the heartbeat anew or clears it. -/
def Rearms (payload : Json) : Prop :=
  ∃ op ∈ [QQOpcode.hello, .reconnect, .invalidSession], hasOp payload op = true

def HarmlessFrame (data : List Char) : Prop := ∀ payload ∈ jsonParse data, HarmlessPayload payload

/-- A harmless frame, which finds no impossible heartbeat or ends it. -/
def Harmless (data : List Char) : Prop :=
  HarmlessFrame data ∧ (s.SoundHeartbeat ∨ ∃ payload ∈ jsonParse data, Rearms payload)

instance : DecidablePred AtLeastOneMs
  | .finite x => inferInstanceAs (Decidable (1 ≤ x.val))
  | .infinite _ => .isFalse id
  | .nan => .isFalse id

theorem heartbeatTimer_identify : s.identify.heartbeatTimer = s.heartbeatTimer := by
  unfold identify send
  split_ifs
  · rfl
  · split <;> rfl

theorem heartbeatTimer_closeAndReconnect : s.closeAndReconnect.heartbeatTimer = none := by
  unfold closeAndReconnect scheduleReconnect closeSocket
  split_ifs
  · split <;> rfl
  · split <;> rfl

theorem heartbeatTimer_handleDispatch (type : Json) (data : Option Json) :
    (s.handleDispatch type data).1.heartbeatTimer = s.heartbeatTimer := by
  unfold handleDispatch addGroup
  split_ifs
  · rfl
  · split
    · split_ifs <;> rfl
    · rfl
  · rfl

theorem isText_eq_true {v : Json} {text : String} :
    v.isText text = true ↔ v = .str (utf16 text.toList) := by
  cases v <;> simp [Json.isText]

theorem isText_groupAdd {type : Json}
    (h : (type.isText "READY" || type.isText "RESUMED") = true) :
    type.isText "GROUP_ADD_ROBOT" = false := by
  rw [Bool.or_eq_true, isText_eq_true, isText_eq_true] at h
  rcases h with rfl | rfl <;> decide

theorem handleDispatch_ok {payload : Json} :
    (s.handleDispatch (typeOf payload) (payload.get? "d")).2 = .ok () ↔ GroupHasText payload := by
  unfold handleDispatch GroupHasText
  by_cases hready : ((typeOf payload).isText "READY" || (typeOf payload).isText "RESUMED") = true
  · rw [if_pos hready, isText_groupAdd hready]
    simp
  rw [if_neg hready]
  by_cases hgroup : (typeOf payload).isText "GROUP_ADD_ROBOT" = true
  · rw [if_pos hgroup]
    cases truthy? (payload.get? "d") "group_openid" with
    | none => simp
    | some group =>
        cases htext : group.toText with
        | error e => simp [hgroup, htext, Except.map]
        | ok text => simp [htext, Except.map]
  · rw [if_neg hgroup]
    simp [hgroup]

section Payloads

variable {payload : Json}

theorem hello_unbroken (h : hasOp payload .hello = true) :
    ((s.handlePayload payload).2 = .ok () ∧ (s.handlePayload payload).1.SoundHeartbeat) ↔
      SoundInterval (payload.get? "d") := by
  have hdefault : AtLeastOneMs defaultHeartbeatMs := by decide
  rw [s.handlePayload_hello h, SoundInterval]
  cases heartbeatIntervalOf (payload.get? "d") with
  | error e => simp
  | ok interval =>
      simp only [SoundHeartbeat, heartbeatTimer_identify, startHeartbeat]
      cases hinterval : interval.truthy <;> simp [hinterval, hdefault]

theorem dispatch_unbroken (h : hasOp payload .dispatch = true) :
    ((s.handlePayload payload).2 = .ok () ∧ (s.handlePayload payload).1.SoundHeartbeat) ↔
      GroupHasText payload ∧ s.SoundHeartbeat := by
  rw [s.handlePayload_dispatch h, handleDispatch_ok, SoundHeartbeat, heartbeatTimer_handleDispatch]
  rfl

theorem closing_unbroken
    (h : hasOp payload .reconnect = true ∨ hasOp payload .invalidSession = true) :
    (s.handlePayload payload).2 = .ok () ∧ (s.handlePayload payload).1.SoundHeartbeat := by
  have hclosed : ∀ t : QqGatewayService, t.closeAndReconnect.SoundHeartbeat := by
    intro t interval hmem
    simp [heartbeatTimer_closeAndReconnect] at hmem
  rcases h with h | h
  · rw [s.handlePayload_reconnect h]
    exact ⟨rfl, hclosed _⟩
  · rw [s.handlePayload_invalidSession h]
    exact ⟨rfl, hclosed _⟩

theorem other_unbroken (h : ¬ Recognized payload) :
    ((s.handlePayload payload).2 = .ok () ∧ (s.handlePayload payload).1.SoundHeartbeat) ↔
      payload.isNull = false ∧ s.SoundHeartbeat := by
  rw [s.handlePayload_other h]
  cases payload.isNull <;> simp

theorem harmless_of_hasOp {op : QQOpcode} (h : hasOp payload op = true)
    (hop : op ≠ .hello ∧ op ≠ .dispatch) : HarmlessPayload payload where
  notNull := isNull_of_hasOp h
  interval hhello := by simp [hasOp_eq h, hop.1] at hhello
  group hdispatch := by simp [hasOp_eq h, hop.2] at hdispatch

theorem payload_unbroken (payload : Json) :
    ((s.handlePayload payload).2 = .ok () ∧ (s.handlePayload payload).1.SoundHeartbeat) ↔
      HarmlessPayload payload ∧ (s.SoundHeartbeat ∨ Rearms payload) := by
  rcases payload_cases payload with h | h | h | h | h
  · rw [s.hello_unbroken h]
    constructor
    · exact fun hsound => ⟨⟨isNull_of_hasOp h, fun _ => hsound, by simp [hasOp_eq h]⟩,
        Or.inr ⟨.hello, by simp, h⟩⟩
    · exact fun hharmless => hharmless.1.interval h
  · rw [s.dispatch_unbroken h]
    have hkeeps : ¬ Rearms payload := by
      rintro ⟨op, hmem, hop⟩
      obtain rfl : QQOpcode.dispatch = op := by simpa [hasOp_eq h] using hop
      simp at hmem
    constructor
    · exact fun ⟨hgroup, hsound⟩ => ⟨⟨isNull_of_hasOp h, by simp [hasOp_eq h], fun _ => hgroup⟩,
        Or.inl hsound⟩
    · exact fun ⟨hharmless, hsound⟩ => ⟨hharmless.group h, hsound.resolve_right hkeeps⟩
  · exact iff_of_true (s.closing_unbroken (Or.inl h))
      ⟨harmless_of_hasOp h (by decide), Or.inr ⟨.reconnect, by simp, h⟩⟩
  · exact iff_of_true (s.closing_unbroken (Or.inr h))
      ⟨harmless_of_hasOp h (by decide), Or.inr ⟨.invalidSession, by simp, h⟩⟩
  · rw [s.other_unbroken h]
    have hkeeps : ¬ Rearms payload := fun ⟨op, hmem, hop⟩ =>
      h ⟨op, by simp only [List.mem_cons] at hmem ⊢; tauto, hop⟩
    constructor
    · exact fun ⟨hnull, hsound⟩ => ⟨⟨hnull, fun hop => absurd ⟨.hello, by simp, hop⟩ h,
        fun hop => absurd ⟨.dispatch, by simp, hop⟩ h⟩, Or.inl hsound⟩
    · exact fun ⟨hharmless, hsound⟩ => ⟨hharmless.notNull, hsound.resolve_right hkeeps⟩

end Payloads

theorem handleMessage_unknown {data : List Char} (h : ¬ Known data) :
    (s.handleMessage data).1 = s := by
  unfold handleMessage
  cases hparse : jsonParse data with
  | none => rfl
  | some payload =>
      have hother : ¬ Recognized payload := fun hop => h ⟨payload, hparse, hop⟩
      simp only [s.handlePayload_other hother]

/-- A frame breaks nothing exactly if it is harmless. -/
theorem unbroken_iff (data : List Char) : s.Unbroken data ↔ s.Harmless data := by
  have hsplit : s.Unbroken data ↔
      (s.handleMessage data).2 = .ok () ∧ (s.handleMessage data).1.SoundHeartbeat :=
    ⟨fun h => ⟨h.returns, h.heartbeat⟩, fun h => ⟨h.1, s.handleMessage_unknown, h.2⟩⟩
  rw [hsplit, handleMessage, Harmless, HarmlessFrame]
  cases jsonParse data with
  | none => simp
  | some payload => simpa using s.payload_unbroken payload

def hurriedFrame : List Char := "\x7b\"op\":10,\"d\":\x7b\"heartbeat_interval\":-5\x7d\x7d".toList

/-- A frame without properties, and a heartbeat before it is armed. -/
theorem frames_break : ¬ started.Unbroken "null".toList ∧ ¬ started.Unbroken hurriedFrame := by
  constructor
  · intro h
    have hthrown : (started.handleMessage "null".toList).2.toBool = false := by decide +kernel
    rw [h.returns] at hthrown
    exact absurd hthrown (by decide)
  · intro h
    have harmed : (started.handleMessage hurriedFrame).1.heartbeatTimer.any
        (fun interval => ¬ AtLeastOneMs interval) = true := by decide +kernel
    obtain ⟨interval, hmem, himpossible⟩ := (Option.any_eq_true _ _).mp harmed
    exact of_decide_eq_true himpossible (h.heartbeat interval hmem)

/-! ## Runs -/

/-- The frames that a run receives are harmless. -/
def ReceivesHarmless (s : QqGatewayService) : Event → Prop
  | .message k data => s.readyState k = some .opened → HarmlessFrame data
  | _ => True

theorem heartbeatTimer_scheduleReconnect :
    s.scheduleReconnect.heartbeatTimer = s.heartbeatTimer := by
  unfold scheduleReconnect
  split_ifs <;> rfl

theorem heartbeatTimer_handleClose : s.handleClose.heartbeatTimer = none := by
  unfold handleClose
  dsimp only
  split_ifs
  · rfl
  · exact heartbeatTimer_scheduleReconnect _

/-- Only frames arm the heartbeat. -/
theorem heartbeatTimer_step (valid : String → Bool) {e : Event}
    (h : ∀ k data, e ≠ .message k data) :
    (step valid s e).heartbeatTimer = s.heartbeatTimer ∨
      (step valid s e).heartbeatTimer = none := by
  cases e with
  | message k data => exact absurd rfl (h k data)
  | resolved i response =>
      refine Or.inl ?_
      simp only [step, connectResolved]
      split
      · split
        · rfl
        · exact heartbeatTimer_scheduleReconnect _
      · rfl
  | authorized i token =>
      refine Or.inl ?_
      simp only [step, connectAuthorized]
      split
      · split
        · split_ifs <;> rfl
        · exact heartbeatTimer_scheduleReconnect _
      · rfl
  | opened k =>
      simp only [step]
      split_ifs <;> exact Or.inl rfl
  | errored k => exact Or.inl rfl
  | closing k =>
      simp only [step]
      split_ifs <;> exact Or.inl rfl
  | closed k =>
      simp only [step]
      split
      · exact Or.inl rfl
      · exact Or.inl rfl
      · exact Or.inr (heartbeatTimer_handleClose _)
  | heartbeat =>
      simp only [step, send]
      split_ifs
      · split <;> exact Or.inl rfl
      · exact Or.inl rfl
  | reconnect =>
      simp only [step]
      split_ifs <;> exact Or.inl rfl
  | destroy =>
      refine Or.inr ?_
      simp only [step, onModuleDestroy, closeSocket]
      split <;> rfl

/-- After harmless frames no harmless frame breaks anything. -/
theorem unbroken_of_run {valid : String → Bool} {configured : Bool} {s : QqGatewayService}
    (hrun : Machine.Run (step valid) ReceivesHarmless (initial.onModuleInit configured) s)
    {data : List Char} (h : HarmlessFrame data) : s.Unbroken data := by
  have hsound : s.SoundHeartbeat := by
    apply hrun.invariant
    · intro interval hmem
      cases configured <;> exact absurd hmem (by simp [initial, onModuleInit, connect])
    · intro s e _ hsound hreceives interval hmem
      by_cases hmessage : ∃ k data, e = .message k data
      · obtain ⟨k, data, rfl⟩ := hmessage
        simp only [step] at hmem
        split_ifs at hmem with hopened
        · exact ((s.unbroken_iff data).mpr ⟨hreceives hopened, Or.inl hsound⟩).heartbeat _ hmem
        · exact hsound _ hmem
      · push Not at hmessage
        rcases s.heartbeatTimer_step valid hmessage with hsame | hnone
        · exact hsound interval (hsame ▸ hmem)
        · simp [hnone] at hmem
  exact (s.unbroken_iff data).mpr ⟨h, Or.inl hsound⟩

end QqGatewayService

end SocialMonitor.Qq

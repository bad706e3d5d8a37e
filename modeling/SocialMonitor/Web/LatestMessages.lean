import SocialMonitor.Pages
import SocialMonitor.Runs

/-!
# The live feed

The first page replaces the list when it arrives; the messages of the live
events are fetched one by one and put in front of it.
-/

namespace SocialMonitor.Web

open Messages

/-- `MAX_ITEMS`. -/
def maxItems : ℕ := 20

/-- The states of `LatestMessages`, with its requests on the way. -/
structure LatestMessages where
  messages : List MessageDto
  connected : Bool
  error : Option String
  loading : Bool
  fetching : List Id

/-- The first page or its failure arrives, the stream opens or fails, an event
of the stream arrives, `none` if it cannot be read, or a message that was
fetched, `none` if that failed. -/
inductive FeedEvent where
  | loaded (outcome : Except String (List MessageDto))
  | opened
  | failed
  | received (event : Option SseEvent)
  | fetched (i : ℕ) (message : Option MessageDto)

def insertMessage (message : MessageDto) (prev : List MessageDto) : List MessageDto :=
  if prev.any fun item => item.id = message.id then prev else (message :: prev).take maxItems

namespace LatestMessages

def initial : LatestMessages := ⟨[], false, none, true, []⟩

def step (s : LatestMessages) : FeedEvent → LatestMessages
  | .loaded outcome =>
      if s.loading then
        match outcome with
        | .ok data => { s with messages := data, loading := false }
        | .error message => { s with error := some message, loading := false }
      else s
  | .opened => { s with connected := true }
  | .failed => { s with connected := false }
  | .received (some (.messageCreated id _ _)) => { s with fetching := s.fetching ++ [id] }
  | .received _ => s
  | .fetched i message =>
      match s.fetching[i]? with
      | none => s
      | some _ =>
          { s with
            messages := message.elim s.messages fun message => insertMessage message s.messages
            fetching := s.fetching.eraseIdx i }

end LatestMessages

/-- At most twenty messages with different ids. -/
structure Listed (messages : List MessageDto) : Prop where
  distinct : (messages.map MessageDto.id).Nodup
  length_le : messages.length ≤ maxItems

/-- The first page is a list of at most twenty messages with different ids. -/
def FeedEvent.Admitted : FeedEvent → Prop
  | .loaded (.ok data) => Listed data
  | _ => True

namespace LatestMessages

variable (s : LatestMessages)

/-- A message that is shown stays, unless a new one pushes it past the last place. -/
def Keeps (e : FeedEvent) : Prop :=
  ∀ m ∈ s.messages, m.id ∈ (s.step e).messages.map MessageDto.id ∨
    ∃ i new, e = .fetched i (some new) ∧ (s.step e).messages = (new :: s.messages).take maxItems ∧
      s.messages[maxItems - 1]? = some m

/-- The list is in order after an event, and nothing is lost from it. -/
structure Good (e : FeedEvent) : Prop where
  listed : Listed (s.step e).messages
  keeps : s.Keeps e

/-- The first page holds whatever is shown when it arrives. -/
def Covers : FeedEvent → Prop
  | .loaded (.ok data) => s.loading = true → ∀ m ∈ s.messages, m.id ∈ data.map MessageDto.id
  | _ => True

end LatestMessages

/-! ## Putting a message in front -/

theorem insertMessage_cases (message : MessageDto) (prev : List MessageDto) :
    insertMessage message prev = prev ∨ message.id ∉ prev.map MessageDto.id ∧
      insertMessage message prev = (message :: prev).take maxItems := by
  unfold insertMessage
  split_ifs with hany
  · exact Or.inl rfl
  · refine Or.inr ⟨fun hmem => hany ?_, rfl⟩
    obtain ⟨item, hitem, hid⟩ := List.mem_map.mp hmem
    exact List.any_eq_true.mpr ⟨item, hitem, decide_eq_true hid⟩

theorem Listed.insertMessage {prev : List MessageDto} (h : Listed prev) (message : MessageDto) :
    Listed (insertMessage message prev) := by
  rcases insertMessage_cases message prev with hsame | ⟨hnew, hfront⟩
  · rw [hsame]
    exact h
  · rw [hfront]
    have hdistinct : ((message :: prev).map MessageDto.id).Nodup :=
      List.nodup_cons.mpr ⟨hnew, h.distinct⟩
    exact ⟨hdistinct.sublist ((List.take_sublist _ _).map _), List.length_take_le _ _⟩

/-- What a new message pushes out is the message in the last place. -/
theorem mem_take_or_last {α : Type} {m a : α} {prev : List α} {n : ℕ} (hm : m ∈ prev)
    (hlength : prev.length ≤ n) : m ∈ (a :: prev).take n ∨ prev[n - 1]? = some m := by
  obtain ⟨k, hk, rfl⟩ := List.mem_iff_getElem.mp hm
  rcases Nat.lt_or_ge (k + 1) n with hlt | hge
  · refine Or.inl (List.mem_iff_getElem?.mpr ⟨k + 1, ?_⟩)
    rw [List.getElem?_take_of_lt hlt, List.getElem?_cons_succ, List.getElem?_eq_getElem hk]
  · obtain rfl : k = n - 1 := by omega
    exact Or.inr (List.getElem?_eq_getElem hk)

theorem Listed.insertMessage_keeps {prev : List MessageDto} (h : Listed prev)
    (message : MessageDto) : ∀ m ∈ prev, m.id ∈ (Web.insertMessage message prev).map MessageDto.id ∨
      Web.insertMessage message prev = (message :: prev).take maxItems ∧
        prev[maxItems - 1]? = some m := by
  intro m hm
  rcases insertMessage_cases message prev with hsame | ⟨-, hfront⟩
  · rw [hsame]
    exact Or.inl (List.mem_map_of_mem hm)
  · rw [hfront]
    rcases mem_take_or_last hm h.length_le with hstays | hlast
    · exact Or.inl (List.mem_map_of_mem hstays)
    · exact Or.inr ⟨rfl, hlast⟩

/-! ## What an event does -/

namespace LatestMessages

variable {s : LatestMessages}

theorem good_of_messages_eq (h : Listed s.messages) {e : FeedEvent}
    (heq : (s.step e).messages = s.messages) : s.Good e where
  listed := by rwa [heq]
  keeps m hm := Or.inl (by rw [heq]; exact List.mem_map_of_mem hm)

theorem good_fetched (h : Listed s.messages) (i : ℕ) (message : Option MessageDto) :
    s.Good (.fetched i message) := by
  cases hi : s.fetching[i]? with
  | none => exact good_of_messages_eq h (by simp only [step, hi])
  | some id =>
      cases message with
      | none => exact good_of_messages_eq h (by simp only [step, hi, Option.elim_none])
      | some message =>
          have hstep : (s.step (.fetched i (some message))).messages =
              insertMessage message s.messages := by simp only [step, hi, Option.elim_some]
          refine ⟨by rw [hstep]; exact h.insertMessage message, fun m hm => ?_⟩
          rw [hstep]
          rcases h.insertMessage_keeps message m hm with hstays | ⟨hfront, hlast⟩
          · exact Or.inl hstays
          · exact Or.inr ⟨i, message, rfl, hfront, hlast⟩

/-- An event is good exactly if it is not a first page that lacks what is shown. -/
theorem good_iff (h : Listed s.messages) {e : FeedEvent} (hadmitted : e.Admitted) :
    s.Good e ↔ s.Covers e := by
  constructor
  · intro hgood
    cases e with
    | loaded outcome =>
        cases outcome with
        | error message => trivial
        | ok data =>
            intro hloading m hm
            rcases hgood.keeps m hm with hstays | ⟨i, new, hfetched, -⟩
            · simpa only [step, hloading, if_true] using hstays
            · exact absurd hfetched (by simp)
    | _ => trivial
  · intro hcovers
    cases e with
    | loaded outcome =>
        by_cases hloading : s.loading = true
        · cases outcome with
          | error message =>
              exact good_of_messages_eq h (by simp only [step, hloading, if_true])
          | ok data =>
              have hstep : (s.step (.loaded (.ok data))).messages = data := by
                simp only [step, hloading, if_true]
              refine ⟨by rw [hstep]; exact hadmitted, fun m hm => Or.inl ?_⟩
              rw [hstep]
              exact hcovers hloading m hm
        · exact good_of_messages_eq h (by simp only [step, if_neg hloading])
    | opened => exact good_of_messages_eq h rfl
    | failed => exact good_of_messages_eq h rfl
    | received event =>
        refine good_of_messages_eq h ?_
        cases event with
        | none => rfl
        | some event => cases event <;> rfl
    | fetched i message => exact good_fetched h i message

/-! ## Runs -/

end LatestMessages

/-- In every run, the list stays in order and loses nothing but what new
messages push past its end, exactly if the first page holds whatever is shown
when it arrives. -/
theorem feed_good_iff (es : List FeedEvent) :
    Machine.AllowedList LatestMessages.step (fun s e => e.Admitted ∧ s.Good e) .initial es ↔
      Machine.AllowedList LatestMessages.step (fun s e => e.Admitted ∧ s.Covers e) .initial es := by
  apply Machine.AllowedList.congr fun s => Listed s.messages
  · exact ⟨List.nodup_nil, Nat.zero_le _⟩
  · intro s e _ hallowed
    exact hallowed.2.listed
  · intro s e h
    exact and_congr_right fun hadmitted => LatestMessages.good_iff h hadmitted

def created : MessageDto := ⟨7, .telegram, ⟨0, "Group"⟩, none, "text", none, 0⟩

/-- The first page was read before the message was stored and arrives after it. -/
def latePage : List FeedEvent :=
  [.received (some (.messageCreated 7 .telegram "Group")), .fetched 0 (some created),
    .loaded (.ok [])]

/-- The message is shown until the first page removes it. -/
theorem late_page_removes :
    Machine.AllowedList LatestMessages.step (fun _ e => e.Admitted) .initial latePage ∧
      ((latePage.take 2).foldl LatestMessages.step .initial).messages = [created] ∧
      ¬ Machine.AllowedList LatestMessages.step (fun s e => e.Admitted ∧ s.Good e) .initial
        latePage := by
  refine ⟨⟨trivial, trivial, ⟨List.nodup_nil, Nat.zero_le _⟩, trivial⟩, by decide, ?_⟩
  rintro ⟨-, -, ⟨-, hgood⟩, -⟩
  rcases hgood.keeps created (by decide) with hstays | ⟨i, new, hfetched, -⟩
  · exact absurd hstays (by decide)
  · exact absurd hfetched (by simp)

/-- The first page that the server sends is in order. -/
theorem first_page_listed (contains : String → String → Bool) {s : Store} (hs : Intact s)
    {choices : ℕ → Choice} (hcalm : ∀ n, (choices n).fault = none) :
    ∃ body, ((Messages.list { everything with page := some 1, pageSize := some maxItems }).run
      (Listing.exec (messageSource contains)) choices s).1 = .ok body ∧ Listed body.data := by
  obtain ⟨body, hrun, -, hids⟩ := Listing.run_list_ids Message.id MessageDto.id
    (messages_related contains hs everything.filter) (messages_id contains) hcalm 1 maxItems
  refine ⟨body, hrun, ?_, ?_⟩
  · rw [hids]
    exact Listing.nodup_slice hs.messageIds _ _ _
  · have hlength := congrArg List.length hids
    rw [List.length_map, List.length_map] at hlength
    rw [hlength]
    exact List.length_take_le _ _

end SocialMonitor.Web

import SocialMonitor.Messages.List
import SocialMonitor.Notifications.Tasks

/-!
# List pages

A list page asks for its rows anew whenever what `load` depends on has changed.
Every answer writes what is shown, whichever request it belongs to.
-/

namespace SocialMonitor.Web

/-- `ApiPaginated`, with the part of `meta` that the pages read. -/
structure ApiPaginated (Row : Type) where
  data : List Row
  total : ℕ

/-- What `api.get` resolves to, or the message of its error. -/
abbrev Outcome (Row : Type) := Except String (ApiPaginated Row)

def pageSize : ℕ := 20

/-- The button of the page before, which is disabled on the first page. -/
def previousPage (page : ℕ) : ℕ := if page ≤ 1 then page else page - 1

/-- The button of the next page, which is disabled on the last page. -/
def nextPage (totalPages page : ℕ) : ℕ := if page ≥ totalPages then page else page + 1

/-- The states that the answers write. -/
structure View (Row : Type) where
  rows : List Row
  total : ℕ
  loading : Bool
  error : Option String

namespace View

variable {Row : Type}

def initial : View Row := ⟨[], 0, true, none⟩

/-- `load` up to its request. -/
def start (v : View Row) : View Row := { v with loading := true }

/-- `load` after its request. -/
def finish (v : View Row) : Outcome Row → View Row
  | .ok res => { rows := res.data, total := res.total, loading := false, error := none }
  | .error message => { v with loading := false, error := some message }

def totalPages (v : View Row) : ℕ := max 1 (Paging.pageCount v.total pageSize)

/-- The rows, the total and the error are those of an answer. -/
def Shows (v : View Row) : Outcome Row → Prop
  | .ok res => v.rows = res.data ∧ v.total = res.total ∧ v.error = none
  | .error message => v.error = some message

end View

/-- The controls of a page, what the user does to them, and what `load` depends on. -/
structure ListPage (Controls Input Query : Type) where
  initial : Controls
  handle : (totalPages : ℕ) → Controls → Input → Controls
  query : Controls → Query

/-- A page with its requests in the order in which they were issued, and the
answers in the order in which they arrived.  A request is known by its number. -/
structure PageState (Controls Query Row : Type) where
  controls : Controls
  view : View Row
  issued : List Query
  answers : List (ℕ × Outcome Row)

inductive PageEvent (Input Row : Type) where
  | input (input : Input)
  | answer (n : ℕ) (outcome : Outcome Row)

namespace ListPage

variable {Controls Input Query Row : Type} (page : ListPage Controls Input Query)

def mount : PageState Controls Query Row where
  controls := page.initial
  view := View.initial.start
  issued := [page.query page.initial]
  answers := []

def step [DecidableEq Query] (s : PageState Controls Query Row) :
    PageEvent Input Row → PageState Controls Query Row
  | .input input =>
      let controls := page.handle s.view.totalPages s.controls input
      if page.query controls = page.query s.controls then { s with controls := controls }
      else
        { s with
          controls := controls
          view := s.view.start
          issued := s.issued ++ [page.query controls] }
  | .answer n outcome =>
      if n < s.issued.length ∧ n ∉ s.answers.map Prod.fst then
        { s with view := s.view.finish outcome, answers := s.answers ++ [(n, outcome)] }
      else s

end ListPage

namespace PageState

variable {Controls Query Row : Type} (s : PageState Controls Query Row)

/-- All requests have been answered. -/
def Answered : Prop := ∀ n < s.issued.length, n ∈ s.answers.map Prod.fst

instance : Decidable s.Answered :=
  inferInstanceAs (Decidable (∀ n < s.issued.length, n ∈ s.answers.map Prod.fst))

/-- The answer to the request that was issued last. -/
def lastAnswer? : Option (Outcome Row) :=
  (s.answers.find? fun answer => answer.1 = s.issued.length - 1).map Prod.snd

/-- Once all requests have been answered, the page shows the answer to the last one. -/
def ShowsLast : Prop := s.Answered → ∃ outcome ∈ s.lastAnswer?, s.view.Shows outcome

/-- The answer that arrives last says what the answer to the last request says. -/
def ArrivesLast : Prop := s.Answered → s.answers.getLast?.map Prod.snd = s.lastAnswer?

end PageState

/-! ## The answer that is shown -/

namespace View

variable {Row : Type}

@[simp] theorem shows_start (v : View Row) (outcome : Outcome Row) :
    v.start.Shows outcome ↔ v.Shows outcome := by
  cases outcome <;> exact Iff.rfl

theorem shows_finish (v : View Row) (outcome : Outcome Row) : (v.finish outcome).Shows outcome := by
  cases outcome with
  | ok res => exact ⟨rfl, rfl, rfl⟩
  | error message => rfl

theorem Shows.unique {v : View Row} {a b : Outcome Row} (ha : v.Shows a) (hb : v.Shows b) :
    a = b := by
  cases a with
  | ok res =>
      obtain ⟨hdata, htotal, herror⟩ := ha
      cases b with
      | ok res' =>
          obtain ⟨hdata', htotal', -⟩ := hb
          cases res
          cases res'
          simp_all
      | error message => exact absurd (herror.symm.trans hb) (by simp)
  | error message =>
      cases b with
      | ok res => exact absurd (Eq.trans (Eq.symm ha) hb.2.2) (by simp)
      | error message' =>
          have hmessage : some message = some message' := Eq.trans (Eq.symm ha) hb
          exact congrArg Except.error (Option.some_inj.mp hmessage)

end View

namespace PageState

variable {Controls Query Row : Type} {s : PageState Controls Query Row}

/-- Something has been asked for, nothing has been answered twice, and the
answer that arrived last is shown. -/
structure Current (s : PageState Controls Query Row) : Prop where
  issued : s.issued ≠ []
  once : (s.answers.map Prod.fst).Nodup
  shown : ∀ answer ∈ s.answers.getLast?, s.view.Shows answer.2

theorem lastAnswer?_isSome (h : s.Current) (hanswered : s.Answered) :
    ∃ outcome, s.lastAnswer? = some outcome := by
  have hlength := List.length_pos_iff.mpr h.issued
  obtain ⟨answer, hanswer, hn⟩ := List.mem_map.mp (hanswered (s.issued.length - 1) (by omega))
  have hfound : (s.answers.find? fun answer => answer.1 = s.issued.length - 1).isSome := by
    rw [List.find?_isSome]
    exact ⟨answer, hanswer, decide_eq_true hn⟩
  obtain ⟨found, hfound⟩ := Option.isSome_iff_exists.mp hfound
  exact ⟨found.2, by rw [lastAnswer?, hfound, Option.map_some]⟩

theorem Current.showsLast_iff (h : s.Current) : s.ShowsLast ↔ s.ArrivesLast := by
  refine imp_congr_right fun hanswered => ?_
  obtain ⟨outcome, houtcome⟩ := lastAnswer?_isSome h hanswered
  obtain ⟨arrived, harrived⟩ : ∃ arrived, s.answers.getLast? = some arrived := by
    cases hlast : s.answers.getLast? with
    | some arrived => exact ⟨arrived, rfl⟩
    | none =>
        rw [lastAnswer?, List.getLast?_eq_none_iff.mp hlast] at houtcome
        exact absurd houtcome (by simp)
  have hshown := h.shown arrived harrived
  rw [houtcome, harrived, Option.map_some]
  constructor
  · rintro ⟨shown, hmem, hshows⟩
    rw [hshown.unique hshows]
    exact hmem.symm
  · intro heq
    exact ⟨arrived.2, heq.symm, hshown⟩

/-- The last answer to arrive is that to the last request. -/
theorem Current.arrivesLast (h : s.Current) {outcome : Outcome Row}
    (hlast : s.answers.getLast? = some (s.issued.length - 1, outcome)) : s.ArrivesLast := by
  intro hanswered
  have hmem := List.mem_of_getLast? hlast
  obtain ⟨found, hfound⟩ : ∃ found, (s.answers.find? fun answer =>
      answer.1 = s.issued.length - 1) = some found := by
    rw [← Option.isSome_iff_exists, List.find?_isSome]
    exact ⟨_, hmem, decide_eq_true rfl⟩
  have hnumber : found.1 = s.issued.length - 1 := by simpa using List.find?_some hfound
  have heq : found = (s.issued.length - 1, outcome) :=
    List.inj_on_of_nodup_map h.once (List.mem_of_find?_eq_some hfound) hmem hnumber
  rw [lastAnswer?, hfound, hlast, heq]

end PageState

namespace ListPage

variable {Controls Input Query Row : Type} {page : ListPage Controls Input Query}

theorem current_mount : (page.mount : PageState Controls Query Row).Current where
  issued := List.cons_ne_nil _ _
  once := List.nodup_nil
  shown answer hanswer := absurd hanswer (by simp [mount])

variable [DecidableEq Query]

theorem current_step {s : PageState Controls Query Row} (e : PageEvent Input Row)
    (h : s.Current) : (page.step s e).Current := by
  cases e with
  | input input =>
      simp only [step]
      split_ifs
      · exact ⟨h.issued, h.once, h.shown⟩
      · refine ⟨List.append_ne_nil_of_left_ne_nil h.issued _, h.once, fun answer hanswer => ?_⟩
        rw [View.shows_start]
        exact h.shown answer hanswer
  | answer n outcome =>
      simp only [step]
      split_ifs with hnew
      · refine ⟨h.issued, ?_, fun answer hanswer => ?_⟩
        · rw [List.map_append, List.map_singleton, ← List.concat_eq_append]
          exact h.once.concat hnew.2
        rw [List.getLast?_append, List.getLast?_singleton, Option.some_or] at hanswer
        obtain rfl := Option.some_inj.mp hanswer
        exact View.shows_finish _ _
      · exact h

theorem current_foldl (es : List (PageEvent Input Row)) :
    (es.foldl page.step page.mount).Current := by
  apply Machine.foldl_invariant PageState.Current current_mount
  intro s e h
  exact current_step e h

/-- A page ends up with the answer to its last request exactly if that answer
arrives last. -/
theorem showsLast_foldl_iff (es : List (PageEvent Input Row)) :
    (es.foldl page.step page.mount).ShowsLast ↔ (es.foldl page.step page.mount).ArrivesLast := by
  apply PageState.Current.showsLast_iff
  exact current_foldl es

/-- In particular if the last answer to arrive is that to the last request. -/
theorem showsLast_of_getLast (es : List (PageEvent Input Row)) {outcome : Outcome Row}
    (hlast : (es.foldl page.step page.mount).answers.getLast? =
      some ((es.foldl page.step page.mount).issued.length - 1, outcome)) :
    (es.foldl page.step page.mount).ShowsLast :=
  (showsLast_foldl_iff es).mpr ((current_foldl es).arrivesLast hlast)

end ListPage

/-! ## The messages page -/

/-- The select of the source and that of the target hold a value or nothing. -/
structure Filters where
  keyword : String
  source : Option MessageSource
  targetId : Option Id
  dateFrom : String
  dateTo : String
deriving DecidableEq

def Filters.blank : Filters := ⟨"", none, none, "", ""⟩

/-- An object of filters: two objects with the same filters differ by when they were made. -/
structure FiltersRef where
  made : ℕ
  filters : Filters
deriving DecidableEq

structure MessagesControls where
  page : ℕ
  filters : FiltersRef
  applied : FiltersRef
  objects : ℕ

inductive MessagesInput where
  | edit (filters : Filters)
  | search
  | reset
  | previous
  | next

def MessagesControls.handle (totalPages : ℕ) (c : MessagesControls) :
    MessagesInput → MessagesControls
  | .edit filters => { c with filters := ⟨c.objects, filters⟩, objects := c.objects + 1 }
  | .search => { c with page := 1, applied := c.filters }
  | .reset =>
      { page := 1
        filters := ⟨c.objects, Filters.blank⟩
        applied := ⟨c.objects + 1, Filters.blank⟩
        objects := c.objects + 2 }
  | .previous => { c with page := previousPage c.page }
  | .next => { c with page := nextPage totalPages c.page }

/-- `MessagesPage`.  At first the applied filters are the object that is edited. -/
def messagesPage : ListPage MessagesControls MessagesInput (ℕ × FiltersRef) where
  initial := ⟨1, ⟨0, Filters.blank⟩, ⟨0, Filters.blank⟩, 1⟩
  handle := MessagesControls.handle
  query c := (c.page, c.applied)

/-! ## The notifications page -/

structure NotificationsControls where
  status : Option NotificationStatus
  page : ℕ

inductive NotificationsInput where
  | setStatus (status : Option NotificationStatus)
  | previous
  | next

def NotificationsControls.handle (totalPages : ℕ) (c : NotificationsControls) :
    NotificationsInput → NotificationsControls
  | .setStatus status => ⟨status, 1⟩
  | .previous => { c with page := previousPage c.page }
  | .next => { c with page := nextPage totalPages c.page }

/-- `NotificationsPage`. -/
def notificationsPage : ListPage NotificationsControls NotificationsInput
    (ℕ × Option NotificationStatus) where
  initial := ⟨none, 1⟩
  handle := NotificationsControls.handle
  query c := (c.page, c.status)

/-- On both pages, once all requests have been answered, what is shown is the
answer to the last request exactly if the answer that arrived last says the same. -/
theorem pages_show_last_iff (es : List (PageEvent MessagesInput Messages.MessageDto))
    (fs : List (PageEvent NotificationsInput Notifications.TaskDto)) :
    ((es.foldl messagesPage.step messagesPage.mount).ShowsLast ↔
      (es.foldl messagesPage.step messagesPage.mount).ArrivesLast) ∧
    ((fs.foldl notificationsPage.step notificationsPage.mount).ShowsLast ↔
      (fs.foldl notificationsPage.step notificationsPage.mount).ArrivesLast) :=
  ⟨ListPage.showsLast_foldl_iff es, ListPage.showsLast_foldl_iff fs⟩

/-- A search whose answer overtakes that of the first page. -/
def overtaken : List (PageEvent MessagesInput Messages.MessageDto) :=
  [.input (.edit { Filters.blank with keyword := "btc" }), .input .search,
    .answer 1 (.ok ⟨[], 0⟩),
    .answer 0 (.ok ⟨[⟨1, .telegram, ⟨0, "Group"⟩, none, "text", none, 0⟩], 1⟩)]

/-- The page stays with the answer to the question before. -/
theorem messages_page_stale :
    ¬ (overtaken.foldl messagesPage.step messagesPage.mount).ShowsLast := by
  intro h
  obtain ⟨outcome, houtcome, hshows⟩ := h (by decide)
  have hlast : (overtaken.foldl messagesPage.step messagesPage.mount).lastAnswer? =
      some (.ok ⟨[], 0⟩) := rfl
  rw [hlast] at houtcome
  obtain rfl := Option.some_inj.mp houtcome
  exact absurd hshows.2.1 (by decide)

end SocialMonitor.Web

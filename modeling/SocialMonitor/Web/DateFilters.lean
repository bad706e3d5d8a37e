import SocialMonitor.Js.Calendar
import SocialMonitor.Pages
import SocialMonitor.Web.ListPage

/-!
# Date filters

A date of the messages page is sent as its text and read as the first instant
of its day in UTC.  Both ends of the filter are inclusive, so that it leaves out
the rest of the last day.
-/

namespace SocialMonitor

namespace Messages

/-- The parameters of `GET /messages`. -/
structure MessageParams where
  page : ℕ
  pageSize : ℕ
  keyword : Option String
  source : Option MessageSource
  targetId : Option Id
  dateFrom : Option String
  dateTo : Option String

/-- What `toDate` makes of a parameter. -/
inductive DateValue where
  | undefined
  | date (time : Time)
  | text (value : String)

def DateValue.time? : DateValue → Option Time
  | date time => some time
  | _ => none

variable (other : String → Option Time)

/-- `new Date(value)`, `none` if it is no valid date.  A date without a time is
in UTC; `other` reads the texts of the other forms. -/
def parseDate (value : String) : Option Time :=
  match Js.isoDate? value with
  | some date => some date.start
  | none => other value

def toDate : Option String → DateValue
  | none => .undefined
  | some value =>
      if value = "" then .undefined
      else
        match parseDate other value with
        | some time => .date time
        | none => .text value

/-- What `@Min(1)` reports. -/
def minMessages (property : String) (n : ℕ) : List String :=
  if 1 ≤ n then [] else [property ++ " must not be less than 1"]

/-- What `@Max(100)` reports. -/
def maxMessages (property : String) (n : ℕ) : List String :=
  if n ≤ 100 then [] else [property ++ " must not be greater than 100"]

/-- What `@IsDate()` reports. -/
def dateMessages (property : String) : DateValue → List String
  | .text _ => [property ++ " must be a Date instance"]
  | _ => []

/-- The `ValidationPipe`. -/
def MessageQueryDto.ofParams (params : MessageParams) : Except (List String) MessageQueryDto :=
  let dateFrom := toDate other params.dateFrom
  let dateTo := toDate other params.dateTo
  let messages := minMessages "page" params.page ++ minMessages "pageSize" params.pageSize ++
    maxMessages "pageSize" params.pageSize ++ dateMessages "dateFrom" dateFrom ++
    dateMessages "dateTo" dateTo
  if messages = [] then
    .ok
      { page := some params.page
        pageSize := some params.pageSize
        source := params.source
        targetId := params.targetId
        keyword := params.keyword
        dateFrom := dateFrom.time?
        dateTo := dateTo.time? }
  else .error messages

end Messages

namespace Web

open Messages

/-- The query of `load`, from which `buildQuery` leaves out the empty texts. -/
def messageParams (page : ℕ) (applied : Filters) : MessageParams where
  page := page
  pageSize := pageSize
  keyword := Js.nonempty? applied.keyword
  source := applied.source
  targetId := applied.targetId
  dateFrom := Js.nonempty? applied.dateFrom
  dateTo := Js.nonempty? applied.dateTo

/-- A date of an input, with a year of four digits. -/
structure DateInput where
  date : Js.CalendarDate
  year_le : date.year ≤ 9999

def Filters.between (applied : Filters) (first last : DateInput) : Filters :=
  { applied with dateFrom := first.date.text, dateTo := last.date.text }

/-- The instant lies on a UTC day from the first date to the last. -/
def OnDays (first last : DateInput) (t : Time) : Prop :=
  ∃ d, first.date ≤ d ∧ d ≤ last.date ∧ d.Contains t

instance (first last : DateInput) (t : Time) : Decidable (OnDays first last t) :=
  decidable_of_iff _ (Js.CalendarDate.exists_contains_iff first.date last.date t).symm

section Days

variable (contains : String → String → Bool) (other : String → Option Time) (s : Store)
  (applied : Filters) (first last : DateInput)

/-- The filters other than the dates. -/
def Filters.rest : MessageWhere where
  source := applied.source
  targetId := applied.targetId
  keyword := Js.nonempty? applied.keyword
  gte := none
  lte := none

/-- The messages of the days that pass the other filters. -/
def covered : List Message := s.messages.filter fun m =>
  applied.rest.selects contains m && OnDays first last m.publishedAt

/-- The body of the answer of `MessageController.list`. -/
def Answers (choices : ℕ → Choice) (params : MessageParams)
    (body : Listing.Paginated MessageDto) : Prop :=
  ∃ query, MessageQueryDto.ofParams other params = .ok query ∧
    ((Messages.list query).run (Listing.exec (messageSource contains)) choices s).1 = .ok body

/-- Whatever the order of the rows is at each page, the total counts the
messages of the days that pass the other filters, and the pages show these and no others. -/
def CoversDays : Prop :=
  ∀ choices : ℕ → ℕ → Choice, (∀ page n, (choices page n).fault = none) →
    (∀ k, ∃ body, Answers contains other s (choices (k + 1))
        (messageParams (k + 1) (applied.between first last)) body ∧
      body.total = (covered contains s applied first last).length) ∧
    ∀ m ∈ s.messages,
      (∃ k body, Answers contains other s (choices (k + 1))
          (messageParams (k + 1) (applied.between first last)) body ∧
        m.id ∈ body.data.map MessageDto.id) ↔ m ∈ covered contains s applied first last

/-- None of the messages is published after the first instant of the last day. -/
def NoneLater : Prop :=
  ∀ m ∈ covered contains s applied first last, m.publishedAt ≤ last.date.start

end Days

/-! ## The filter of the query -/

theorem toDate_text (other : String → Option Time) (input : DateInput) :
    toDate other (Js.nonempty? input.date.text) = .date input.date.start := by
  have hiso := Js.CalendarDate.isoDate?_text input.year_le
  have hne : input.date.text ≠ "" := by
    intro hempty
    have hnone : Js.isoDate? "" = none := by decide
    rw [hempty, hnone] at hiso
    exact absurd hiso (by simp)
  rw [Js.nonempty?_eq_some.mpr ⟨rfl, hne⟩]
  simp only [toDate, if_neg hne, parseDate, hiso]

variable {contains : String → String → Bool} {other : String → Option Time} {s : Store}
  {applied : Filters} {first last : DateInput}

/-- The query that the dates become. -/
def daysQuery (page : ℕ) (applied : Filters) (first last : DateInput) : MessageQueryDto where
  page := some page
  pageSize := some pageSize
  source := applied.source
  targetId := applied.targetId
  keyword := Js.nonempty? applied.keyword
  dateFrom := some first.date.start
  dateTo := some last.date.start

def daysFilter (applied : Filters) (first last : DateInput) : MessageWhere :=
  { applied.rest with gte := some first.date.start, lte := some last.date.start }

theorem nonempty?_bind (text : String) :
    (Js.nonempty? text).bind Js.nonempty? = Js.nonempty? text := by
  unfold Js.nonempty?
  split_ifs with hempty
  · rfl
  · exact if_neg hempty

theorem filter_daysQuery (page : ℕ) :
    (daysQuery page applied first last).filter = daysFilter applied first last := by
  simp only [MessageQueryDto.filter, daysQuery, daysFilter, Filters.rest, nonempty?_bind]

theorem ofParams_between (k : ℕ) : MessageQueryDto.ofParams other
    (messageParams (k + 1) (applied.between first last)) =
      .ok (daysQuery (k + 1) applied first last) := by
  have hfrom := toDate_text other first
  have hto := toDate_text other last
  simp only [MessageQueryDto.ofParams, messageParams, Filters.between, hfrom, hto]
  exact if_pos (by simp [minMessages, maxMessages, dateMessages, pageSize])

theorem answers_iff (choices : ℕ → Choice) (k : ℕ) (body : Listing.Paginated MessageDto) :
    Answers contains other s choices (messageParams (k + 1) (applied.between first last)) body ↔
      ((Listing.list toDto (daysFilter applied first last) (some (k + 1)) (some pageSize)).run
        (Listing.exec (messageSource contains)) choices s).1 = .ok body := by
  simp only [Answers, ofParams_between, Except.ok.injEq, exists_eq_left', Messages.list,
    filter_daysQuery]
  exact Iff.rfl

/-- The filter selects the messages of the days up to the first instant of the last one. -/
theorem matching_daysFilter : (messageSource contains).matching s (daysFilter applied first last) =
    (covered contains s applied first last).filter fun m =>
      m.publishedAt ≤ last.date.start := by
  rw [Listing.Source.matching, covered, List.filter_filter]
  refine List.filter_congr fun m _ => ?_
  have hdays : OnDays first last m.publishedAt ↔ _ := Js.CalendarDate.exists_contains_iff _ _ _
  have hselects : (messageSource contains).selects (daysFilter applied first last) m =
      (applied.rest.selects contains m &&
        (decide (first.date.start ≤ m.publishedAt) &&
          decide (m.publishedAt ≤ last.date.start))) := by
    simp [messageSource, MessageWhere.selects, daysFilter, Filters.rest, Bool.and_assoc]
  rw [hselects, Bool.eq_iff_iff]
  simp only [Bool.and_eq_true, decide_eq_true_eq, hdays, Js.msPerDay]
  constructor
  · rintro ⟨hrest, hfirst, hlast⟩
    exact ⟨hlast, hrest, hfirst, by linarith⟩
  · rintro ⟨hlast, hrest, hfirst, -⟩
    exact ⟨hrest, hfirst, hlast⟩

theorem matching_eq_covered (h : NoneLater contains s applied first last) :
    (messageSource contains).matching s (daysFilter applied first last) =
      covered contains s applied first last := by
  rw [matching_daysFilter]
  exact List.filter_eq_self.mpr fun m hm => decide_eq_true (h m hm)

/-- Some message of the last day is not counted. -/
theorem noneLater_of_length (h : ((messageSource contains).matching s
    (daysFilter applied first last)).length = (covered contains s applied first last).length) :
    NoneLater contains s applied first last := by
  rw [matching_daysFilter] at h
  intro m hm
  exact of_decide_eq_true (List.length_filter_eq_length_iff.mp h m hm)

theorem appears_iff_answers (other : String → Option Time) (choices : ℕ → ℕ → Choice)
    (m : Message) :
    Listing.Appears (messageSource contains) s (fun page => Listing.list toDto
      (daysFilter applied first last) (some page) (some pageSize)) choices MessageDto.id m.id ↔
    ∃ k body, Answers contains other s (choices (k + 1))
        (messageParams (k + 1) (applied.between first last)) body ∧
      m.id ∈ body.data.map MessageDto.id := by
  simp only [Listing.Appears, answers_iff]

theorem answers_total (hs : Intact s) (other : String → Option Time) (applied : Filters)
    (first last : DateInput) {choices : ℕ → Choice} (hcalm : ∀ n, (choices n).fault = none)
    (k : ℕ) : ∃ body, Answers contains other s choices
      (messageParams (k + 1) (applied.between first last)) body ∧
    body.total = ((messageSource contains).matching s (daysFilter applied first last)).length := by
  obtain ⟨body, hrun, htotal, -⟩ := Listing.run_list
    (messages_related contains hs (daysFilter applied first last)) toDto hcalm (k + 1) pageSize
  exact ⟨body, (answers_iff _ k body).mpr hrun, htotal⟩

theorem Answers.unique {choices : ℕ → Choice} {params : MessageParams}
    {body body' : Listing.Paginated MessageDto} (h : Answers contains other s choices params body)
    (h' : Answers contains other s choices params body') : body = body' := by
  obtain ⟨query, hquery, hrun⟩ := h
  obtain ⟨query', hquery', hrun'⟩ := h'
  obtain rfl := Except.ok.inj (hquery.symm.trans hquery')
  exact Except.ok.inj (hrun.symm.trans hrun')

/-- Where the days are covered, the total counts the messages of the last day. -/
theorem CoversDays.noneLater (hs : Intact s)
    (h : CoversDays contains other s applied first last) :
    NoneLater contains s applied first last := by
  obtain ⟨body, hbody, htotal⟩ := (h (fun _ _ => calm) fun _ _ => rfl).1 0
  have hcalm : ∀ n, ((fun _ => calm : ℕ → Choice) n).fault = none := fun _ => rfl
  obtain ⟨body', hbody', hcount⟩ := answers_total hs other applied first last hcalm 0
  apply noneLater_of_length
  rw [← hcount, hbody'.unique hbody, htotal]

/-- The date filters cover whole days exactly if nothing that they should show is
published after the first instant of the last day, and no page ends between two
messages of one time. -/
theorem days_covered_iff (contains : String → String → Bool) (other : String → Option Time)
    {s : Store} (hs : Intact s) (applied : Filters) (first last : DateInput) :
    CoversDays contains other s applied first last ↔
      NoneLater contains s applied first last ∧
        Paging.Unsplit Message.publishedAt (covered contains s applied first last) pageSize := by
  have hrelated := messages_related contains hs (daysFilter applied first last)
  have hpages := Listing.all_appear_iff Message.id MessageDto.id hrelated (messages_id contains)
    hs.messageIds (Nat.succ_pos 19 : 0 < pageSize)
  constructor
  · intro hcovers
    have hlater := hcovers.noneLater hs
    refine ⟨hlater, ?_⟩
    rw [← matching_eq_covered hlater]
    refine hpages.mp fun choices hcalm m hm => (appears_iff_answers other choices m).mpr ?_
    apply ((hcovers choices hcalm).2 m (List.mem_filter.mp hm).1).mpr
    rwa [← matching_eq_covered hlater]
  · rintro ⟨hlater, hunsplit⟩ choices hcalm
    rw [← matching_eq_covered hlater] at hunsplit ⊢
    refine ⟨fun k => answers_total hs other applied first last (hcalm (k + 1)) k, fun m hm => ?_⟩
    rw [← appears_iff_answers other choices m]
    refine ⟨fun happears => ?_, hpages.mpr hunsplit choices hcalm m⟩
    obtain ⟨k, hslice⟩ := (Listing.appears_iff Message.id MessageDto.id hrelated
      (messages_id contains) hcalm hs.messageIds pageSize hm).mp happears
    exact Listing.mem_matching_of_mem_slice hslice

/-! ## Two messages of one day -/

def firstOfSeptember : DateInput := ⟨⟨2026, 9, 1, by decide, by decide⟩, by decide⟩

def secondOfSeptember : DateInput := ⟨⟨2026, 9, 2, by decide, by decide⟩, by decide⟩

def thirdOfSeptember : DateInput := ⟨⟨2026, 9, 3, by decide, by decide⟩, by decide⟩

/-- The messages were published at noon and an hour later. -/
def noonPosts : Store := posts 1788350400000 1788354000000

theorem noon_posts_covered : CoversDays (fun _ _ => true) (fun _ => none) noonPosts Filters.blank
    firstOfSeptember thirdOfSeptember := by
  refine (days_covered_iff _ _ (posts_intact _ _) _ _ _).mpr ⟨?_, ?_⟩
  · unfold NoneLater
    decide +kernel
  · intro k hk hlt
    have hlength : (covered (fun _ _ => true) noonPosts Filters.blank firstOfSeptember
        thirdOfSeptember).length = 2 := by decide +kernel
    rw [noonPosts] at hlength
    rw [hlength, pageSize] at hlt
    omega

/-- The same messages are not found by the date of their day. -/
theorem noon_posts_left_out : Intact noonPosts ∧
    (∀ m ∈ noonPosts.messages, OnDays secondOfSeptember secondOfSeptember m.publishedAt) ∧
    ¬ CoversDays (fun _ _ => true) (fun _ => none) noonPosts Filters.blank secondOfSeptember
      secondOfSeptember := by
  refine ⟨posts_intact _ _, by decide +kernel, fun hcovers => ?_⟩
  have hlater := hcovers.noneLater (posts_intact _ _)
  unfold NoneLater at hlater
  revert hlater
  decide +kernel

end Web

end SocialMonitor

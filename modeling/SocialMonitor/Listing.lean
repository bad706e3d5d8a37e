import SocialMonitor.Async.Program
import SocialMonitor.Paging
import SocialMonitor.Schema

/-!
# List endpoints

The part that the `list` methods share: one page of the rows that a filter
selects, newest first, and the number of all of them.
-/

namespace SocialMonitor.Listing

open Async

/-- What `apiPaginated` returns. -/
structure Paginated (δ : Type) where
  data : List δ
  page : ℕ
  pageSize : ℕ
  total : ℕ

/-- The table of a list endpoint: its `where` and `orderBy` clauses and its relations. -/
structure Source (Filter Row Record : Type) where
  rows : Store → List Row
  selects : Filter → Row → Bool
  orderBy : Row → Time
  related : Store → Row → Option Record

inductive Op (Filter : Type) where
  | findMany (filter : Filter) (skip take : ℕ)
  | count (filter : Filter)

abbrev Answer (Filter Record : Type) : Op Filter → Type
  | .findMany _ _ _ => List Record
  | .count _ => ℕ

variable {Filter Row Record Dto : Type} (source : Source Filter Row Record)

/-- A required relation without a row. -/
def inconsistent : ApiError :=
  .other "Inconsistent query result: Field is required to return data, got null instead."

def Source.matching (s : Store) (filter : Filter) : List Row :=
  (source.rows s).filter (source.selects filter)

def Source.record (s : Store) (row : Row) : Except ApiError Record :=
  match source.related s row with
  | some record => .ok record
  | none => .error inconsistent

def exec (c : Choice) : (op : Op Filter) → Store →
    Except ApiError (Answer Filter Record op) × Store
  | .findMany filter skip take, s =>
      let order := Paging.ordering source.orderBy c.pick (source.matching s filter)
      c.query s ((Paging.slice skip take order).mapM (source.record s), s)
  | .count filter, s => c.query s (.ok (source.matching s filter).length, s)

/-- The two queries of a page, and its body. -/
def list (toDto : Record → Dto) (filter : Filter) (page? pageSize? : Option ℕ) :
    Program (Op Filter) (Answer Filter Record) ApiError (Paginated Dto) := do
  let page := page?.getD 1
  let pageSize := pageSize?.getD 20
  let items ← Program.await (Op.findMany filter ((page - 1) * pageSize) pageSize)
  let total ← Program.await (Op.count filter)
  return ⟨items.map toDto, page, pageSize, total⟩

/-! ## All pages -/

def data : Except ApiError (Paginated Dto) → List Dto
  | .ok body => body.data
  | .error _ => []

/-- A row with a given key is on one of the pages. -/
def Appears {ι : Type} (s : Store)
    (call : ℕ → Program (Op Filter) (Answer Filter Record) ApiError (Paginated Dto))
    (choices : ℕ → ℕ → Choice) (dtoId : Dto → ι) (i : ι) : Prop :=
  ∃ k body, ((call (k + 1)).run (exec source) (choices (k + 1)) s).1 = .ok body ∧
    i ∈ body.data.map dtoId

/-- Whatever the order of the rows is at each page, the pages hold all rows once,
and their number is the total. -/
def Delivers (s : Store)
    (call : ℕ → Program (Op Filter) (Answer Filter Record) ApiError (Paginated Dto))
    (pageSize : ℕ) (all : List Dto) : Prop :=
  ∀ choices : ℕ → ℕ → Choice, (∀ page n, (choices page n).fault = none) →
    (∀ page, ∃ body, ((call page).run (exec source) (choices page) s).1 = .ok body ∧
      body.total = all.length) ∧
      ((List.range (Paging.pageCount all.length pageSize)).flatMap fun k =>
        data ((call (k + 1)).run (exec source) (choices (k + 1)) s).1).Perm all

variable {source}

/-- The rows that a filter selects, as they are shown. -/
def Source.dtos (source : Source Filter Row Record) (toDto : Record → Dto)
    (s : Store) (filter : Filter) :
    List Dto := (source.matching s filter).filterMap fun row => (source.related s row).map toDto

section Related

variable {s : Store} {filter : Filter} {toDto : Record → Dto}

def Source.Related (source : Source Filter Row Record) (s : Store) (filter : Filter) : Prop :=
  ∀ row ∈ source.matching s filter, (source.related s row).isSome

theorem mapM_record {rows : List Row} (h : ∀ row ∈ rows, (source.related s row).isSome) :
    ∃ records, rows.mapM (source.record s) = .ok records ∧
      records.map some = rows.map (source.related s) := by
  induction rows with
  | nil => exact ⟨[], rfl, rfl⟩
  | cons row rows ih =>
      obtain ⟨hrow, hrows⟩ := List.forall_mem_cons.mp h
      obtain ⟨record, hrecord⟩ := Option.isSome_iff_exists.mp hrow
      obtain ⟨records, hmapM, hrecords⟩ := ih hrows
      refine ⟨record :: records, ?_, by simp [hrecord, hrecords]⟩
      have hok : source.record s row = .ok record := by rw [Source.record, hrecord]
      rw [List.mapM_cons, hok, hmapM]
      rfl

theorem map_some_dtos (h : source.Related s filter) (toDto : Record → Dto) :
    (source.dtos toDto s filter).map some =
    (source.matching s filter).map fun row => (source.related s row).map toDto := by
  unfold Source.Related at h
  unfold Source.dtos
  generalize source.matching s filter = rows at h
  induction rows with
  | nil => rfl
  | cons row rows ih =>
      obtain ⟨hrow, hrows⟩ := List.forall_mem_cons.mp h
      obtain ⟨record, hrecord⟩ := Option.isSome_iff_exists.mp hrow
      simp [hrecord, ih hrows]

theorem length_dtos (h : source.Related s filter) :
    (source.dtos toDto s filter).length = (source.matching s filter).length := by
  have hlength : ((source.dtos toDto s filter).map some).length = _ :=
    congrArg List.length (map_some_dtos h toDto)
  rwa [List.length_map, List.length_map] at hlength

/-- What shows the rows has their keys. -/
theorem map_id_of_map_some {ι : Type} {rows : List Row} {data : List Dto}
    (hdata : data.map some = rows.map fun row => (source.related s row).map toDto)
    (id : Row → ι) (dtoId : Dto → ι)
    (hid : ∀ row record, source.related s row = some record → dtoId (toDto record) = id row) :
    data.map dtoId = rows.map id := by
  have hids := congrArg (List.map (Option.map dtoId)) hdata
  rw [List.map_map, List.map_map] at hids
  apply List.map_injective_iff.mpr (Option.some_injective ι)
  rw [List.map_map, List.map_map]
  refine hids.trans (List.map_congr_left fun row hrow => ?_)
  obtain ⟨dto, -, hdto⟩ : ∃ dto ∈ data, some dto = (source.related s row).map toDto := by
    rw [← List.mem_map, hdata]
    exact List.mem_map_of_mem hrow
  obtain ⟨record, hrecord, -⟩ := Option.map_eq_some_iff.mp hdto.symm
  simp [hrecord, hid row record hrecord]

theorem nodup_dtos {ι : Type} (h : source.Related s filter) (id : Row → ι) (dtoId : Dto → ι)
    (hid : ∀ row record, source.related s row = some record → dtoId (toDto record) = id row)
    (hnodup : ((source.rows s).map id).Nodup) : (source.dtos toDto s filter).Nodup := by
  apply List.Nodup.of_map dtoId
  rw [map_id_of_map_some (map_some_dtos h toDto) id dtoId hid]
  exact hnodup.sublist (List.filter_sublist.map id)

/-- The rows of a page have different keys. -/
theorem nodup_slice {ι : Type} {id : Row → ι} (hnodup : ((source.rows s).map id).Nodup)
    (skip take pick : ℕ) : ((Paging.slice skip take
      (Paging.ordering source.orderBy pick (source.matching s filter))).map id).Nodup := by
  have hmatching : ((source.matching s filter).map id).Nodup :=
    hnodup.sublist (List.filter_sublist.map id)
  have horder : Paging.Ordered source.orderBy (source.matching s filter) _ :=
    Paging.ordered_ordering pick _
  have hids := (horder.perm.map id).nodup_iff.mpr hmatching
  exact hids.sublist (((List.take_sublist _ _).trans (List.drop_sublist _ _)).map id)

theorem mem_matching_of_mem_slice {skip take pick : ℕ} {row : Row}
    (h : row ∈ Paging.slice skip take
      (Paging.ordering source.orderBy pick (source.matching s filter))) :
    row ∈ source.matching s filter :=
  (Paging.ordered_ordering _ _).perm.subset (List.mem_of_mem_drop (List.mem_of_mem_take h))

theorem run_list (h : source.Related s filter) (toDto : Record → Dto) {choices : ℕ → Choice}
    (hcalm : ∀ n, (choices n).fault = none)
    (page size : ℕ) : ∃ body,
      ((list toDto filter (some page) (some size)).run (exec source) choices s).1 = .ok body ∧
        body.total = (source.matching s filter).length ∧
        body.data.map some = (Paging.slice ((page - 1) * size) size
          (Paging.ordering source.orderBy (choices 0).pick (source.matching s filter))).map
            fun row => (source.related s row).map toDto := by
  have hslice : ∀ row ∈ Paging.slice ((page - 1) * size) size
      (Paging.ordering source.orderBy (choices 0).pick (source.matching s filter)),
      (source.related s row).isSome := fun row hrow => h row (mem_matching_of_mem_slice hrow)
  obtain ⟨records, hmapM, hrecords⟩ := mapM_record hslice
  refine ⟨⟨records.map toDto, page, size, (source.matching s filter).length⟩, ?_, rfl, ?_⟩
  · simp only [list, Option.getD_some, Program.bind_def, Program.await, Program.bind, Program.run,
      exec, Choice.query_of_fault_none (hcalm _), hmapM, Program.ofExcept_ok]
    rfl
  · have hdtos := congrArg (List.map (Option.map toDto)) hrecords
    simpa only [List.map_map, Function.comp_def, Option.map_some] using hdtos

section Keys

variable {ι : Type} (id : Row → ι) (dtoId : Dto → ι)

/-- A page by the keys of its rows. -/
theorem run_list_ids (h : source.Related s filter) {choices : ℕ → Choice}
    (hid : ∀ row record, source.related s row = some record → dtoId (toDto record) = id row)
    (hcalm : ∀ n, (choices n).fault = none) (page size : ℕ) : ∃ body,
      ((list toDto filter (some page) (some size)).run (exec source) choices s).1 = .ok body ∧
        body.total = (source.matching s filter).length ∧
        body.data.map dtoId = (Paging.slice ((page - 1) * size) size
          (Paging.ordering source.orderBy (choices 0).pick (source.matching s filter))).map id := by
  obtain ⟨body, hrun, htotal, hdata⟩ := run_list h toDto hcalm page size
  exact ⟨body, hrun, htotal, map_id_of_map_some hdata id dtoId hid⟩

theorem appears_iff (h : source.Related s filter) {choices : ℕ → ℕ → Choice}
    (hid : ∀ row record, source.related s row = some record → dtoId (toDto record) = id row)
    (hcalm : ∀ page n, (choices page n).fault = none) (hnodup : ((source.rows s).map id).Nodup)
    (size : ℕ) {row : Row} (hrow : row ∈ source.rows s) :
    Appears source s (fun page => list toDto filter (some page) (some size)) choices dtoId
      (id row) ↔ ∃ k, row ∈ Paging.slice (k * size) size
        (Paging.ordering source.orderBy (choices (k + 1) 0).pick (source.matching s filter)) := by
  refine exists_congr fun k => ?_
  obtain ⟨body, hrun, -, hids⟩ := run_list_ids id dtoId h hid (hcalm (k + 1)) (k + 1) size
  rw [Nat.add_sub_cancel] at hids
  simp only [hrun, Except.ok.injEq, exists_eq_left', hids]
  refine ⟨fun hmem => ?_, List.mem_map_of_mem⟩
  obtain ⟨row', hrow', heq⟩ := List.mem_map.mp hmem
  have hrows := (List.mem_filter.mp (mem_matching_of_mem_slice hrow')).1
  rwa [← List.inj_on_of_nodup_map hnodup hrows hrow heq]

/-- All rows appear exactly if no page ends between two rows of one time. -/
theorem all_appear_iff (h : source.Related s filter)
    (hid : ∀ row record, source.related s row = some record → dtoId (toDto record) = id row)
    (hnodup : ((source.rows s).map id).Nodup) {size : ℕ} (hsize : 0 < size) :
    (∀ choices : ℕ → ℕ → Choice, (∀ page n, (choices page n).fault = none) →
      ∀ row ∈ source.matching s filter, Appears source s
        (fun page => list toDto filter (some page) (some size)) choices dtoId (id row)) ↔
      Paging.Unsplit source.orderBy (source.matching s filter) size := by
  have hrows : (source.matching s filter).Nodup :=
    (List.Nodup.of_map id hnodup).sublist List.filter_sublist
  rw [← Paging.all_mem_slice_iff hrows hsize]
  constructor
  · intro happear orders horders row hrow
    choose picks hpicks using fun k => Paging.exists_ordering (horders k)
    have hcalm : ∀ page n : ℕ,
        ((fun page _ => { calm with pick := picks (page - 1) } : ℕ → ℕ → Choice) page n).fault =
          none := fun _ _ => rfl
    have hmem := (appears_iff id dtoId h hid hcalm hnodup size (List.mem_filter.mp hrow).1).mp
      (happear _ hcalm row hrow)
    simpa only [Nat.add_sub_cancel, hpicks] using hmem
  · intro hslices choices hcalm row hrow
    apply (appears_iff id dtoId h hid hcalm hnodup size (List.mem_filter.mp hrow).1).mpr
    exact hslices _ (fun k => Paging.ordered_ordering _ _) row hrow

end Keys

theorem map_data (h : source.Related s filter) (toDto : Record → Dto) {choices : ℕ → ℕ → Choice}
    (hcalm : ∀ page n, (choices page n).fault = none) (size count : ℕ) :
    (((List.range count).flatMap fun k =>
      data ((list toDto filter (some (k + 1)) (some size)).run (exec source)
        (choices (k + 1)) s).1).map some) =
      (Paging.pages size (fun k => Paging.ordering source.orderBy (choices (k + 1) 0).pick
        (source.matching s filter)) count).map fun row => (source.related s row).map toDto := by
  rw [Paging.pages, List.map_flatMap, List.map_flatMap]
  refine List.flatMap_congr fun k _ => ?_
  obtain ⟨body, hrun, -, hdata⟩ := run_list h toDto (hcalm (k + 1)) (k + 1) size
  rw [hrun]
  exact hdata

theorem data_perm_iff (h : source.Related s filter) (toDto : Record → Dto)
    {choices : ℕ → ℕ → Choice}
    (hcalm : ∀ page n, (choices page n).fault = none) (size : ℕ) :
    (((List.range (Paging.pageCount (source.dtos toDto s filter).length size)).flatMap fun k =>
      data ((list toDto filter (some (k + 1)) (some size)).run (exec source)
        (choices (k + 1)) s).1).Perm
        (source.dtos toDto s filter)) ↔
      ((Paging.pages size (fun k => Paging.ordering source.orderBy (choices (k + 1) 0).pick
        (source.matching s filter)) (Paging.pageCount (source.matching s filter).length size)).map
          fun row => (source.related s row).map toDto).Perm
        ((source.matching s filter).map fun row => (source.related s row).map toDto) := by
  rw [← List.map_perm_map_iff (Option.some_injective Dto), map_data h toDto hcalm,
    map_some_dtos h toDto, length_dtos h]

/-- A list endpoint delivers all rows exactly if no page ends between two rows of one time. -/
theorem delivers_iff (h : source.Related s filter) (hnodup : (source.dtos toDto s filter).Nodup)
    {size : ℕ}
    (hsize : 0 < size) :
    Delivers source s (fun page => list toDto filter (some page) (some size)) size
      (source.dtos toDto s filter) ↔
      Paging.Unsplit source.orderBy (source.matching s filter) size := by
  have hview : ((source.matching s filter).map fun row =>
      (source.related s row).map toDto).Nodup := by
    rw [← map_some_dtos h toDto]
    exact hnodup.map (Option.some_injective _)
  rw [← Paging.map_pages_perm_iff hview hsize]
  constructor
  · intro hdelivers orders horders
    choose picks hpicks using fun k => Paging.exists_ordering (horders k)
    have hcalm : ∀ page n : ℕ,
        ((fun page _ => { calm with pick := picks (page - 1) } : ℕ → ℕ → Choice) page n).fault =
          none := fun _ _ => rfl
    have hperm := (data_perm_iff h toDto hcalm size).mp (hdelivers _ hcalm).2
    simpa only [Nat.add_sub_cancel, hpicks] using hperm
  · intro hpages choices hcalm
    constructor
    · intro page
      obtain ⟨body, hrun, htotal, -⟩ := run_list h toDto (hcalm page) page size
      exact ⟨body, hrun, htotal.trans (length_dtos h).symm⟩
    · exact (data_perm_iff h toDto hcalm size).mpr (hpages _ fun k => Paging.ordered_ordering _ _)

end Related

end SocialMonitor.Listing

import Mathlib.Data.List.Permutation
import Mathlib.Order.Basic
import Mathlib.Tactic

/-!
# Pages of an ordered table

Each page is a slice of some ordering of the rows that is descending in a key.
Rows with the same key may come in another order for every page.
-/

namespace Paging

variable {α β κ : Type} [LinearOrder κ] {key : α → κ}

section Definitions

variable (key)

def Descending (rows : List α) : Prop := rows.Pairwise fun a b => key b ≤ key a

instance (rows : List α) : Decidable (Descending key rows) := by
  unfold Descending
  infer_instance

/-- An order in which `ORDER BY key DESC` may return the rows. -/
structure Ordered (rows order : List α) : Prop where
  perm : order.Perm rows
  descending : Descending key order

/-- The ordering that number `n` stands for. -/
def ordering (n : ℕ) (rows : List α) : List α :=
  let orders := rows.permutations'.filter fun order => Descending key order
  (orders[n % orders.length]?).getD (rows.mergeSort fun a b => key b ≤ key a)

/-- `OFFSET skip LIMIT take`. -/
def slice (skip take : ℕ) (rows : List α) : List α := (rows.drop skip).take take

def pageCount (total size : ℕ) : ℕ := (total + size - 1) / size

/-- No page ends between two rows with the same key: as many rows as the pages
so far hold have a key from some value on. -/
def Unsplit (rows : List α) (size : ℕ) : Prop :=
  ∀ k, 0 < k → k * size < rows.length → ∃ bound, rows.countP (fun a => bound ≤ key a) = k * size

/-- The pages of the given orderings, one after the other. -/
def pages (size : ℕ) (orders : ℕ → List α) (count : ℕ) : List α :=
  (List.range count).flatMap fun k => slice (k * size) size (orders k)

end Definitions

theorem descending_mergeSort (rows : List α) :
    Descending key (rows.mergeSort fun a b => key b ≤ key a) := by
  have hsorted : (rows.mergeSort fun a b => key b ≤ key a).Pairwise
      fun a b => decide (key b ≤ key a) = true := by
    refine List.pairwise_mergeSort (fun a b c hab hbc => ?_) (fun a b => ?_) rows
    · simp only [decide_eq_true_eq] at hab hbc ⊢
      exact hbc.trans hab
    · simpa using le_total (key b) (key a)
  exact hsorted.imp fun h => of_decide_eq_true h

theorem ordered_ordering (n : ℕ) (rows : List α) : Ordered key rows (ordering key n rows) := by
  simp only [ordering]
  cases hget : (rows.permutations'.filter fun order => Descending key order)[n %
      (rows.permutations'.filter fun order => Descending key order).length]? with
  | none => exact ⟨List.mergeSort_perm _ _, descending_mergeSort rows⟩
  | some order =>
      obtain ⟨hperm, hdescending⟩ := List.mem_filter.mp (List.mem_of_getElem? hget)
      exact ⟨List.mem_permutations'.mp hperm, of_decide_eq_true hdescending⟩

theorem exists_ordering {rows order : List α} (h : Ordered key rows order) :
    ∃ n, ordering key n rows = order := by
  have hmem : order ∈ rows.permutations'.filter fun order => Descending key order :=
    List.mem_filter.mpr ⟨List.mem_permutations'.mpr h.perm, decide_eq_true h.descending⟩
  obtain ⟨n, hn⟩ := List.mem_iff_getElem?.mp hmem
  have hlt := (List.getElem?_eq_some_iff.mp hn).1
  exact ⟨n, by simp only [ordering, Nat.mod_eq_of_lt hlt, hn, Option.getD_some]⟩

/-- A view of the rows that keeps their keys comes in the same order. -/
theorem map_ordering (f : α → β) {key' : β → κ} (hkey : ∀ a, key' (f a) = key a)
    (n : ℕ) (rows : List α) :
    (ordering key n rows).map f = ordering key' n (rows.map f) := by
  have hdescending : ∀ order : List α, Descending key' (order.map f) ↔ Descending key order := by
    intro order
    simp only [Descending, List.pairwise_map, hkey]
  have horders : ((rows.map f).permutations'.filter fun order => Descending key' order) =
      (rows.permutations'.filter fun order => Descending key order).map (List.map f) := by
    rw [← List.map_permutations', List.filter_map]
    congr 1
    exact List.filter_congr fun order _ => by simp [hdescending]
  have hsorted : (rows.mergeSort fun a b => key b ≤ key a).map f =
      (rows.map f).mergeSort fun a b => key' b ≤ key' a :=
    List.map_mergeSort fun a _ b _ => by rw [hkey, hkey]
  simp only [ordering, horders, List.length_map, List.getElem?_map, ← hsorted]
  cases (rows.permutations'.filter fun order => Descending key order)[n %
    (rows.permutations'.filter fun order => Descending key order).length]? <;> rfl

/-! ## Pages that do not split rows with the same key -/

/-- The rows with a key from some value on come first. -/
theorem take_countP {rows : List α} (h : Descending key rows) (bound : κ) :
    rows.take (rows.countP fun a => bound ≤ key a) = rows.filter fun a => bound ≤ key a := by
  induction rows with
  | nil => rfl
  | cons a rows ih =>
      obtain ⟨hhead, hrest⟩ := List.pairwise_cons.mp h
      by_cases hbound : bound ≤ key a
      · rw [List.countP_cons_of_pos (by simpa using hbound),
          List.filter_cons_of_pos (by simpa using hbound), List.take_succ_cons, ih hrest]
      · have hnone : ∀ b ∈ a :: rows, ¬ (decide (bound ≤ key b) = true) := by
          intro b hb
          rw [decide_eq_true_iff]
          rcases List.mem_cons.mp hb with rfl | hb
          · exact hbound
          · exact fun hle => hbound (hle.trans (hhead b hb))
        rw [List.countP_eq_zero.mpr hnone, List.filter_eq_nil_iff.mpr hnone, List.take_zero]

theorem take_perm {rows order order' : List α} (h : Ordered key rows order)
    (h' : Ordered key rows order')
    {bound : κ} {n : ℕ} (hn : rows.countP (fun a => bound ≤ key a) = n) :
    (order.take n).Perm (order'.take n) := by
  have hcount : ∀ {o : List α}, Ordered key rows o →
      o.take n = o.filter fun a => bound ≤ key a := by
    intro o ho
    rw [← hn, ← ho.perm.countP_eq, take_countP ho.descending]
  rw [hcount h, hcount h']
  exact (h.perm.trans h'.perm.symm).filter _

theorem pages_succ (size : ℕ) (orders : ℕ → List α) (count : ℕ) :
    pages size orders (count + 1) = pages size orders count ++
      slice (count * size) size (orders count) := by
  simp [pages, List.range_succ]

theorem take_append_slice (size count : ℕ) (rows : List α) :
    rows.take (count * size) ++ slice (count * size) size rows =
      rows.take ((count + 1) * size) := by
  rw [slice, Nat.succ_mul, List.take_add]

theorem pages_perm_take {rows : List α} {size : ℕ} (h : Unsplit key rows size) {orders : ℕ → List α}
    (horders : ∀ k, Ordered key rows (orders k)) (count : ℕ) :
    ∀ order, Ordered key rows order →
    (pages size orders count).Perm (order.take (count * size)) := by
  induction count with
  | zero => simp [pages]
  | succ count ih =>
      intro order horder
      have hnext : (pages size orders (count + 1)).Perm
          ((orders count).take ((count + 1) * size)) := by
        rw [pages_succ, ← take_append_slice]
        exact (ih _ (horders count)).append_right _
      refine hnext.trans ?_
      rcases lt_or_ge ((count + 1) * size) rows.length with hlt | hge
      · obtain ⟨bound, hbound⟩ := h (count + 1) (Nat.succ_pos count) hlt
        exact take_perm (horders count) horder hbound
      · rw [List.take_of_length_le ((horders count).perm.length_eq.trans_le hge),
          List.take_of_length_le (horder.perm.length_eq.trans_le hge)]
        exact (horders count).perm.trans horder.perm.symm

theorem le_pageCount_mul {size : ℕ} (hsize : 0 < size) (total : ℕ) :
    total ≤ pageCount total size * size := by
  have hdiv := Nat.div_add_mod (total + size - 1) size
  have hmod := Nat.mod_lt (total + size - 1) hsize
  rw [pageCount, Nat.mul_comm]
  omega

theorem lt_pageCount {size k total : ℕ} (hsize : 0 < size) :
    k < pageCount total size ↔ k * size < total := by
  rw [pageCount, ← Nat.succ_le_iff, Nat.le_div_iff_mul_le hsize, Nat.succ_mul]
  omega

/-! ## Pages that do -/

/-- Two rows with the same key may change places. -/
theorem Descending.swap {front back : List α} {a b : α}
    (h : Descending key (front ++ a :: b :: back))
    (hkey : key a = key b) : Descending key (front ++ b :: a :: back) := by
  obtain ⟨hfront, hrest, hcross⟩ := List.pairwise_append.mp h
  obtain ⟨ha, hrest⟩ := List.pairwise_cons.mp hrest
  obtain ⟨hb, hback⟩ := List.pairwise_cons.mp hrest
  refine List.pairwise_append.mpr ⟨hfront, ?_, ?_⟩
  · refine List.pairwise_cons.mpr ⟨?_,
      List.pairwise_cons.mpr ⟨fun c hc => ha c (by simp [hc]), hback⟩⟩
    intro c hc
    rcases List.mem_cons.mp hc with rfl | hc
    · exact hkey.le
    · exact hb c hc
  · intro x hx y hy
    exact hcross x hx y (by simp only [List.mem_cons] at hy ⊢; tauto)

/-- Where the keys of two neighbours differ, the rows before have a key from some value on. -/
theorem exists_bound {front back : List α} {a b : α} (h : Descending key (front ++ a :: b :: back))
    (hkey : key a ≠ key b) :
    (front ++ a :: b :: back).countP (fun c => key a ≤ key c) = front.length + 1 := by
  obtain ⟨-, hrest, hcross⟩ := List.pairwise_append.mp h
  obtain ⟨ha, hrest⟩ := List.pairwise_cons.mp hrest
  obtain ⟨hb, -⟩ := List.pairwise_cons.mp hrest
  have hless : key b < key a := lt_of_le_of_ne (ha b List.mem_cons_self) (Ne.symm hkey)
  have hfront : front.countP (fun c => key a ≤ key c) = front.length :=
    List.countP_eq_length.mpr fun c hc => by simpa using hcross c hc a List.mem_cons_self
  have hback : (b :: back).countP (fun c => key a ≤ key c) = 0 := by
    refine List.countP_eq_zero.mpr fun c hc => ?_
    rw [decide_eq_true_iff, not_le]
    rcases List.mem_cons.mp hc with rfl | hc
    · exact hless
    · exact (hb c hc).trans_lt hless
  rw [List.countP_append, List.countP_cons_of_pos (by simp), hfront, hback, zero_add]

theorem exists_neighbours {rows : List α} {n : ℕ} (hpos : 0 < n) (hlt : n < rows.length) :
    ∃ front a b back, rows = front ++ a :: b :: back ∧ front.length + 1 = n := by
  refine ⟨rows.take (n - 1), rows[n - 1], rows[n], rows.drop (n + 1), ?_, ?_⟩
  · have hdrop : rows.drop (n - 1) = rows[n - 1] :: rows[n] :: rows.drop (n + 1) := by
      rw [List.drop_eq_getElem_cons (by omega)]
      have hn : n - 1 + 1 = n := by omega
      rw [hn, List.drop_eq_getElem_cons hlt]
    rw [← hdrop, List.take_append_drop]
  · rw [List.length_take]
    omega

theorem mem_pages {size : ℕ} {orders : ℕ → List α} {count : ℕ} {a : α} :
    a ∈ pages size orders count ↔ ∃ k < count, a ∈ slice (k * size) size (orders k) := by
  simp [pages]

theorem not_nodup_pages {size : ℕ} {orders : ℕ → List α} {count j k : ℕ} {a : α} (hjk : j < k)
    (hk : k < count) (hj : a ∈ slice (j * size) size (orders j))
    (hk' : a ∈ slice (k * size) size (orders k)) : ¬ (pages size orders count).Nodup := by
  intro hnodup
  obtain ⟨-, hdisjoint⟩ := List.nodup_flatMap.mp hnodup
  have hpair := List.pairwise_iff_getElem.mp hdisjoint j k (by simp; omega) (by simpa using hk) hjk
  simp only [List.getElem_range] at hpair
  exact hpair hj hk'

theorem mem_slice {skip take : ℕ} {front back : List α} {a : α} (hskip : skip ≤ front.length)
    (htake : front.length < skip + take) : a ∈ slice skip take (front ++ a :: back) := by
  rw [slice, List.drop_append_of_le_length hskip]
  refine List.mem_iff_getElem?.mpr ⟨front.length - skip, ?_⟩
  rw [List.getElem?_take_of_lt (by omega), List.getElem?_append_right (by simp)]
  simp

/-- The pages hold every row once, in whatever orders the rows come, exactly if
no page ends between two rows with the same key. -/
theorem pages_perm_iff {rows : List α} (hnodup : rows.Nodup) {size : ℕ} (hsize : 0 < size) :
    (∀ orders : ℕ → List α, (∀ k, Ordered key rows (orders k)) →
      (pages size orders (pageCount rows.length size)).Perm rows) ↔ Unsplit key rows size := by
  constructor
  · intro hpages k hk hlt
    obtain ⟨order, horder⟩ : ∃ order, Ordered key rows order := ⟨_, ordered_ordering 0 rows⟩
    obtain ⟨front, a, b, back, rfl, hlength⟩ := exists_neighbours (Nat.mul_pos hk hsize)
      (hlt.trans_eq horder.perm.length_eq.symm)
    by_cases hkey : key a = key b
    · have hswap : Ordered key rows (front ++ b :: a :: back) := by
        refine ⟨?_, horder.descending.swap hkey⟩
        exact ((List.Perm.swap a b back).append_left front).trans horder.perm
      -- The row before the boundary comes after it in the orders from the next page on.
      have htwice := hpages
          (fun j => if j < k then front ++ a :: b :: back else front ++ b :: a :: back)
        fun j => by split_ifs <;> assumption
      obtain ⟨k, rfl⟩ := Nat.exists_eq_succ_of_ne_zero hk.ne'
      rw [Nat.succ_mul] at hlength
      refine absurd (htwice.nodup_iff.mpr hnodup) ?_
      refine not_nodup_pages (Nat.lt_succ_self k) ((lt_pageCount hsize).mpr hlt) (a := a) ?_ ?_
      · rw [if_pos (Nat.lt_succ_self k)]
        exact mem_slice (by omega) (by omega)
      · rw [if_neg (lt_irrefl _), Nat.succ_mul, List.append_cons]
        exact mem_slice (by simp; omega) (by simp; omega)
    · exact ⟨key a, by rw [← horder.perm.countP_eq, exists_bound horder.descending hkey, hlength]⟩
  · intro hunsplit orders horders
    have horder : Ordered key rows (ordering key 0 rows) := ordered_ordering 0 rows
    have htake := pages_perm_take hunsplit horders (pageCount rows.length size) _ horder
    rw [List.take_of_length_le (horder.perm.length_eq.trans_le (le_pageCount_mul hsize _))] at htake
    exact htake.trans horder.perm

theorem pages_subset {rows : List α} {size : ℕ} {orders : ℕ → List α}
    (horders : ∀ k, Ordered key rows (orders k)) (count : ℕ) : pages size orders count ⊆ rows := by
  intro a ha
  obtain ⟨k, -, ha⟩ := mem_pages.mp ha
  exact (horders k).perm.subset (List.mem_of_mem_drop (List.mem_of_mem_take ha))

theorem length_pages {rows : List α} {orders : ℕ → List α}
    (horders : ∀ k, Ordered key rows (orders k)) (size count : ℕ) :
    (pages size orders count).length = min (count * size) rows.length := by
  induction count with
  | zero => simp [pages]
  | succ count ih =>
      rw [pages_succ, List.length_append, ih, slice, List.length_take, List.length_drop,
        (horders count).perm.length_eq, Nat.succ_mul]
      omega

/-- As there are as many places as rows, every row is on some page only if each is there once. -/
theorem pages_perm_of_subset {rows : List α} (hnodup : rows.Nodup) {size : ℕ} (hsize : 0 < size)
    {orders : ℕ → List α} (horders : ∀ k, Ordered key rows (orders k))
    (h : rows ⊆ pages size orders (pageCount rows.length size)) :
    (pages size orders (pageCount rows.length size)).Perm rows := by
  refine ((List.subperm_of_subset hnodup h).perm_of_length_le ?_).symm
  rw [length_pages horders, Nat.min_eq_right (le_pageCount_mul hsize _)]

theorem mem_pages_pageCount {rows : List α} {size : ℕ} (hsize : 0 < size) {orders : ℕ → List α}
    (horders : ∀ k, Ordered key rows (orders k)) {a : α} :
    a ∈ pages size orders (pageCount rows.length size) ↔
      ∃ k, a ∈ slice (k * size) size (orders k) := by
  rw [mem_pages]
  refine ⟨fun ⟨k, _, ha⟩ => ⟨k, ha⟩, fun ⟨k, ha⟩ => ⟨k, (lt_pageCount hsize).mpr ?_, ha⟩⟩
  by_contra hge
  rw [slice, List.drop_eq_nil_of_le ((horders k).perm.length_eq.trans_le (not_lt.mp hge))] at ha
  exact absurd ha (by simp)

/-- Every row is on some page, in whatever orders the rows come, exactly if no
page ends between two rows with the same key. -/
theorem all_mem_slice_iff {rows : List α} (hnodup : rows.Nodup) {size : ℕ} (hsize : 0 < size) :
    (∀ orders : ℕ → List α, (∀ k, Ordered key rows (orders k)) →
      ∀ a ∈ rows, ∃ k, a ∈ slice (k * size) size (orders k)) ↔ Unsplit key rows size := by
  rw [← pages_perm_iff hnodup hsize]
  refine forall₂_congr fun orders horders => ⟨fun h => ?_, fun hperm a ha => ?_⟩
  · apply pages_perm_of_subset hnodup hsize horders
    intro a ha
    exact (mem_pages_pageCount hsize horders).mpr (h a ha)
  · exact (mem_pages_pageCount hsize horders).mp (hperm.mem_iff.mpr ha)

/-- The same of views of the rows that tell them apart. -/
theorem map_pages_perm_iff {rows : List α} {view : α → β}
    (hnodup : (rows.map view).Nodup) {size : ℕ}
    (hsize : 0 < size) :
    (∀ orders : ℕ → List α, (∀ k, Ordered key rows (orders k)) →
      ((pages size orders (pageCount rows.length size)).map view).Perm (rows.map view)) ↔
      Unsplit key rows size := by
  refine Iff.trans (forall₂_congr fun orders horders =>
    ⟨fun hperm => ?_, fun hperm => hperm.map view⟩)
    (pages_perm_iff (List.Nodup.of_map _ hnodup) hsize)
  have hpages : (pages size orders (pageCount rows.length size)).Nodup :=
    List.Nodup.of_map _ (hperm.nodup_iff.mpr hnodup)
  refine (List.subperm_of_subset hpages (pages_subset horders _)).perm_of_length_le ?_
  have hlength := hperm.length_eq
  rw [List.length_map, List.length_map] at hlength
  exact hlength.ge

end Paging

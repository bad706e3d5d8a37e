import Mathlib.Data.List.Nodup
import Mathlib.Data.List.Permutation
import Mathlib.Order.Basic
import Mathlib.Data.Nat.Basic
import Mathlib.Tactic.Common

/-!
# Tables with keys

A table is a list of rows.  Its identifiers are drawn from a counter, and a key
tells its rows apart.
-/

namespace Table

variable {α κ : Type}

/-- The identifiers are different and lie below the counter. -/
structure Drawn (ids : List ℕ) (next : ℕ) : Prop where
  nodup : ids.Nodup
  below : ∀ i ∈ ids, i < next

theorem Drawn.mono {ids : List ℕ} {next next' : ℕ} (h : Drawn ids next) (hle : next ≤ next') :
    Drawn ids next' :=
  ⟨h.nodup, fun i hi => (h.below i hi).trans_le hle⟩

theorem Drawn.sublist {ids ids' : List ℕ} {next : ℕ} (h : Drawn ids next)
    (hsub : ids'.Sublist ids) :
    Drawn ids' next :=
  ⟨h.nodup.sublist hsub, fun i hi => h.below i (hsub.subset hi)⟩

theorem Drawn.append_range {ids : List ℕ} {next : ℕ} (h : Drawn ids next) (k : ℕ) :
    Drawn (ids ++ List.range' next k) (next + k) := by
  constructor
  · refine h.nodup.append List.nodup_range' fun i hi hi' => ?_
    exact (h.below i hi).not_ge (List.mem_range'_1.mp hi').1
  · intro i hi
    rcases List.mem_append.mp hi with hi | hi
    · exact Nat.lt_add_right k (h.below i hi)
    · exact (List.mem_range'_1.mp hi).2

theorem Drawn.snoc {ids : List ℕ} {next : ℕ} (h : Drawn ids next) :
    Drawn (ids ++ [next]) (next + 1) := h.append_range 1

/-- Rows with the same key are the same row. -/
def Unique (key : α → κ) (rows : List α) : Prop :=
  ∀ a ∈ rows, ∀ b ∈ rows, key a = key b → a = b

theorem Unique.subset {key : α → κ} {rows rows' : List α} (h : Unique key rows)
    (hsub : rows' ⊆ rows) : Unique key rows' :=
  fun a ha b hb => h a (hsub ha) b (hsub hb)

theorem Unique.snoc {key : α → κ} {rows : List α} {row : α} (h : Unique key rows)
    (hnew : ∀ a ∈ rows, key a ≠ key row) : Unique key (rows ++ [row]) := by
  intro a hmem b hmem' heq
  rcases List.mem_append.mp hmem with ha | hrow <;> rcases List.mem_append.mp hmem' with hb | hrow'
  · exact h a ha b hb heq
  · obtain rfl := List.mem_singleton.mp hrow'
    exact absurd heq (hnew a ha)
  · obtain rfl := List.mem_singleton.mp hrow
    exact absurd heq.symm (hnew b hb)
  · rw [List.mem_singleton.mp hrow, List.mem_singleton.mp hrow']

/-- An update of rows that leaves the keys alone. -/
theorem Unique.map {key : α → κ} {rows : List α} (h : Unique key rows) {f : α → α}
    (hf : ∀ a, key (f a) = key a) : Unique key (rows.map f) := by
  intro a' ha' b' hb' heq
  obtain ⟨a, ha, rfl⟩ := List.mem_map.mp ha'
  obtain ⟨b, hb, rfl⟩ := List.mem_map.mp hb'
  rw [hf, hf] at heq
  rw [h a ha b hb heq]

theorem find?_of_nodup {f : α → ℕ} {rows : List α} (h : (rows.map f).Nodup) {a : α}
    (ha : a ∈ rows) : rows.find? (fun b => f b = f a) = some a := by
  cases hfind : rows.find? fun b => f b = f a with
  | none =>
      have hnot := List.find?_eq_none.mp hfind a ha
      simp at hnot
  | some b =>
      have hb : f b = f a := by simpa using List.find?_some hfind
      rw [List.inj_on_of_nodup_map h (List.mem_of_find?_eq_some hfind) ha hb]

theorem Unique.find? {key : α → κ} {rows : List α} (h : Unique key rows) {a : α} (ha : a ∈ rows)
    {p : α → Bool} (hp : ∀ b, p b = true ↔ key b = key a) : rows.find? p = some a := by
  cases hfind : rows.find? p with
  | none => exact absurd ((hp a).mpr rfl) (List.find?_eq_none.mp hfind a ha)
  | some b =>
      rw [h b (List.mem_of_find?_eq_some hfind) a ha ((hp b).mp (List.find?_some hfind))]

theorem Unique.filter_length [DecidableEq κ] {key : α → κ} {rows : List α} (h : Unique key rows)
    (hnodup : rows.Nodup) {a : α} (ha : a ∈ rows) :
    (rows.filter fun b => key b = key a).length = 1 := by
  have hsame : ∀ b ∈ rows.filter fun b => key b = key a, b = a := by
    intro b hb
    obtain ⟨hb, hkey⟩ := List.mem_filter.mp hb
    exact h b hb a ha (by simpa using hkey)
  have hreplicate := List.eq_replicate_of_mem hsame
  have hmem : a ∈ rows.filter fun b => key b = key a := List.mem_filter.mpr ⟨ha, by simp⟩
  have hle := List.nodup_replicate.mp (hreplicate ▸ hnodup.filter fun b => key b = key a)
  have hpos := List.length_pos_of_mem hmem
  omega

/-! ## References -/

/-- Every row refers to one of the identifiers. -/
def Refers (ref : α → ℕ) (rows : List α) (ids : List ℕ) : Prop := ∀ a ∈ rows, ref a ∈ ids

section Refers

variable {β : Type} {ref : α → ℕ} {rows rows' : List α} {ids ids' : List ℕ}

theorem Refers.mono (h : Refers ref rows ids) (hsub : ids ⊆ ids') : Refers ref rows ids' :=
  fun a ha => hsub (h a ha)

theorem Refers.subset (h : Refers ref rows ids) (hsub : rows' ⊆ rows) : Refers ref rows' ids :=
  fun a ha => h a (hsub ha)

theorem Refers.append (h : Refers ref rows ids) (h' : Refers ref rows' ids) :
    Refers ref (rows ++ rows') ids := by
  intro a ha
  rcases List.mem_append.mp ha with ha | ha
  · exact h a ha
  · exact h' a ha

theorem Refers.map (h : Refers ref rows ids) {f : α → α} (hf : ∀ a, ref (f a) = ref a) :
    Refers ref (rows.map f) ids := by
  intro a' ha'
  obtain ⟨a, ha, rfl⟩ := List.mem_map.mp ha'
  rw [hf]
  exact h a ha

/-- A row is deleted together with the rows that refer to it. -/
theorem Refers.cascade {id : β → ℕ} {owners : List β} (h : Refers ref rows (owners.map id))
    (gone : β → Bool) : Refers ref
      (rows.filter fun a => !owners.any fun b => id b = ref a && gone b)
      ((owners.filter fun b => !gone b).map id) := by
  intro a ha
  obtain ⟨ha, hkept⟩ := List.mem_filter.mp ha
  obtain ⟨b, hb, hid⟩ := List.mem_map.mp (h a ha)
  refine List.mem_map.mpr ⟨b, List.mem_filter.mpr ⟨hb, ?_⟩, hid⟩
  cases hgone : gone b with
  | false => rfl
  | true =>
      have hany : (owners.any fun b => id b = ref a && gone b) = true :=
        List.any_eq_true.mpr ⟨b, hb, by simp [hid, hgone]⟩
      simp [hany] at hkept

/-- The same where the deleted row is known by its identifier. -/
theorem Refers.cascade_id {id : β → ℕ} {owners : List β} (h : Refers ref rows (owners.map id))
    (gone : ℕ) : Refers ref (rows.filter fun a => ref a ≠ gone)
      ((owners.filter fun b => id b ≠ gone).map id) := by
  intro a ha
  obtain ⟨ha, hne⟩ := List.mem_filter.mp ha
  obtain ⟨b, hb, hid⟩ := List.mem_map.mp (h a ha)
  exact List.mem_map.mpr ⟨b, List.mem_filter.mpr ⟨hb, by simpa [hid] using hne⟩, hid⟩

end Refers

/-! ## Rows in no particular order -/

/-- The rows in the order that number `n` stands for. -/
def arranged (n : ℕ) (rows : List α) : List α :=
  (rows.permutations'[n % rows.permutations'.length]?).getD rows

theorem arranged_perm (n : ℕ) (rows : List α) : (arranged n rows).Perm rows := by
  unfold arranged
  cases hget : rows.permutations'[n % rows.permutations'.length]? with
  | none => rfl
  | some order => exact List.mem_permutations'.mp (List.mem_of_getElem? hget)

/-- Every order is one of them. -/
theorem exists_arranged {rows order : List α} (h : order.Perm rows) :
    ∃ n, arranged n rows = order := by
  obtain ⟨n, hn⟩ := List.mem_iff_getElem?.mp (List.mem_permutations'.mpr h)
  have hlt := (List.getElem?_eq_some_iff.mp hn).1
  exact ⟨n, by rw [arranged, Nat.mod_eq_of_lt hlt, hn, Option.getD_some]⟩

/-- Any row may come first. -/
theorem exists_arranged_head [DecidableEq α] {rows : List α} {a : α} (ha : a ∈ rows) :
    ∃ n, (arranged n rows).head? = some a := by
  obtain ⟨n, hn⟩ := exists_arranged (List.perm_cons_erase ha).symm
  exact ⟨n, by rw [hn, List.head?_cons]⟩

theorem head?_arranged {n : ℕ} {rows : List α} {a : α} (h : (arranged n rows).head? = some a) :
    a ∈ rows := (arranged_perm n rows).mem_iff.mp (List.mem_of_mem_head? h)

end Table

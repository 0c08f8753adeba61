import ExchangeCore.Framework.HashMap
import ExchangeCore.Framework.SortedMap

/-!
# Partitioned tables

A table whose primary key is a partition key and a clustering key: the rows of a partition are kept
in the order of the clustering key, and there is at most one for each.  An insert writes the row of
its key, whether there was one or not (`rowAt_insertRow`).  The query for the newest row of a
partition gives the row with the greatest clustering key (`newest_eq_some_iff`).

Of rows with different keys, the order in which they are inserted makes no difference
(`rowAt_insertAll`).
-/

namespace ExchangeCore

/-- A table with partition keys `π`, clustering keys `κ` and rows `ρ`. -/
structure Table (π κ ρ : Type) [LinearOrder κ] where
  partitions : HashMap π (SortedMap κ ρ)

namespace Table

variable {π κ ρ : Type} [DecidableEq π] [LinearOrder κ]

/-- The table without rows. -/
def empty : Table π κ ρ := ⟨.empty⟩

/-- The rows of a partition. -/
def partition (t : Table π κ ρ) (p : π) : SortedMap κ ρ := (t.partitions.get? p).getD .empty

/-- The row of a key. -/
def rowAt (t : Table π κ ρ) (key : π × κ) : Option ρ := (t.partition key.1).get? key.2

/-- `INSERT`. -/
def insertRow (t : Table π κ ρ) (key : π × κ) (row : ρ) : Table π κ ρ :=
  ⟨t.partitions.insert key.1 ((t.partition key.1).upsert key.2 (fun _ => row))⟩

/-- The row of a partition that comes first by descending clustering key. -/
def newest (t : Table π κ ρ) (p : π) : Option (κ × ρ) := (t.partition p).last?

/-- Insert a row for each item. -/
def insertAll {α : Type} (keyOf : α → π × κ) (rowOf : α → ρ) (items : List α)
    (t : Table π κ ρ) : Table π κ ρ :=
  items.foldl (fun t item => t.insertRow (keyOf item) (rowOf item)) t

variable {t : Table π κ ρ} {p : π} {k : κ} {row : ρ}

@[simp] lemma rowAt_empty (key : π × κ) : (empty : Table π κ ρ).rowAt key = none := rfl

lemma partition_insertRow (t : Table π κ ρ) (key : π × κ) (row : ρ) (p : π) :
    (t.insertRow key row).partition p =
      if p = key.1 then (t.partition key.1).upsert key.2 (fun _ => row) else t.partition p := by
  rw [partition, insertRow, HashMap.get?_insert]
  split
  · rfl
  · rfl

lemma rowAt_insertRow (t : Table π κ ρ) (key key' : π × κ) (row : ρ) :
    (t.insertRow key row).rowAt key' = if key' = key then some row else t.rowAt key' := by
  obtain ⟨p, k⟩ := key
  obtain ⟨p', k'⟩ := key'
  rw [rowAt, partition_insertRow]
  by_cases hp : p' = p
  · subst hp
    rw [if_pos rfl, SortedMap.get?_upsert]
    refine if_congr ?_ rfl rfl
    rw [Prod.mk.injEq, and_iff_right rfl]
  · rw [if_neg hp, if_neg (fun h => hp (Prod.mk.inj h).1)]
    rfl

/-- The newest row is the one with the greatest clustering key. -/
lemma newest_eq_some_iff : t.newest p = some (k, row) ↔
    t.rowAt (p, k) = some row ∧ ∀ k' row', t.rowAt (p, k') = some row' → k' ≤ k := by
  have hmem : ∀ {k' : κ} {row' : ρ}, t.rowAt (p, k') = some row' ↔
      (k', row') ∈ (t.partition p).entries := SortedMap.get?_eq_some_iff _ _ _
  constructor
  · intro h
    refine ⟨hmem.mpr (SortedMap.last?_mem h), fun k' row' hrow => ?_⟩
    exact SortedMap.le_last? h (hmem.mp hrow)
  · rintro ⟨hrow, hgreatest⟩
    rcases hlast : t.newest p with _ | ⟨k', row'⟩
    · have hnil : (t.partition p).entries = [] := List.getLast?_eq_none_iff.mp hlast
      have hin := hmem.mp hrow
      rw [hnil] at hin
      exact absurd hin List.not_mem_nil
    · have hrow' := hmem.mpr (SortedMap.last?_mem hlast)
      obtain rfl : k = k' :=
        le_antisymm (SortedMap.le_last? hlast (hmem.mp hrow)) (hgreatest k' row' hrow')
      rw [Option.some.inj (hrow.symm.trans hrow')]

lemma newest_eq_none_iff : t.newest p = none ↔ ∀ k, t.rowAt (p, k) = none := by
  constructor
  · intro h k
    have hnil : (t.partition p).entries = [] := List.getLast?_eq_none_iff.mp h
    rw [rowAt, SortedMap.get?, hnil]
    rfl
  · intro h
    rcases hlast : t.newest p with _ | ⟨k, row⟩
    · rfl
    · have hrow := (newest_eq_some_iff.mp hlast).1
      rw [h k] at hrow
      exact absurd hrow (by simp)

lemma rowAt_eq_none_of_newest_lt {k' : κ} (h : t.newest p = some (k, row)) (hlt : k < k') :
    t.rowAt (p, k') = none := by
  rcases hrow : t.rowAt (p, k') with _ | row'
  · rfl
  · exact absurd ((newest_eq_some_iff.mp h).2 k' row' hrow) (not_le_of_gt hlt)

lemma newest_insertRow (t : Table π κ ρ) {key : π × κ} (hnew : t.rowAt key = none) (row : ρ)
    (p : π) : (t.insertRow key row).newest p = t.newest p ∨
      p = key.1 ∧ (t.insertRow key row).newest p = some (key.2, row) := by
  have hrowAt : ∀ k row', (t.insertRow key row).rowAt (p, k) = some row' ↔
      (p, k) = key ∧ row = row' ∨ t.rowAt (p, k) = some row' := by
    intro k row'
    rw [rowAt_insertRow]
    by_cases hkey : (p, k) = key
    · rw [if_pos hkey, hkey, hnew, and_iff_right rfl, Option.some.injEq]
      exact (or_iff_left (by simp)).symm
    · rw [if_neg hkey]
      exact (or_iff_right (fun h => hkey h.1)).symm
  rcases hafter : (t.insertRow key row).newest p with _ | ⟨k, row'⟩
  · left
    rw [newest_eq_none_iff] at hafter
    refine (newest_eq_none_iff.mpr (fun k => Option.eq_none_iff_forall_ne_some.mpr ?_)).symm
    intro row' hrow
    have hsome := (hrowAt k row').mpr (.inr hrow)
    rw [hafter k] at hsome
    exact absurd hsome (by simp)
  · obtain ⟨hrow, hgreatest⟩ := newest_eq_some_iff.mp hafter
    rcases (hrowAt k row').mp hrow with ⟨rfl, rfl⟩ | hold
    · exact .inr ⟨rfl, rfl⟩
    · left
      refine (newest_eq_some_iff.mpr ⟨hold, fun k' row'' hrow' => ?_⟩).symm
      exact hgreatest k' row'' ((hrowAt k' row'').mpr (.inr hrow'))

lemma foldl_insertAll {α : Type} (keyOf : α → π × κ) (rowOf : α → ρ) (batches : List (List α))
    (t : Table π κ ρ) :
    batches.foldl (fun t items => insertAll keyOf rowOf items t) t =
      insertAll keyOf rowOf batches.flatten t := by
  induction batches generalizing t with
  | nil => rfl
  | cons items batches ih =>
      rw [List.foldl_cons, ih, List.flatten_cons, insertAll, insertAll, insertAll,
        List.foldl_append]

lemma rowAt_insertAll {α : Type} {keyOf : α → π × κ} {rowOf : α → ρ} {items : List α}
    (hkeys : items.Pairwise (fun a b => keyOf a ≠ keyOf b)) (t : Table π κ ρ) (key : π × κ)
    (row : ρ) :
    (insertAll keyOf rowOf items t).rowAt key = some row ↔
      (∃ item ∈ items, keyOf item = key ∧ rowOf item = row) ∨
        (∀ item ∈ items, keyOf item ≠ key) ∧ t.rowAt key = some row := by
  induction items generalizing t with
  | nil =>
      refine iff_of_eq ?_
      simp [insertAll]
  | cons item items ih =>
      obtain ⟨hhead, htail⟩ := List.pairwise_cons.mp hkeys
      have hstep : insertAll keyOf rowOf (item :: items) t =
          insertAll keyOf rowOf items (t.insertRow (keyOf item) (rowOf item)) := rfl
      rw [hstep, ih htail, rowAt_insertRow]
      by_cases hkey : key = keyOf item
      · subst hkey
        have hrest : ∀ other ∈ items, keyOf other ≠ keyOf item :=
          fun other hother => (hhead other hother).symm
        rw [if_pos rfl]
        constructor
        · rintro (⟨other, hother, heq, -⟩ | ⟨-, hrow⟩)
          · exact absurd heq (hrest other hother)
          · exact .inl ⟨item, List.mem_cons_self, rfl, Option.some.inj hrow⟩
        · rintro (⟨other, hother, heq, hrow⟩ | ⟨hnone, -⟩)
          · rcases List.mem_cons.mp hother with rfl | hother'
            · exact .inr ⟨hrest, congrArg some hrow⟩
            · exact absurd heq (hrest other hother')
          · exact absurd rfl (hnone item List.mem_cons_self)
      · rw [if_neg hkey]
        simp only [List.mem_cons, exists_eq_or_imp, forall_eq_or_imp]
        have hitem : ¬(keyOf item = key ∧ rowOf item = row) := fun h => hkey h.1.symm
        rw [or_iff_right hitem, and_iff_right (Ne.symm hkey)]

end Table

end ExchangeCore

import Mathlib.Algebra.BigOperators.Group.Finset.Basic
import Mathlib.Data.Finmap
import Mathlib.Tactic.Common

/-!
# Hash maps

A hash map is a finite map with no observable order: Mathlib's `Finmap` at a constant value
family.  This file fixes the vocabulary a program uses on it (`get?`, `insert`, `erase`,
`keys`) together with the lookup equations, stated as one `if` each so that `simp` evaluates a
lookup through any sequence of updates.  `sumEntries` totals a quantity over the entries, and `sum`
over the stored values alone; storing a value replaces what was stored by it (`sumEntries_insert`).

Hash sets are Mathlib's `Finset`, used as they are.
-/

namespace ExchangeCore

/-- A finite map without an order on its entries. -/
def HashMap (κ ν : Type) : Type := Finmap (fun _ : κ => ν)

namespace HashMap

variable {κ ν : Type} [DecidableEq κ]

/-- The map with no entries. -/
def empty : HashMap κ ν := (∅ : Finmap (fun _ : κ => ν))

/-- The value stored under a key. -/
def get? (m : HashMap κ ν) (k : κ) : Option ν := Finmap.lookup k m

/-- Store a value, overwriting the previous one. -/
def insert (m : HashMap κ ν) (k : κ) (v : ν) : HashMap κ ν := Finmap.insert k v m

/-- Remove a key. -/
def erase (m : HashMap κ ν) (k : κ) : HashMap κ ν := Finmap.erase k m

/-- The keys present. -/
def keys (m : HashMap κ ν) : Finset κ := Finmap.keys m

instance decidableEq [DecidableEq ν] : DecidableEq (HashMap κ ν) :=
  inferInstanceAs (DecidableEq (Finmap (fun _ : κ => ν)))

@[ext] lemma ext {m n : HashMap κ ν} (h : ∀ k, m.get? k = n.get? k) : m = n :=
  Finmap.ext_lookup h

@[simp] lemma get?_empty (k : κ) : (empty : HashMap κ ν).get? k = none :=
  Finmap.lookup_empty k

@[simp] lemma get?_insert (m : HashMap κ ν) (k k' : κ) (v : ν) :
    (m.insert k v).get? k' = if k' = k then some v else m.get? k' := by
  split
  · rename_i h
    subst h
    exact Finmap.lookup_insert m
  · rename_i h
    exact Finmap.lookup_insert_of_ne m h

lemma insert_insert (m : HashMap κ ν) (k : κ) (v w : ν) :
    (m.insert k v).insert k w = m.insert k w := by
  ext k' : 1
  simp only [get?_insert]
  split <;> rfl

/-- Storing what is stored changes nothing. -/
lemma insert_self {m : HashMap κ ν} {k : κ} {v : ν} (h : m.get? k = some v) : m.insert k v = m := by
  ext k' : 1
  rw [get?_insert]
  split
  · rename_i hk
    rw [hk, h]
  · rfl

@[simp] lemma get?_erase (m : HashMap κ ν) (k k' : κ) :
    (m.erase k).get? k' = if k' = k then none else m.get? k' := by
  split
  · rename_i h
    subst h
    exact Finmap.lookup_erase k' m
  · rename_i h
    exact Finmap.lookup_erase_ne h

/-- The entries of both maps, those of the first where both have a key. -/
def union (m n : HashMap κ ν) : HashMap κ ν := (Union.union m n : Finmap (fun _ : κ => ν))

@[simp] lemma get?_union (m n : HashMap κ ν) (k : κ) :
    (m.union n).get? k = (m.get? k).or (n.get? k) := by
  by_cases h : k ∈ m.keys
  · have hmem := Finmap.mem_keys.mp h
    obtain ⟨v, hv⟩ := Finmap.mem_iff.mp hmem
    have hget : m.get? k = some v := hv
    rw [hget, Option.some_or]
    exact (Finmap.lookup_union_left hmem).trans hv
  · have hmem := fun hk => h (Finmap.mem_keys.mpr hk)
    have hget : m.get? k = none := Finmap.lookup_eq_none.mpr hmem
    rw [hget, Option.none_or]
    exact Finmap.lookup_union_right hmem

@[simp] lemma mem_keys (m : HashMap κ ν) (k : κ) : k ∈ m.keys ↔ (m.get? k).isSome :=
  Finmap.mem_keys.trans Finmap.lookup_isSome.symm

lemma keys_insert (m : HashMap κ ν) (k : κ) (v : ν) :
    (m.insert k v).keys = Insert.insert k m.keys := by
  ext k'
  rw [mem_keys, get?_insert, Finset.mem_insert, mem_keys]
  by_cases h : k' = k <;> simp [h]

/-- An enumeration of the map: every key once, in some order. -/
def Lists (m : HashMap κ ν) (listing : List κ) : Prop :=
  listing.Nodup ∧ listing.toFinset = m.keys

instance decidableLists (m : HashMap κ ν) (listing : List κ) : Decidable (m.Lists listing) :=
  inferInstanceAs (Decidable (_ ∧ _))

lemma Lists.mem_iff {m : HashMap κ ν} {listing : List κ} (h : m.Lists listing) (k : κ) :
    k ∈ listing ↔ (m.get? k).isSome := by
  rw [← List.mem_toFinset, h.2, mem_keys]

lemma exists_lists (m : HashMap κ ν) : ∃ listing, m.Lists listing :=
  ⟨m.keys.toList, m.keys.nodup_toList, m.keys.toList_toFinset⟩

lemma get?_foldl_erase (ks : List κ) (m : HashMap κ ν) (k : κ) :
    (ks.foldl erase m).get? k = if k ∈ ks then none else m.get? k := by
  induction ks generalizing m with
  | nil => simp
  | cons first ks ih =>
      rw [List.foldl_cons, ih, get?_erase]
      by_cases hmem : k ∈ ks
      · simp [hmem]
      · by_cases heq : k = first
        · simp [heq]
        · simp [hmem, heq]

/-! ## Totals -/

variable {M : Type*} [AddCommMonoid M]

/-- The total of a quantity over the entries. -/
def sumEntries (m : HashMap κ ν) (f : κ → ν → M) : M := ∑ k ∈ m.keys, (m.get? k).elim 0 (f k)

/-- The total of a quantity over the stored values. -/
def sum (m : HashMap κ ν) (f : ν → M) : M := ∑ k ∈ m.keys, (m.get? k).elim 0 f

/-- The total with one key set aside. -/
lemma sumEntries_eq_add_erase (m : HashMap κ ν) (k : κ) (f : κ → ν → M) :
    m.sumEntries f =
      (m.get? k).elim 0 (f k) + ∑ k' ∈ m.keys.erase k, (m.get? k').elim 0 (f k') := by
  by_cases hk : k ∈ m.keys
  · exact (Finset.add_sum_erase _ _ hk).symm
  · have hnone : m.get? k = none := by simpa using hk
    rw [hnone, Finset.erase_eq_of_notMem hk, Option.elim_none, zero_add]
    rfl

/-- Storing a value puts its quantity in place of the one stored before. -/
lemma sumEntries_insert (m : HashMap κ ν) (k : κ) (v : ν) (f : κ → ν → M) :
    (m.insert k v).sumEntries f + (m.get? k).elim 0 (f k) = m.sumEntries f + f k v := by
  have hkeys : (m.insert k v).keys.erase k = m.keys.erase k := by
    rw [keys_insert, Finset.erase_insert_eq_erase]
  have hrest : ∑ k' ∈ m.keys.erase k, ((m.insert k v).get? k').elim 0 (f k') =
      ∑ k' ∈ m.keys.erase k, (m.get? k').elim 0 (f k') := by
    refine Finset.sum_congr rfl (fun k' hk' => ?_)
    rw [get?_insert, if_neg (Finset.ne_of_mem_erase hk')]
  rw [sumEntries_eq_add_erase (m.insert k v) k, sumEntries_eq_add_erase m k, hkeys, hrest,
    get?_insert, if_pos rfl, Option.elim_some]
  ac_rfl

/-- Removing a key takes its quantity away. -/
lemma sumEntries_erase (m : HashMap κ ν) (k : κ) (f : κ → ν → M) :
    (m.erase k).sumEntries f + (m.get? k).elim 0 (f k) = m.sumEntries f := by
  have hkeys : (m.erase k).keys.erase k = m.keys.erase k := by
    ext k'
    simp only [Finset.mem_erase, mem_keys, get?_erase]
    by_cases h : k' = k <;> simp [h]
  have hrest : ∑ k' ∈ m.keys.erase k, ((m.erase k).get? k').elim 0 (f k') =
      ∑ k' ∈ m.keys.erase k, (m.get? k').elim 0 (f k') := by
    refine Finset.sum_congr rfl (fun k' hk' => ?_)
    rw [get?_erase, if_neg (Finset.ne_of_mem_erase hk')]
  rw [sumEntries_eq_add_erase (m.erase k) k, sumEntries_eq_add_erase m k, hkeys, hrest, get?_erase,
    if_pos rfl, Option.elim_none, zero_add]
  ac_rfl

lemma sum_insert (m : HashMap κ ν) (k : κ) (v : ν) (f : ν → M) :
    (m.insert k v).sum f + (m.get? k).elim 0 f = m.sum f + f v :=
  sumEntries_insert m k v (fun _ => f)

/-- No quantity stored exceeds the total. -/
lemma elim_le_sumEntries (m : HashMap κ ν) (k : κ) (f : κ → ν → ℕ) :
    (m.get? k).elim 0 (f k) ≤ m.sumEntries f := by
  rw [sumEntries_eq_add_erase m k]
  exact Nat.le_add_right _ _

lemma elim_le_sum (m : HashMap κ ν) (k : κ) (f : ν → ℕ) : (m.get? k).elim 0 f ≤ m.sum f :=
  elim_le_sumEntries m k (fun _ => f)

end HashMap

end ExchangeCore

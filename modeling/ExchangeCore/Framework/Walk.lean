import Mathlib.Algebra.GroupWithZero.Nat
import Mathlib.Logic.Relation
import Mathlib.Tactic.Common

/-!
# Readers that walk through a file

A reader stands at a position of a file and finds there the end, a fault, or an item and the
position behind it.  A walk takes item after item until it finds something else.

If every item takes some room and lies within the file, a walk ends, at a position of the file
(`walk_ends`).  It ends with a fault exactly if the items lead to a faulty position
(`walk_faults_iff`), so that a reader is safe on a file if and only if no such position is reached.
Items that reach up to the position behind them lie side by side (`walk_spans`).
-/

namespace ExchangeCore

/-- What a reader finds at a position. -/
inductive Found (ε α : Type) where
  | finish
  | fault (e : ε)
  | item (a : α) (behind : ℕ)
  deriving DecidableEq, Repr

/-- The items of a walk, where it ended, and the fault it ended with. -/
structure Walked (ε α : Type) where
  items : List α
  stop : ℕ
  fault : Option ε
  deriving DecidableEq, Repr

namespace Found

variable {ε α : Type} {look : ℕ → Found ε α} {len pos fuel : ℕ} {w : Walked ε α}

/-- Take item after item, in so many looks; nothing if these do not suffice. -/
def walk (look : ℕ → Found ε α) : ℕ → ℕ → Option (Walked ε α)
  | 0, _ => none
  | fuel + 1, pos =>
      match look pos with
      | .finish => some ⟨[], pos, none⟩
      | .fault e => some ⟨[], pos, some e⟩
      | .item a behind => (walk look fuel behind).map (fun w => { w with items := a :: w.items })

/-- There is an item at the first position, and it ends at the second. -/
def Leads (look : ℕ → Found ε α) (pos pos' : ℕ) : Prop := ∃ a, look pos = .item a pos'

/-- Every item takes some room and lies within the first `len` bytes. -/
def Advances (look : ℕ → Found ε α) (len : ℕ) : Prop :=
  ∀ pos a behind, pos ≤ len → look pos = .item a behind → pos < behind ∧ behind ≤ len

lemma walk_of_item {a : α} {behind : ℕ} (hlook : look pos = .item a behind)
    (h : walk look (fuel + 1) pos = some w) :
    ∃ rest, walk look fuel behind = some rest ∧ w = { rest with items := a :: rest.items } := by
  rw [walk, hlook] at h
  obtain ⟨rest, hrest, heq⟩ := Option.map_eq_some_iff.mp h
  exact ⟨rest, hrest, heq.symm⟩

/-- **A walk ends.**  With a look for every byte, it stops within the file, at a position the items
lead to and where there is no further item. -/
theorem walk_ends (h : Advances look len) (hpos : pos ≤ len) (hfuel : len < pos + fuel) :
    ∃ w, walk look fuel pos = some w ∧ w.stop ≤ len ∧
      Relation.ReflTransGen (Leads look) pos w.stop ∧
      look w.stop = w.fault.elim .finish .fault := by
  induction fuel generalizing pos with
  | zero => omega
  | succ fuel ih =>
      rw [walk]
      rcases hlook : look pos with _ | e | ⟨a, behind⟩
      · exact ⟨_, rfl, hpos, .refl, hlook⟩
      · exact ⟨_, rfl, hpos, .refl, hlook⟩
      · obtain ⟨hforward, hwithin⟩ := h pos a behind hpos hlook
        obtain ⟨w, hwalk, hstop, hleads, hend⟩ := ih hwithin (by omega)
        refine ⟨{ w with items := a :: w.items }, ?_, hstop, ?_, hend⟩
        · dsimp only
          rw [hwalk, Option.map_some]
        · exact hleads.head ⟨a, hlook⟩

/-- A walk to which a faulty position lies ahead ends with that fault. -/
lemma fault_of_leads {pos' : ℕ} {e : ε} (hleads : Relation.ReflTransGen (Leads look) pos pos')
    (hfault : look pos' = .fault e) (h : walk look fuel pos = some w) : w.fault = some e := by
  induction hleads using Relation.ReflTransGen.head_induction_on generalizing fuel w with
  | refl =>
      rcases fuel with _ | fuel
      · exact absurd h (by simp [walk])
      · rw [walk, hfault] at h
        rw [← Option.some.inj h]
  | head hfirst _ ih =>
      obtain ⟨a, hlook⟩ := hfirst
      rcases fuel with _ | fuel
      · exact absurd h (by simp [walk])
      · obtain ⟨rest, hrest, rfl⟩ := walk_of_item hlook h
        show rest.fault = some e
        exact ih hrest

/-- **When a walk faults.**  Exactly if the items lead to a faulty position. -/
theorem walk_faults_iff (h : Advances look len) (hpos : pos ≤ len) (hfuel : len < pos + fuel)
    (hwalk : walk look fuel pos = some w) :
    w.fault ≠ none ↔
      ∃ pos' e, Relation.ReflTransGen (Leads look) pos pos' ∧ look pos' = .fault e := by
  obtain ⟨w', hwalk', -, hleads, hend⟩ := walk_ends h hpos hfuel
  obtain rfl : w = w' := Option.some.inj (hwalk.symm.trans hwalk')
  constructor
  · intro hfault
    obtain ⟨e, he⟩ := Option.ne_none_iff_exists'.mp hfault
    rw [he] at hend
    exact ⟨w.stop, e, hleads, hend⟩
  · rintro ⟨pos', e, hto, hfault⟩
    rw [fault_of_leads hto hfault hwalk]
    exact Option.some_ne_none e

/-- The items of a walk are found at the positions it leads to. -/
lemma exists_look_of_mem (h : walk look fuel pos = some w) {a : α} (ha : a ∈ w.items) :
    ∃ place behind, Relation.ReflTransGen (Leads look) pos place ∧ look place = .item a behind := by
  induction fuel generalizing pos w with
  | zero => exact absurd h (by simp [walk])
  | succ fuel ih =>
      rcases hlook : look pos with _ | e | ⟨b, behind⟩
      · rw [walk, hlook] at h
        rw [← Option.some.inj h] at ha
        exact absurd ha List.not_mem_nil
      · rw [walk, hlook] at h
        rw [← Option.some.inj h] at ha
        exact absurd ha List.not_mem_nil
      · obtain ⟨rest, hrest, rfl⟩ := walk_of_item hlook h
        rcases List.mem_cons.mp ha with rfl | hlater
        · exact ⟨pos, behind, .refl, hlook⟩
        · obtain ⟨place, behind', hleads, hfound⟩ := ih hrest hlater
          exact ⟨place, behind', hleads.head ⟨b, hlook⟩, hfound⟩

/-- There is an item with a property at the first position, and it ends at the second. -/
def LeadsBy (p : α → Prop) (look : ℕ → Found ε α) (pos pos' : ℕ) : Prop :=
  ∃ a, look pos = .item a pos' ∧ p a

section Split

variable {p : α → Prop} {place : ℕ}

/-- A walk passes through the positions its items lead to. -/
lemma walk_split (hleads : Relation.ReflTransGen (LeadsBy p look) pos place)
    (hwalk : walk look fuel pos = some w) :
    ∃ before fuel' rest, (∀ a ∈ before, p a) ∧ walk look fuel' place = some rest ∧
      w = { rest with items := before ++ rest.items } := by
  induction hleads using Relation.ReflTransGen.head_induction_on generalizing fuel w with
  | refl => exact ⟨[], fuel, w, fun a ha => absurd ha List.not_mem_nil, hwalk, rfl⟩
  | head hfirst _ ih =>
      obtain ⟨a, hlook, ha⟩ := hfirst
      rcases fuel with _ | fuel
      · exact absurd hwalk (by simp [walk])
      · obtain ⟨later, hlater, rfl⟩ := walk_of_item hlook hwalk
        obtain ⟨before, fuel', rest, hbefore, hrest, rfl⟩ := ih hlater
        exact ⟨a :: before, fuel', rest, List.forall_mem_cons.mpr ⟨ha, hbefore⟩, hrest, rfl⟩

/-- Unless all items have the property, those before the first one without lead to it. -/
lemma walk_first (hwalk : walk look fuel pos = some w) :
    (∀ a ∈ w.items, p a) ∨
      ∃ before a behind later place, (∀ b ∈ before, p b) ∧ ¬p a ∧
        Relation.ReflTransGen (LeadsBy p look) pos place ∧ look place = .item a behind ∧
        w.items = before ++ a :: later := by
  induction fuel generalizing pos w with
  | zero => exact absurd hwalk (by simp [walk])
  | succ fuel ih =>
      rcases hlook : look pos with _ | e | ⟨a, behind⟩
      · rw [walk, hlook] at hwalk
        rw [← Option.some.inj hwalk]
        exact .inl (fun a ha => absurd ha List.not_mem_nil)
      · rw [walk, hlook] at hwalk
        rw [← Option.some.inj hwalk]
        exact .inl (fun a ha => absurd ha List.not_mem_nil)
      · obtain ⟨rest, hrest, rfl⟩ := walk_of_item hlook hwalk
        by_cases ha : p a
        · rcases ih hrest with hall |
            ⟨before, b, behind', later, place, hbefore, hb, hleads, hat, heq⟩
          · exact .inl (List.forall_mem_cons.mpr ⟨ha, hall⟩)
          · refine .inr ⟨a :: before, b, behind', later, place,
              List.forall_mem_cons.mpr ⟨ha, hbefore⟩, hb, hleads.head ⟨a, hlook, ha⟩, hat, ?_⟩
            dsimp only
            rw [heq, List.cons_append]
        · exact .inr ⟨[], a, behind, rest.items, pos, fun b hb => absurd hb List.not_mem_nil, ha,
            .refl, hlook, rfl⟩

end Split

/-- **Items lie side by side.**  If every item reaches from the position where it is found up to the
position behind it, the items of a walk follow one another without a gap, from the start of the walk
to its end. -/
theorem walk_spans {first size : α → ℕ}
    (hspan : ∀ pos a behind, look pos = .item a behind → first a = pos ∧ behind = pos + size a)
    (hwalk : walk look fuel pos = some w) :
    w.items.Pairwise (fun a b => first a + size a ≤ first b) ∧
      (∀ a ∈ w.items, pos ≤ first a ∧ first a + size a ≤ w.stop) ∧
      pos + (w.items.map size).sum = w.stop := by
  induction fuel generalizing pos w with
  | zero => exact absurd hwalk (by simp [walk])
  | succ fuel ih =>
      rcases hlook : look pos with _ | e | ⟨b, behind⟩
      · rw [walk, hlook] at hwalk
        obtain rfl := Option.some.inj hwalk
        exact ⟨.nil, fun a ha => absurd ha List.not_mem_nil, rfl⟩
      · rw [walk, hlook] at hwalk
        obtain rfl := Option.some.inj hwalk
        exact ⟨.nil, fun a ha => absurd ha List.not_mem_nil, rfl⟩
      · obtain ⟨rest, hrest, rfl⟩ := walk_of_item hlook hwalk
        obtain ⟨hfirst, hbehind⟩ := hspan pos b behind hlook
        obtain ⟨hpairs, hwithin, hsum⟩ := ih hrest
        refine ⟨List.pairwise_cons.mpr ⟨?_, hpairs⟩, ?_, ?_⟩
        · intro a ha
          have hstart := (hwithin a ha).1
          omega
        · intro a ha
          rcases List.mem_cons.mp ha with rfl | hlater
          · dsimp only
            omega
          · obtain ⟨hstart, hstop⟩ := hwithin a hlater
            exact ⟨by omega, hstop⟩
        · rw [List.map_cons, List.sum_cons]
          dsimp only
          omega

end Found

end ExchangeCore

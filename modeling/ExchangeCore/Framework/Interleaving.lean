import Mathlib.Algebra.Order.BigOperators.Group.List
import Mathlib.Logic.Relation
import Mathlib.Tactic.Common

/-!
# Interleaved threads

Threads that take atomic actions on a shared state, in any order.  An action (`act`) changes the
shared state and the thread that takes it; a thread without one has finished.  The rule for
properties of every run is `Runs.invariant`, and where each action makes a thread smaller, every
configuration can run until all threads have finished (`exists_finished`).

`runs_reads` is the schedule behind lost updates: actions that only read can all be taken first.
-/

namespace ExchangeCore

/-- A shared state and the threads that work on it. -/
@[ext] structure Interleaved (σ τ : Type) where
  shared : σ
  threads : List τ

namespace Interleaved

variable {σ τ : Type} (act : σ → τ → Option (σ × τ))

/-- One thread takes an action. -/
inductive Step : Interleaved σ τ → Interleaved σ τ → Prop
  | take {s s' : σ} {t t' : τ} (before after : List τ) (hact : act s t = some (s', t')) :
      Step ⟨s, before ++ t :: after⟩ ⟨s', before ++ t' :: after⟩

/-- Actions of any threads, one after another. -/
def Runs : Interleaved σ τ → Interleaved σ τ → Prop := Relation.ReflTransGen (Step act)

/-- No thread has an action left. -/
def Finished (c : Interleaved σ τ) : Prop := ∀ t ∈ c.threads, act c.shared t = none

/-- Every thread is run to its end. -/
def RunsToEnd (c c' : Interleaved σ τ) : Prop := Runs act c c' ∧ Finished act c'

variable {act} {c c' : Interleaved σ τ}

/-- What every action of every thread preserves holds after any run. -/
lemma Runs.invariant {P : Interleaved σ τ → Prop}
    (hstep : ∀ {s s' : σ} {t t' : τ} (before after : List τ), act s t = some (s', t') →
      P ⟨s, before ++ t :: after⟩ → P ⟨s', before ++ t' :: after⟩)
    (hrun : Runs act c c') (hinit : P c) : P c' := by
  induction hrun with
  | refl => exact hinit
  | tail _ hlast ih =>
      cases hlast with
      | take before after hact => exact hstep before after hact ih

/-- Where actions make threads smaller, every configuration has a run to the end. -/
lemma exists_finished (rank : τ → ℕ)
    (hrank : ∀ {s s' : σ} {t t' : τ}, act s t = some (s', t') → rank t' < rank t)
    (c : Interleaved σ τ) : ∃ c', RunsToEnd act c c' := by
  induction hn : (c.threads.map rank).sum using Nat.strong_induction_on generalizing c with
  | _ n ih =>
    obtain ⟨s, threads⟩ := c
    by_cases hfinished : Finished act ⟨s, threads⟩
    · exact ⟨_, Relation.ReflTransGen.refl, hfinished⟩
    · -- some thread has an action; what remains after it is smaller
      obtain ⟨t, hmem, hact⟩ : ∃ t ∈ threads, act s t ≠ none := by
        simpa [Finished] using hfinished
      obtain ⟨⟨s', t'⟩, hsome⟩ := Option.ne_none_iff_exists'.mp hact
      obtain ⟨before, after, rfl⟩ := List.append_of_mem hmem
      have hsmaller : ((before ++ t' :: after).map rank).sum < n := by
        have hlt := hrank hsome
        rw [← hn]
        simp only [List.map_append, List.map_cons, List.sum_append, List.sum_cons]
        omega
      obtain ⟨c', hruns, hend⟩ := ih _ hsmaller ⟨s', before ++ t' :: after⟩ rfl
      exact ⟨c', Relation.ReflTransGen.head (.take before after hsome) hruns, hend⟩

/-- Threads whose next action only reads can all take it first. -/
lemma runs_reads (next : σ → τ → τ) (hread : ∀ s t, next s t = t ∨ act s t = some (s, next s t))
    (c : Interleaved σ τ) : Runs act c ⟨c.shared, c.threads.map (next c.shared)⟩ := by
  obtain ⟨s, threads⟩ := c
  suffices h : ∀ before, Runs act ⟨s, before ++ threads⟩ ⟨s, before ++ threads.map (next s)⟩ from
    h []
  induction threads with
  | nil => exact fun before => Relation.ReflTransGen.refl
  | cons t threads ih =>
      intro before
      have hrest := ih (before ++ [next s t])
      rw [List.append_assoc, List.append_assoc] at hrest
      rcases hread s t with hsame | hact
      · rw [List.map_cons, hsame]
        rwa [hsame] at hrest
      · exact Relation.ReflTransGen.head (.take before threads hact) hrest

end Interleaved

end ExchangeCore

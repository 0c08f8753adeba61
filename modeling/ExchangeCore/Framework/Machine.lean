import Mathlib.Tactic.Common

/-!
# Runs of a machine

A component with a state and a set of calls is a `Machine`: one step takes a state and an
input to the next state and an answer.  A run is a list of inputs, so that what holds "for
every run" is a statement quantified over lists and proved by one induction, packaged here.

`Throughout M Q s is` says that `Q` holds in every state reached, the first one included;
`AllSteps M P s is` says that every input meets the condition `P` in the state it arrives in.
The invariants of the development go through these rules: `run_invariant` for an unconditional
invariant, `throughout_of_allSteps` for one kept by the steps that meet a condition, and
`throughout_iff_allSteps`, `allSteps_throughout_iff` and `throughout_iff_of_breaks` for what holds
throughout exactly the runs whose steps all meet it.

`gathered` collects what the steps of a run emit.  A machine whose steps drive a component through
calls of its own runs it (`run_component`, `gathered_component`), and a run keeps a relation to the
run that skips the inputs the relation does not see (`run_related`).
-/

namespace ExchangeCore

/-- A deterministic component: inputs `ι`, states `σ`, answers `ο`. -/
structure Machine (σ ι ο : Type*) where
  /-- The state after an input, and the answer to it. -/
  step : σ → ι → σ × ο

namespace Machine

variable {σ ι ο : Type*} (M : Machine σ ι ο)

/-- The state a run ends in. -/
def run : σ → List ι → σ
  | s, [] => s
  | s, i :: is => run (M.step s i).1 is

/-- The answers a run gives, in order. -/
def answers : σ → List ι → List ο
  | _, [] => []
  | s, i :: is => (M.step s i).2 :: answers (M.step s i).1 is

/-- Every input meets `P` in the state it arrives in. -/
def AllSteps (P : σ → ι → Prop) : σ → List ι → Prop
  | _, [] => True
  | s, i :: is => P s i ∧ AllSteps P (M.step s i).1 is

instance decidableAllSteps {P : σ → ι → Prop} [∀ s i, Decidable (P s i)] :
    (s : σ) → (is : List ι) → Decidable (M.AllSteps P s is)
  | _, [] => instDecidableTrue
  | s, i :: is => @instDecidableAnd _ _ _ (decidableAllSteps (M.step s i).1 is)

/-- `Q` holds in every state reached, the first one included. -/
def Throughout (Q : σ → Prop) : σ → List ι → Prop
  | s, [] => Q s
  | s, i :: is => Q s ∧ Throughout Q (M.step s i).1 is

/-- The states reached from `s₀` by some run. -/
def Reachable (s₀ s : σ) : Prop := ∃ is, M.run s₀ is = s

@[simp] lemma run_nil (s : σ) : M.run s [] = s := rfl

@[simp] lemma run_cons (s : σ) (i : ι) (is : List ι) :
    M.run s (i :: is) = M.run (M.step s i).1 is := rfl

@[simp] lemma answers_nil (s : σ) : M.answers s [] = [] := rfl

@[simp] lemma answers_cons (s : σ) (i : ι) (is : List ι) :
    M.answers s (i :: is) = (M.step s i).2 :: M.answers (M.step s i).1 is := rfl

lemma run_append (s : σ) (is js : List ι) : M.run s (is ++ js) = M.run (M.run s is) js := by
  induction is generalizing s with
  | nil => rfl
  | cons i is ih => exact ih _

lemma allSteps_append (P : σ → ι → Prop) (s : σ) (is js : List ι) :
    M.AllSteps P s (is ++ js) ↔ M.AllSteps P s is ∧ M.AllSteps P (M.run s is) js := by
  induction is generalizing s with
  | nil => exact (and_iff_right trivial).symm
  | cons i is ih =>
      simp only [List.cons_append, AllSteps, run_cons, ih, and_assoc]

variable {M} {P R : σ → ι → Prop} {Q Inv : σ → Prop}

lemma AllSteps.and {s : σ} {is : List ι} (hP : M.AllSteps P s is) (hR : M.AllSteps R s is) :
    M.AllSteps (fun s i => P s i ∧ R s i) s is := by
  induction is generalizing s with
  | nil => trivial
  | cons i is ih => exact ⟨⟨hP.1, hR.1⟩, ih hP.2 hR.2⟩

/-- Conditions that agree, under a background invariant, on steps that meet `R`, are met along the
same runs of such steps. -/
lemma allSteps_congr (hInv : ∀ s i, Inv s → Inv (M.step s i).1) {P' : σ → ι → Prop}
    (hiff : ∀ s i, Inv s → R s i → (P s i ↔ P' s i)) {s : σ} (h : Inv s) {is : List ι}
    (hR : M.AllSteps R s is) : M.AllSteps P s is ↔ M.AllSteps P' s is := by
  induction is generalizing s with
  | nil => exact Iff.rfl
  | cons i is ih => exact and_congr (hiff s i h hR.1) (ih (hInv s i h) hR.2)

/-! ## Invariant rules -/

lemma run_invariant (hstep : ∀ s i, Inv s → Inv (M.step s i).1) {s : σ} (h : Inv s)
    (is : List ι) : Inv (M.run s is) := by
  induction is generalizing s with
  | nil => exact h
  | cons i is ih => exact ih (hstep s i h)

lemma Reachable.invariant (hstep : ∀ s i, Inv s → Inv (M.step s i).1) {s₀ s : σ}
    (h₀ : Inv s₀) (h : M.Reachable s₀ s) : Inv s := by
  obtain ⟨is, rfl⟩ := h
  exact run_invariant hstep h₀ is

lemma throughout_of_allSteps (hstep : ∀ s i, Inv s → P s i → Inv (M.step s i).1) {s : σ}
    (h : Inv s) {is : List ι} (hP : M.AllSteps P s is) : M.Throughout Inv s is := by
  induction is generalizing s with
  | nil => exact h
  | cons i is ih => exact ⟨h, ih (hstep s i h hP.1) hP.2⟩

lemma Throughout.mono {s : σ} {is : List ι} (h : M.Throughout Inv s is) (hQ : ∀ s, Inv s → Q s) :
    M.Throughout Q s is := by
  induction is generalizing s with
  | nil => exact hQ s h
  | cons i is ih => exact ⟨hQ s h.1, ih h.2⟩

/-- What holds throughout holds at the end. -/
lemma Throughout.run {s : σ} {is : List ι} (h : M.Throughout Q s is) : Q (M.run s is) := by
  induction is generalizing s with
  | nil => exact h
  | cons i is ih => exact ih h.2

/-- What holds throughout holds in the first state. -/
lemma Throughout.head {s : σ} {is : List ι} (h : M.Throughout Q s is) : Q s := by
  cases is with
  | nil => exact h
  | cons i is => exact h.1

/-- The exact form: when, under a background invariant, a step keeps `Q` precisely if it meets
`P`, a run keeps `Q` throughout precisely if all its steps meet `P`. -/
lemma throughout_iff_allSteps (hInv : ∀ s i, Inv s → Inv (M.step s i).1)
    (hQ : ∀ s i, Inv s → Q s → (Q (M.step s i).1 ↔ P s i)) {s : σ} (h : Inv s) (hs : Q s)
    (is : List ι) : M.Throughout Q s is ↔ M.AllSteps P s is := by
  induction is generalizing s with
  | nil => exact ⟨fun _ => trivial, fun _ => hs⟩
  | cons i is ih =>
      have hi := hQ s i h hs
      constructor
      · rintro ⟨-, hrest⟩
        exact ⟨hi.mp hrest.head, (ih (hInv s i h) hrest.head).mp hrest⟩
      · rintro ⟨hPi, hrest⟩
        exact ⟨hs, (ih (hInv s i h) (hi.mpr hPi)).mpr hrest⟩

/-- The exact form for what the steps do and what the states are: when, under a background
invariant, a step from `Q` does what `R` says and keeps `Q` precisely if it meets `P`. -/
lemma allSteps_throughout_iff (hInv : ∀ s i, Inv s → Inv (M.step s i).1)
    (hQ : ∀ s i, Inv s → Q s → (R s i ∧ Q (M.step s i).1 ↔ P s i)) {s : σ} (h : Inv s) (hs : Q s)
    (is : List ι) : M.AllSteps R s is ∧ M.Throughout Q s is ↔ M.AllSteps P s is := by
  induction is generalizing s with
  | nil => exact ⟨fun _ => trivial, fun _ => ⟨trivial, hs⟩⟩
  | cons i is ih =>
      have hi := hQ s i h hs
      constructor
      · rintro ⟨⟨hR, hRs⟩, -, hrest⟩
        have hPi : P s i := hi.mp ⟨hR, hrest.head⟩
        exact ⟨hPi, (ih (hInv s i h) (hi.mpr hPi).2).mp ⟨hRs, hrest⟩⟩
      · rintro ⟨hPi, hrest⟩
        obtain ⟨hR, hnext⟩ := hi.mpr hPi
        obtain ⟨hRs, hthrough⟩ := (ih (hInv s i h) hnext).mpr hrest
        exact ⟨⟨hR, hRs⟩, hs, hthrough⟩

/-- Another exact form: among steps that meet `R`, those that meet `P` keep an invariant from which
`Q` follows, and one that does not meet it leads out of `Q`. -/
lemma throughout_iff_of_breaks (hInv : ∀ s i, Inv s → R s i → P s i → Inv (M.step s i).1)
    (hQ : ∀ s, Inv s → Q s) (hbreaks : ∀ s i, Inv s → R s i → ¬P s i → ¬Q (M.step s i).1) {s : σ}
    (h : Inv s) {is : List ι} (hR : M.AllSteps R s is) :
    M.Throughout Q s is ↔ M.AllSteps P s is := by
  constructor
  · intro hrun
    induction is generalizing s with
    | nil => trivial
    | cons i is ih =>
        have hP : P s i := by
          by_contra hnot
          exact hbreaks s i h hR.1 hnot hrun.2.head
        exact ⟨hP, ih (hInv s i h hR.1 hP) hR.2 hrun.2⟩
  · intro hP
    have hkept : M.Throughout Inv s is :=
      throughout_of_allSteps (fun s i hs hi => hInv s i hs hi.1 hi.2) h (hR.and hP)
    exact hkept.mono hQ

/-! ## What a run emits -/

/-- What the steps of a run emit, in order. -/
def gathered {ε : Type*} (M : Machine σ ι ο) (out : σ → ι → List ε) : σ → List ι → List ε
  | _, [] => []
  | s, i :: is => out s i ++ gathered M out (M.step s i).1 is

section Gathered

variable {ε : Type*} {out : σ → ι → List ε}

@[simp] lemma gathered_nil (s : σ) : M.gathered out s [] = [] := rfl

@[simp] lemma gathered_cons (s : σ) (i : ι) (is : List ι) :
    M.gathered out s (i :: is) = out s i ++ M.gathered out (M.step s i).1 is := rfl

lemma gathered_append (s : σ) (is js : List ι) :
    M.gathered out s (is ++ js) = M.gathered out s is ++ M.gathered out (M.run s is) js := by
  induction is generalizing s with
  | nil => rfl
  | cons i is ih => rw [List.cons_append, gathered_cons, ih, gathered_cons, run_cons,
      List.append_assoc]

/-- A selection of what a run emits is what the selections of its steps emit. -/
lemma filterMap_gathered {ε' : Type*} (f : ε → Option ε') (s : σ) (is : List ι) :
    (M.gathered out s is).filterMap f = M.gathered (fun s i => (out s i).filterMap f) s is := by
  induction is generalizing s with
  | nil => rfl
  | cons i is ih => rw [gathered_cons, List.filterMap_append, ih, gathered_cons]

lemma map_gathered {ε' : Type*} (f : ε → ε') (s : σ) (is : List ι) :
    (M.gathered out s is).map f = M.gathered (fun s i => (out s i).map f) s is := by
  induction is generalizing s with
  | nil => rfl
  | cons i is ih => rw [gathered_cons, List.map_append, ih, gathered_cons]

end Gathered

/-! ## Components -/

section Component

variable {τ κ ο' : Type*} {N : Machine τ κ ο'} {part : σ → τ} {calls : σ → ι → List κ}

/-- A part of the state that every step updates through calls of its own is, after a run, where
those calls lead. -/
lemma run_component (hInv : ∀ s i, Inv s → Inv (M.step s i).1)
    (hstep : ∀ s i, Inv s → part (M.step s i).1 = N.run (part s) (calls s i)) {s : σ} (h : Inv s)
    (is : List ι) : part (M.run s is) = N.run (part s) (M.gathered calls s is) := by
  induction is generalizing s with
  | nil => rfl
  | cons i is ih => rw [run_cons, ih (hInv s i h), hstep s i h, gathered_cons, run_append]

lemma gathered_component {ε : Type*} {out : σ → ι → List ε} {out' : τ → κ → List ε}
    (hInv : ∀ s i, Inv s → Inv (M.step s i).1)
    (hstep : ∀ s i, Inv s → part (M.step s i).1 = N.run (part s) (calls s i))
    (hout : ∀ s i, Inv s → out s i = N.gathered out' (part s) (calls s i)) {s : σ} (h : Inv s)
    (is : List ι) : M.gathered out s is = N.gathered out' (part s) (M.gathered calls s is) := by
  induction is generalizing s with
  | nil => rfl
  | cons i is ih =>
      rw [gathered_cons, hout s i h, ih (hInv s i h), hstep s i h, gathered_cons, gathered_append]

end Component

/-! ## Related runs -/

/-- A relation that a skipped input keeps on its own, and that an input kept keeps on both sides,
holds at the end of a run and of the run without the skipped inputs; and what the two emit is the
same, if a skipped input emits nothing and one that is kept emits the same on both sides. -/
lemma run_related {τ κ ο' ε : Type*} {N : Machine τ κ ο'} {out : σ → ι → List ε}
    {out' : τ → κ → List ε} {keep : ι → Option κ} {Rel : σ → τ → Prop} {P : ι → Prop}
    (hskip : ∀ s t i, P i → Rel s t → keep i = none → Rel (M.step s i).1 t ∧ out s i = [])
    (hkeep : ∀ s t i k, P i → Rel s t → keep i = some k →
      Rel (M.step s i).1 (N.step t k).1 ∧ out s i = out' t k) {s : σ} {t : τ} (h : Rel s t)
    (is : List ι) (hP : ∀ i ∈ is, P i) :
    Rel (M.run s is) (N.run t (is.filterMap keep)) ∧
      M.gathered out s is = N.gathered out' t (is.filterMap keep) := by
  induction is generalizing s t with
  | nil => exact ⟨h, rfl⟩
  | cons i is ih =>
      obtain ⟨hPi, hPis⟩ := List.forall_mem_cons.mp hP
      cases hk : keep i with
      | none =>
          obtain ⟨hrel, hout⟩ := hskip s t i hPi h hk
          rw [List.filterMap_cons_none hk, run_cons, gathered_cons, hout]
          exact ih hrel hPis
      | some k =>
          obtain ⟨hrel, hout⟩ := hkeep s t i k hPi h hk
          rw [List.filterMap_cons_some hk, run_cons, gathered_cons, hout, run_cons, gathered_cons]
          obtain ⟨hrun, hgathered⟩ := ih hrel hPis
          exact ⟨hrun, by rw [hgathered]⟩

end Machine

end ExchangeCore

import ExchangeCore.Framework.Machine

/-!
# Machines that let inputs through

A consumer that keeps a cursor and takes some of its inputs, dropping the others, is a machine whose
answers are optional.  `accepted` are the answers it gives along a run.

How the inputs are cut into batches makes no difference, as long as the cursor is kept from one
batch to the next (`acceptedBatches_eq`).  Nor do the dropped inputs, if they leave the cursor where
it is (`run_accepted`).  `pairwise_accepted` is the rule for a relation between what is accepted
earlier and later: it is enough that the cursor remembers of each accepted answer what the relation
asks of the later ones.
-/

namespace ExchangeCore

namespace Machine

variable {σ ι α : Type*} (M : Machine σ ι (Option α))

/-- What the machine lets through. -/
def accepted (s : σ) (is : List ι) : List α := (M.answers s is).filterMap id

/-- What it lets through of one batch after the other. -/
def acceptedBatches : σ → List (List ι) → List α
  | _, [] => []
  | s, batch :: batches => M.accepted s batch ++ acceptedBatches (M.run s batch) batches

variable {M} {s : σ} {i : ι} {a : α} {is js : List ι}

@[simp] lemma accepted_nil : M.accepted s [] = [] := rfl

lemma accepted_cons_none (h : (M.step s i).2 = none) :
    M.accepted s (i :: is) = M.accepted (M.step s i).1 is := by
  rw [accepted, answers_cons, h]
  rfl

lemma accepted_cons_some (h : (M.step s i).2 = some a) :
    M.accepted s (i :: is) = a :: M.accepted (M.step s i).1 is := by
  rw [accepted, answers_cons, h]
  rfl

lemma accepted_append (s : σ) (is js : List ι) :
    M.accepted s (is ++ js) = M.accepted s is ++ M.accepted (M.run s is) js := by
  induction is generalizing s with
  | nil => rfl
  | cons i is ih =>
      rw [List.cons_append, run_cons]
      rcases hstep : (M.step s i).2 with _ | a
      · rw [accepted_cons_none hstep, accepted_cons_none hstep, ih]
      · rw [accepted_cons_some hstep, accepted_cons_some hstep, ih, List.cons_append]

lemma acceptedBatches_eq (s : σ) (batches : List (List ι)) :
    M.acceptedBatches s batches = M.accepted s batches.flatten := by
  induction batches generalizing s with
  | nil => rfl
  | cons batch batches ih => rw [acceptedBatches, List.flatten_cons, accepted_append, ih]

/-- A filter that what it drops does not move: without what is dropped, the run is the same. -/
lemma run_accepted {M : Machine σ ι (Option ι)} (hsame : ∀ s i j, (M.step s i).2 = some j → j = i)
    (hkeeps : M.AllSteps (fun s i => (M.step s i).2 = none → (M.step s i).1 = s) s is) :
    M.run s (M.accepted s is) = M.run s is ∧
      M.accepted s (M.accepted s is) = M.accepted s is := by
  induction is generalizing s with
  | nil => exact ⟨rfl, rfl⟩
  | cons i is ih =>
      obtain ⟨hkeep, hrest⟩ := hkeeps
      obtain ⟨hrun, haccepted⟩ := ih hrest
      rcases hstep : (M.step s i).2 with _ | j
      · rw [hkeep hstep] at hrun haccepted
        rw [accepted_cons_none hstep, run_cons, hkeep hstep]
        exact ⟨hrun, haccepted⟩
      · obtain rfl := hsame s i j hstep
        rw [accepted_cons_some hstep, run_cons, run_cons, accepted_cons_some hstep, haccepted]
        exact ⟨hrun, rfl⟩

/-! ## What holds of the answers -/

variable {Inv : σ → Prop} {C : ι → Prop} {Q : α → Prop} {D : σ → α → Prop} {R : α → α → Prop}

/-- What every step answers has the property. -/
lemma forall_mem_accepted (hInv : ∀ s i, Inv s → C i → Inv (M.step s i).1)
    (hQ : ∀ s i a, Inv s → C i → (M.step s i).2 = some a → Q a) (h : Inv s)
    (hC : ∀ i ∈ is, C i) : ∀ a ∈ M.accepted s is, Q a := by
  induction is generalizing s with
  | nil => exact fun a ha => absurd ha List.not_mem_nil
  | cons i is ih =>
      rw [List.forall_mem_cons] at hC
      have hrest := ih (hInv s i h hC.1) hC.2
      rcases hstep : (M.step s i).2 with _ | a
      · rwa [accepted_cons_none hstep]
      · rw [accepted_cons_some hstep, List.forall_mem_cons]
        exact ⟨hQ s i a h hC.1 hstep, hrest⟩

/-- A machine that lets inputs through adds none. -/
lemma mem_of_mem_accepted {M : Machine σ ι (Option ι)} {a : ι}
    (hsame : ∀ s i j, (M.step s i).2 = some j → j = i) (ha : a ∈ M.accepted s is) : a ∈ is := by
  have hstep : ∀ s i j, True → i ∈ is → (M.step s i).2 = some j → j ∈ is := by
    intro s i j _ hi hj
    rwa [hsame s i j hj]
  exact forall_mem_accepted (fun _ _ _ _ => trivial) hstep trivial (fun _ hi => hi) a ha

/-- What the cursor remembers of an answer holds of the later ones. -/
lemma forall_accepted_of_remembered (hInv : ∀ s i, Inv s → C i → Inv (M.step s i).1)
    (hkeep : ∀ s i a, Inv s → C i → D s a → D (M.step s i).1 a)
    (hrel : ∀ s i a b, Inv s → C i → D s a → (M.step s i).2 = some b → R a b) (h : Inv s)
    (hD : D s a) (hC : ∀ i ∈ is, C i) : ∀ b ∈ M.accepted s is, R a b := by
  have hboth : ∀ s i, Inv s ∧ D s a → C i → Inv (M.step s i).1 ∧ D (M.step s i).1 a :=
    fun s i hs hi => ⟨hInv s i hs.1 hi, hkeep s i a hs.1 hi hs.2⟩
  exact forall_mem_accepted hboth (fun s i b hs hi hb => hrel s i a b hs.1 hi hs.2 hb) ⟨h, hD⟩ hC

/-- A relation between what is accepted earlier and later. -/
lemma pairwise_accepted (hInv : ∀ s i, Inv s → C i → Inv (M.step s i).1)
    (hnew : ∀ s i a, Inv s → C i → (M.step s i).2 = some a → D (M.step s i).1 a)
    (hkeep : ∀ s i a, Inv s → C i → D s a → D (M.step s i).1 a)
    (hrel : ∀ s i a b, Inv s → C i → D s a → (M.step s i).2 = some b → R a b) (h : Inv s)
    (hC : ∀ i ∈ is, C i) : (M.accepted s is).Pairwise R := by
  induction is generalizing s with
  | nil => exact .nil
  | cons i is ih =>
      rw [List.forall_mem_cons] at hC
      have hnext := hInv s i h hC.1
      have hrest := ih hnext hC.2
      rcases hstep : (M.step s i).2 with _ | a
      · rwa [accepted_cons_none hstep]
      · rw [accepted_cons_some hstep, List.pairwise_cons]
        refine ⟨?_, hrest⟩
        exact forall_accepted_of_remembered hInv hkeep hrel hnext (hnew s i a h hC.1 hstep) hC.2

end Machine

end ExchangeCore

import Mathlib.Tactic.Common

/-!
# Computations that may fail half-way

A method taking `&mut self` and returning a `Result` may fail after it has already changed part
of the state, and the change stays.  `Fallible σ ε α` is that effect: the outcome and, next to
it, the state left behind in either case.

`Succeeds m s Q` is total correctness: run in `s`, the computation `m` returns a value, and `Q`
holds of the value and the state after it.  `Ensures m s Q` is partial correctness, for code that is
known to have returned.  `Keeps f m` is a frame property: what `f` observes of
the state is the same afterwards, also if `m` fails.  `DependsOn f m` is its relational counterpart:
what `m` returns, and what `f` observes afterwards, is determined by what `f` observes before.
`Related` compares two computations in different states, also in how they fail; `Simulates` is the
form of it for two levels of one component, where a relation between the states is kept throughout.
`Parallels` is the same for components with errors of their own: both return, or both fail.
Sequential code is verified by the rules of each, one step at a time, without unfolding the monad.
-/

namespace ExchangeCore

@[simp] lemma isOk_ok {ε α : Type} (a : α) : (Except.ok a : Except ε α).isOk = true := rfl

@[simp] lemma isOk_error {ε α : Type} (e : ε) : (Except.error e : Except ε α).isOk = false := rfl

lemma eq_ok_of_isOk {ε : Type} {r : Except ε Unit} (h : r.isOk = true) : r = .ok () := by
  rcases r with e | _
  · exact absurd h (by simp)
  · rfl

/-- What a sequence that returns has returned on the way. -/
lemma Except.exists_of_bind_eq_ok {ε α β : Type} {x : Except ε α} {f : α → Except ε β} {b : β}
    (h : x >>= f = .ok b) : ∃ a, x = .ok a ∧ f a = .ok b := by
  cases x with
  | error e => exact absurd h (by simp [bind, Except.bind])
  | ok a => exact ⟨a, rfl, h⟩

/-- How a call stops before its end: it returns an error with a message, or it panics. -/
inductive Abort
  | error (message : String)
  | panic (message : String)
  deriving DecidableEq, Repr

/-- A computation on a state that may fail, keeping what it had changed by then. -/
def Fallible (σ ε α : Type) : Type := σ → Except ε α × σ

namespace Fallible

variable {σ ε α β : Type}

/-- Run the second computation after the first unless the first failed. -/
def bind (m : Fallible σ ε α) (k : α → Fallible σ ε β) : Fallible σ ε β := fun s =>
  match m s with
  | (.ok a, s) => k a s
  | (.error e, s) => (.error e, s)

instance : Monad (Fallible σ ε) where
  pure a := fun s => (.ok a, s)
  bind := bind

instance lawfulMonad : LawfulMonad (Fallible σ ε) := LawfulMonad.mk' _
  (fun m => by
    funext s
    show bind m (fun a s => (.ok a, s)) s = m s
    unfold bind
    rcases m s with ⟨_ | a, s'⟩ <;> rfl)
  (fun a k => rfl)
  (fun m k l => by
    funext s
    show bind (bind m k) l s = bind m (fun a => bind (k a) l) s
    unfold bind
    rcases m s with ⟨_ | a, s'⟩ <;> rfl)

lemma bind_of_ok {m : Fallible σ ε α} {k : α → Fallible σ ε β} {s s' : σ} {a : α}
    (h : m s = (.ok a, s')) : (m >>= k) s = k a s' := by
  show bind m k s = _
  rw [bind, h]

lemma bind_of_error {m : Fallible σ ε α} {k : α → Fallible σ ε β} {s s' : σ} {e : ε}
    (h : m s = (.error e, s')) : (m >>= k) s = (.error e, s') := by
  show bind m k s = _
  rw [bind, h]

/-- Change the state. -/
def modify (f : σ → σ) : Fallible σ ε Unit := fun s => (.ok (), f s)

/-- Run in `s`, the computation returns a value, and `Q` holds afterwards. -/
def Succeeds (m : Fallible σ ε α) (s : σ) (Q : α → σ → Prop) : Prop :=
  ∃ a s', m s = (.ok a, s') ∧ Q a s'

namespace Succeeds

variable {m : Fallible σ ε α} {k : α → Fallible σ ε β} {s : σ}

lemma bind {Q : β → σ → Prop} (h : m.Succeeds s (fun a s' => (k a).Succeeds s' Q)) :
    (m >>= k).Succeeds s Q := by
  obtain ⟨a, s', hm, b, s'', hk, hQ⟩ := h
  exact ⟨b, s'', (bind_of_ok hm).trans hk, hQ⟩

lemma pure {a : α} {Q : α → σ → Prop} (h : Q a s) :
    (Pure.pure a : Fallible σ ε α).Succeeds s Q := ⟨a, s, rfl, h⟩

lemma modify {f : σ → σ} {Q : Unit → σ → Prop} (h : Q () (f s)) :
    (Fallible.modify f : Fallible σ ε Unit).Succeeds s Q := ⟨(), f s, rfl, h⟩

lemma mono {P Q : α → σ → Prop} (h : m.Succeeds s P) (hPQ : ∀ a s', P a s' → Q a s') :
    m.Succeeds s Q := by
  obtain ⟨a, s', hm, hP⟩ := h
  exact ⟨a, s', hm, hPQ a s' hP⟩

/-- The rule for one step of sequential code. -/
lemma andThen {P : α → σ → Prop} {Q : β → σ → Prop} (h : m.Succeeds s P)
    (hk : ∀ a s', P a s' → (k a).Succeeds s' Q) : (m >>= k).Succeeds s Q :=
  bind (h.mono hk)

end Succeeds

/-- If, run in `s`, the computation returns a value, `Q` holds afterwards. -/
def Ensures (m : Fallible σ ε α) (s : σ) (Q : α → σ → Prop) : Prop :=
  ∀ a s', m s = (.ok a, s') → Q a s'

namespace Ensures

variable {m : Fallible σ ε α} {k : α → Fallible σ ε β} {s : σ}

/-- The rule for one step of sequential code that has not failed. -/
lemma andThen {P : α → σ → Prop} {Q : β → σ → Prop} (h : m.Ensures s P)
    (hk : ∀ a s', P a s' → (k a).Ensures s' Q) : (m >>= k).Ensures s Q := by
  intro b s'' hrun
  change Fallible.bind m k s = _ at hrun
  rw [Fallible.bind] at hrun
  rcases hm : m s with ⟨r, s'⟩
  rw [hm] at hrun
  cases r with
  | error e => exact absurd (congrArg Prod.fst hrun) (by simp)
  | ok a => exact hk a s' (h a s' hm) b s'' hrun

lemma pure {a : α} {Q : α → σ → Prop} (h : Q a s) :
    (Pure.pure a : Fallible σ ε α).Ensures s Q := by
  intro a' s' hrun
  obtain ⟨hval, rfl⟩ := Prod.mk.inj hrun
  obtain rfl := Except.ok.inj hval
  exact h

lemma modify {f : σ → σ} {Q : Unit → σ → Prop} (h : Q () (f s)) :
    (Fallible.modify f : Fallible σ ε Unit).Ensures s Q := by
  intro _ s' hrun
  obtain ⟨-, rfl⟩ := Prod.mk.inj hrun
  exact h

end Ensures

/-- What `f` observes of the state is the same afterwards, whether the computation fails or
not. -/
def Keeps {τ : Type} (f : σ → τ) (m : Fallible σ ε α) : Prop := ∀ s, f (m s).2 = f s

namespace Keeps

variable {τ : Type} {f : σ → τ} {m : Fallible σ ε α} {k : α → Fallible σ ε β}

lemma bind (h : Keeps f m) (hk : ∀ a, Keeps f (k a)) : Keeps f (m >>= k) := by
  intro s
  have hs := h s
  show f (Fallible.bind m k s).2 = f s
  rw [Fallible.bind]
  generalize m s = p at hs
  obtain ⟨r, s'⟩ := p
  cases r with
  | error e => exact hs
  | ok a => exact (hk a s').trans hs

lemma pure (a : α) : Keeps f (Pure.pure a : Fallible σ ε α) := fun _ => rfl

lemma modify {g : σ → σ} (h : ∀ s, f (g s) = f s) :
    Keeps f (Fallible.modify g : Fallible σ ε Unit) := h

end Keeps

/-- The computation cannot tell two states apart in which `f` observes the same. -/
def DependsOn {τ : Type} (f : σ → τ) (m : Fallible σ ε α) : Prop :=
  ∀ s t, f s = f t → (m s).1 = (m t).1 ∧ f (m s).2 = f (m t).2

namespace DependsOn

variable {τ : Type} {f : σ → τ} {m : Fallible σ ε α} {k : α → Fallible σ ε β}

lemma bind (h : DependsOn f m) (hk : ∀ a, DependsOn f (k a)) : DependsOn f (m >>= k) := by
  intro s t hst
  obtain ⟨hval, hstate⟩ := h s t hst
  show (Fallible.bind m k s).1 = (Fallible.bind m k t).1 ∧
    f (Fallible.bind m k s).2 = f (Fallible.bind m k t).2
  rw [Fallible.bind, Fallible.bind]
  generalize m s = p at hval hstate
  generalize m t = q at hval hstate
  obtain ⟨r, s'⟩ := p
  obtain ⟨r', t'⟩ := q
  obtain rfl : r = r' := hval
  cases r with
  | error e => exact ⟨rfl, hstate⟩
  | ok a => exact hk a s' t' hstate

lemma pure (a : α) : DependsOn f (Pure.pure a : Fallible σ ε α) := fun _ _ hst => ⟨rfl, hst⟩

lemma modify {g : σ → σ} (h : ∀ s, f (g s) = f s) :
    DependsOn f (Fallible.modify g : Fallible σ ε Unit) := by
  intro s t hst
  refine ⟨rfl, ?_⟩
  show f (g s) = f (g t)
  rw [h, h, hst]

end DependsOn

/-- Two computations, run in `s` and `t`, take the same course: both return, and `Q` holds of what
they leave, or both fail with errors that are alike by `E`. -/
def Related {σ' ε' β : Type} (E : ε → ε' → Prop) (m : Fallible σ ε α) (m' : Fallible σ' ε' β)
    (s : σ) (t : σ') (Q : α → β → σ → σ' → Prop) : Prop :=
  (∃ a b s' t', m s = (.ok a, s') ∧ m' t = (.ok b, t') ∧ Q a b s' t') ∨
    ∃ e e' s' t', m s = (.error e, s') ∧ m' t = (.error e', t') ∧ E e e'

namespace Related

variable {σ' ε' α' β' : Type} {E : ε → ε' → Prop} {m : Fallible σ ε α} {m' : Fallible σ' ε' α'}
  {k : α → Fallible σ ε β} {k' : α' → Fallible σ' ε' β'} {s : σ} {t : σ'}

lemma pure {a : α} {a' : α'} {Q : α → α' → σ → σ' → Prop} (h : Q a a' s t) :
    Related E (Pure.pure a : Fallible σ ε α) (Pure.pure a' : Fallible σ' ε' α') s t Q :=
  .inl ⟨a, a', s, t, rfl, rfl, h⟩

/-- The rule for one step of each. -/
lemma andThen {P : α → α' → σ → σ' → Prop} {Q : β → β' → σ → σ' → Prop}
    (h : Related E m m' s t P)
    (hk : ∀ a a' s t, P a a' s t → Related E (k a) (k' a') s t Q) :
    Related E (m >>= k) (m' >>= k') s t Q := by
  show Related E (Fallible.bind m k) (Fallible.bind m' k') s t Q
  rcases h with ⟨a, a', s₁, t₁, hm, hm', hP⟩ | ⟨e, e', s₁, t₁, hm, hm', hE⟩
  · unfold Related Fallible.bind
    rw [hm, hm']
    exact hk a a' s₁ t₁ hP
  · refine .inr ⟨e, e', s₁, t₁, ?_, ?_, hE⟩
    · rw [Fallible.bind, hm]
    · rw [Fallible.bind, hm']

lemma mono {P Q : α → α' → σ → σ' → Prop} (h : Related E m m' s t P)
    (hPQ : ∀ a a' s t, P a a' s t → Q a a' s t) : Related E m m' s t Q := by
  rcases h with ⟨a, a', s₁, t₁, hm, hm', hP⟩ | herror
  · exact .inl ⟨a, a', s₁, t₁, hm, hm', hPQ a a' s₁ t₁ hP⟩
  · exact .inr herror

end Related

/-- Run in states related by `R`, the two computations answer alike and leave states related by `R`,
also where they fail. -/
def Simulates {σ' : Type} (R : σ → σ' → Prop) (m : Fallible σ ε α) (m' : Fallible σ' ε α) : Prop :=
  ∀ s t, R s t → (m s).1 = (m' t).1 ∧ R (m s).2 (m' t).2

namespace Simulates

variable {σ' : Type} {R : σ → σ' → Prop} {m : Fallible σ ε α} {m' : Fallible σ' ε α}
  {k : α → Fallible σ ε β} {k' : α → Fallible σ' ε β}

lemma bind (h : Simulates R m m') (hk : ∀ a, Simulates R (k a) (k' a)) :
    Simulates R (m >>= k) (m' >>= k') := by
  intro s t hst
  obtain ⟨hval, hstate⟩ := h s t hst
  show (Fallible.bind m k s).1 = (Fallible.bind m' k' t).1 ∧
    R (Fallible.bind m k s).2 (Fallible.bind m' k' t).2
  rw [Fallible.bind, Fallible.bind]
  generalize m s = p at hval hstate
  generalize m' t = q at hval hstate
  obtain ⟨r, s'⟩ := p
  obtain ⟨r', t'⟩ := q
  obtain rfl : r = r' := hval
  cases r with
  | error e => exact ⟨rfl, hstate⟩
  | ok a => exact hk a s' t' hstate

end Simulates

/-- Run in states related by `R`, the two computations both return or both fail, and leave states
related by `R` either way. -/
def Parallels {σ' ε' : Type} (R : σ → σ' → Prop) (m : Fallible σ ε Unit)
    (m' : Fallible σ' ε' Unit) : Prop :=
  ∀ s t, R s t → (m s).1.isOk = (m' t).1.isOk ∧ R (m s).2 (m' t).2

namespace Parallels

variable {σ' ε' : Type} {R : σ → σ' → Prop} {m k : Fallible σ ε Unit} {m' k' : Fallible σ' ε' Unit}

lemma pure : Parallels R (Pure.pure () : Fallible σ ε Unit) (Pure.pure () : Fallible σ' ε' Unit) :=
  fun _ _ hst => ⟨rfl, hst⟩

lemma bind (h : Parallels R m m') (hk : Parallels R k k') :
    Parallels R (m >>= fun _ => k) (m' >>= fun _ => k') := by
  intro s t hst
  obtain ⟨hval, hstate⟩ := h s t hst
  show (Fallible.bind m (fun _ => k) s).1.isOk = (Fallible.bind m' (fun _ => k') t).1.isOk ∧
    R (Fallible.bind m (fun _ => k) s).2 (Fallible.bind m' (fun _ => k') t).2
  rw [Fallible.bind, Fallible.bind]
  generalize m s = p at hval hstate
  generalize m' t = q at hval hstate
  obtain ⟨_ | _, s'⟩ := p <;> obtain ⟨_ | _, t'⟩ := q
  · exact ⟨rfl, hstate⟩
  · exact absurd hval (by simp)
  · exact absurd hval (by simp)
  · exact hk s' t' hstate

end Parallels

end Fallible

end ExchangeCore

import Mathlib.Logic.Function.Basic
import Mathlib.Logic.Relation
import Mathlib.Tactic.Common

/-!
# Concurrent workers over a shared service

A worker runs a program: a tree of operations on a shared service, each followed by what the
worker does with the answer (`Prog`).  What the service may answer and how it changes is a relation
(`Service`), so that lost messages, refusals and anything else outside the program's control are
choices of the relation.  `Config.Step` interleaves any number of workers, one operation at a time;
a worker may stop at any point, whether it has finished or crashed, and start again.

Programs are verified one at a time, by rely and guarantee.  `Safe serv I G p s` says that,
whatever the other workers do from `s` on within the guarantee `G` and the invariant `I`, every
operation `p` performs keeps `I` and stays within `G`.  If that holds of the program every worker
starts with, then `I` holds in every configuration reached (`Reachable.invariant`) and every step
stays within `G` (`Reachable.guarantee`).  `Safe.perform` is the rule for one operation: what the
worker knows before it has to be stable under the steps of the others.

`RunsAmong` looks at one run of one program instead, with all that happens during it, where the
others may do what is in a relation; `attempt` is a program whose operations may fail.
-/

namespace ExchangeCore

/-- A program that performs operations answered in `Ans` and returns an `α`. -/
inductive Prog (Op : Type) (Ans : Op → Type) (α : Type)
  | ret (a : α)
  | call (op : Op) (k : Ans op → Prog Op Ans α)

namespace Prog

variable {Op : Type} {Ans : Op → Type} {α β : Type}

/-- Sequencing. -/
def bind : Prog Op Ans α → (α → Prog Op Ans β) → Prog Op Ans β
  | .ret a, f => f a
  | .call op k, f => .call op (fun a => bind (k a) f)

instance : Monad (Prog Op Ans) where
  pure := ret
  bind := bind

/-- Perform one operation and return its answer. -/
def perform (op : Op) : Prog Op Ans (Ans op) := .call op .ret

end Prog

/-- What a shared service may do: `serv s op a s'` if in state `s` it may answer `op` by `a` and
be in state `s'` afterwards. -/
abbrev Service (σ Op : Type) (Ans : Op → Type) := σ → (op : Op) → Ans op → σ → Prop

/-- The service as far as its answers meet `P`. -/
def Service.restrict {σ Op : Type} {Ans : Op → Type} (serv : Service σ Op Ans)
    (P : (op : Op) → Ans op → Prop) : Service σ Op Ans :=
  fun s op a s' => serv s op a s' ∧ P op a

/-- The service as far as it gets to states that meet `P`. -/
def Service.within {σ Op : Type} {Ans : Op → Type} (serv : Service σ Op Ans) (P : σ → Prop) :
    Service σ Op Ans := fun s op a s' => serv s op a s' ∧ P s'

/-- A program run alone, from one state of the service to another. -/
def Prog.Runs {σ Op α : Type} {Ans : Op → Type} (serv : Service σ Op Ans) :
    Prog Op Ans α → σ → α → σ → Prop
  | .ret a, s, a', s' => a' = a ∧ s' = s
  | .call op k, s, a', s' => ∃ a s₁, serv s op a s₁ ∧ Runs serv (k a) s₁ a' s'

/-- A sequence runs its first part and then, on what that returns, its second. -/
lemma Prog.Runs.of_bind {σ Op α β : Type} {Ans : Op → Type} {serv : Service σ Op Ans}
    {p : Prog Op Ans α} {f : α → Prog Op Ans β} {s s' : σ} {b : β}
    (h : (p >>= f).Runs serv s b s') :
    ∃ a s₁, p.Runs serv s a s₁ ∧ (f a).Runs serv s₁ b s' := by
  induction p generalizing s with
  | ret a => exact ⟨a, s, ⟨rfl, rfl⟩, h⟩
  | call op k ih =>
      obtain ⟨a, s₁, hserv, hrest⟩ := h
      obtain ⟨a', s₂, hk, hf⟩ := ih a hrest
      exact ⟨a', s₂, ⟨a, s₁, hserv, hk⟩, hf⟩

/-! ## Operations of a program -/

namespace Prog

variable {Op : Type} {Ans : Op → Type} {α β : Type}

/-- Every operation the program may come to meets `P`. -/
def All (P : Op → Prop) : Prog Op Ans α → Prop
  | .ret _ => True
  | .call op k => P op ∧ ∀ a, All P (k a)

/-- The program may come to an operation. -/
inductive Performs (op : Op) : Prog Op Ans α → Prop
  | now (k : Ans op → Prog Op Ans α) : Performs op (.call op k)
  | later {op' : Op} {k : Ans op' → Prog Op Ans α} (a : Ans op') (h : Performs op (k a)) :
      Performs op (.call op' k)

lemma All.of_performs {P : Op → Prop} {p : Prog Op Ans α} {op : Op} (h : p.All P)
    (hop : p.Performs op) : P op := by
  induction hop with
  | now k => exact h.1
  | later a _ ih => exact ih (h.2 a)

lemma All.bind {P : Op → Prop} {p : Prog Op Ans α} {f : α → Prog Op Ans β} (h : p.All P)
    (hf : ∀ a, (f a).All P) : (p >>= f).All P := by
  induction p with
  | ret a => exact hf a
  | call op k ih => exact ⟨h.1, fun a => ih a (h.2 a)⟩

/-! ## Operations that may fail -/

section Attempt

variable {Op' ε : Type} {Ans' : Op' → Type}

/-- Go on with an answer; an error is the end. -/
def orElse (k : α → Prog Op Ans (Except ε β)) : Except ε α → Prog Op Ans (Except ε β)
  | .ok a => k a
  | .error e => .ret (.error e)

/-- The program over operations that answer an error now and then, which ends it. -/
def attempt (emb : Op → Op') (view : ∀ op, Ans' (emb op) → Except ε (Ans op)) :
    Prog Op Ans α → Prog Op' Ans' (Except ε α)
  | .ret a => .ret (.ok a)
  | .call op k => .call (emb op) (fun x => orElse (fun a => attempt emb view (k a)) (view op x))

variable {emb : Op → Op'} {view : ∀ op, Ans' (emb op) → Except ε (Ans op)}

lemma attempt_bind (p : Prog Op Ans α) (f : α → Prog Op Ans β) :
    attempt emb view (p >>= f) =
      attempt emb view p >>= orElse (fun a => attempt emb view (f a)) := by
  induction p with
  | ret a => rfl
  | call op k ih =>
      show Prog.call (emb op) _ = Prog.call (emb op) _
      congr 1
      funext x
      show orElse _ (view op x) = (orElse _ (view op x)).bind _
      rcases view op x with e | a
      · rfl
      · exact ih a

lemma All.attempt {P : Op → Prop} {Q : Op' → Prop} (hPQ : ∀ op, P op → Q (emb op))
    {p : Prog Op Ans α} (h : p.All P) : (p.attempt emb view).All Q := by
  induction p with
  | ret a => trivial
  | call op k ih =>
      refine ⟨hPQ op h.1, fun x => ?_⟩
      show (orElse _ (view op x)).All Q
      rcases view op x with e | a
      · trivial
      · exact ih a (h.2 a)

end Attempt

end Prog

/-! ## One program among others -/

/-- What happens while a program runs: something done by others, or an operation of its own. -/
inductive Event (σ Op : Type) (Ans : Op → Type)
  | others (s s' : σ)
  | own (s : σ) (op : Op) (a : Ans op) (s' : σ)

/-- The state an event ends in. -/
def Event.after {σ Op : Type} {Ans : Op → Type} : Event σ Op Ans → σ
  | .others _ s' => s'
  | .own _ _ _ s' => s'

/-- A program run while others do what is in `R`, with everything that happens until its last
operation has been answered. -/
inductive Prog.RunsAmong {σ Op : Type} {Ans : Op → Type} {α : Type} (serv : Service σ Op Ans)
    (R : σ → σ → Prop) : Prog Op Ans α → σ → List (Event σ Op Ans) → α → σ → Prop
  | ret (a : α) (s : σ) : RunsAmong serv R (.ret a) s [] a s
  | others {op : Op} {k : Ans op → Prog Op Ans α} {s s₁ s' : σ} {es : List (Event σ Op Ans)}
      {a : α} (h : R s s₁) (hrest : RunsAmong serv R (.call op k) s₁ es a s') :
      RunsAmong serv R (.call op k) s (.others s s₁ :: es) a s'
  | own {op : Op} {k : Ans op → Prog Op Ans α} {s s₁ s' : σ} {x : Ans op}
      {es : List (Event σ Op Ans)} {a : α} (h : serv s op x s₁)
      (hrest : RunsAmong serv R (k x) s₁ es a s') :
      RunsAmong serv R (.call op k) s (.own s op x s₁ :: es) a s'

namespace Prog.RunsAmong

variable {σ Op α β : Type} {Ans : Op → Type} {serv : Service σ Op Ans} {R : σ → σ → Prop}
  {s s' : σ} {es : List (Event σ Op Ans)}

/-- A program that has returned does nothing. -/
lemma of_ret {a a' : α} (h : RunsAmong serv R (.ret a) s es a' s') :
    a' = a ∧ es = [] ∧ s' = s := by
  cases h with
  | ret => exact ⟨rfl, rfl, rfl⟩

/-- A sequence runs its first part and then, on what that returns, its second. -/
lemma of_bind {p : Prog Op Ans α} {f : α → Prog Op Ans β} {b : β}
    (h : RunsAmong serv R (p >>= f) s es b s') :
    ∃ a s₁ es₁ es₂, RunsAmong serv R p s es₁ a s₁ ∧ RunsAmong serv R (f a) s₁ es₂ b s' ∧
      es = es₁ ++ es₂ := by
  induction p generalizing s es with
  | ret a => exact ⟨a, s, [], es, .ret a s, h, rfl⟩
  | call op k ih =>
      -- The others come first, and then the operation.
      generalize hp : (Prog.call op k >>= f) = q at h
      induction h with
      | ret b s => exact absurd hp (by simp [Bind.bind, Prog.bind])
      | others hR hrest ihrest =>
          obtain ⟨a, s₁, es₁, es₂, hfirst, hsecond, rfl⟩ := ihrest ih hp
          obtain ⟨rfl, -⟩ := Prog.call.inj hp
          exact ⟨a, s₁, _, es₂, .others hR hfirst, hsecond, rfl⟩
      | own hserv hrest _ =>
          obtain ⟨rfl, hk⟩ := Prog.call.inj hp
          obtain rfl := eq_of_heq hk
          obtain ⟨a, s₁, es₁, es₂, hfirst, hsecond, rfl⟩ := ih _ hrest
          exact ⟨a, s₁, _, es₂, .own hserv hfirst, hsecond, rfl⟩

/-- The operation a program begins with: others come before it. -/
lemma of_call {op : Op} {k : Ans op → Prog Op Ans α} {a : α}
    (h : RunsAmong serv R (.call op k) s es a s') :
    ∃ between s₁ x s₂ rest, serv s₁ op x s₂ ∧ RunsAmong serv R (k x) s₂ rest a s' ∧
      es = between ++ .own s₁ op x s₂ :: rest ∧ ∀ e ∈ between, ∃ t t', e = .others t t' := by
  generalize hp : Prog.call op k = q at h
  induction h with
  | ret b s => exact absurd hp (by simp)
  | others hR hrest ihrest =>
      obtain ⟨between, s₁, x, s₂, rest, hserv, hk, rfl, hbetween⟩ := ihrest hp
      refine ⟨_ :: between, s₁, x, s₂, rest, hserv, hk, rfl, ?_⟩
      intro e he
      rcases List.mem_cons.mp he with rfl | he
      · exact ⟨_, _, rfl⟩
      · exact hbetween e he
  | own hserv hrest _ =>
      obtain ⟨rfl, hk⟩ := Prog.call.inj hp
      obtain rfl := eq_of_heq hk
      exact ⟨[], _, _, _, _, hserv, hrest, rfl, fun e he => absurd he List.not_mem_nil⟩

/-- What is stable holds at the end once it has held. -/
lemma stable {A : σ → Prop} {P : Op → Prop} (hothers : ∀ t t', R t t' → A t → A t')
    (hserv : ∀ t op x t', P op → serv t op x t' → A t → A t') {p : Prog Op Ans α} {a : α}
    (h : RunsAmong serv R p s es a s') (hp : p.All P)
    (hsome : ∃ t ∈ s :: es.map Event.after, A t) : A s' := by
  induction h with
  | ret a s =>
      obtain ⟨t, ht, hA⟩ := hsome
      rwa [List.mem_singleton.mp ht] at hA
  | others hR hrest ih =>
      obtain ⟨t, ht, hA⟩ := hsome
      refine ih hp ?_
      rcases List.mem_cons.mp ht with rfl | ht
      · exact ⟨_, List.mem_cons_self, hothers _ _ hR hA⟩
      · exact ⟨t, ht, hA⟩
  | own hserv' hrest ih =>
      obtain ⟨t, ht, hA⟩ := hsome
      refine ih (hp.2 _) ?_
      rcases List.mem_cons.mp ht with rfl | ht
      · exact ⟨_, List.mem_cons_self, hserv _ _ _ _ hp.1 hserv' hA⟩
      · exact ⟨t, ht, hA⟩

/-- The last state is one of those come through. -/
lemma last_mem {p : Prog Op Ans α} {a : α} (h : RunsAmong serv R p s es a s') :
    s' ∈ s :: es.map Event.after := by
  induction h with
  | ret a s => exact List.mem_cons_self
  | others _ _ ih => exact List.mem_cons_of_mem _ ih
  | own _ _ ih => exact List.mem_cons_of_mem _ ih

/-- If what does not hold never comes to hold, a run that ends where `P` holds is within it. -/
lemma within {P : σ → Prop} (hothers : ∀ t t', R t t' → P t' → P t)
    (hserv : ∀ t op x t', serv t op x t' → P t' → P t) {p : Prog Op Ans α} {a : α}
    (h : RunsAmong serv R p s es a s') (hP : P s') :
    P s ∧ RunsAmong (serv.within P) (fun t t' => R t t' ∧ P t') p s es a s' := by
  induction h with
  | ret a s => exact ⟨hP, .ret a s⟩
  | others hR _ ih =>
      obtain ⟨hnext, hrun⟩ := ih hP
      exact ⟨hothers _ _ hR hnext, .others ⟨hR, hnext⟩ hrun⟩
  | own hown _ ih =>
      obtain ⟨hnext, hrun⟩ := ih hP
      exact ⟨hserv _ _ _ _ hown hnext, .own ⟨hown, hnext⟩ hrun⟩

end Prog.RunsAmong

/-! ## Configurations -/

/-- The shared state and what is left of each worker's program, if it runs one. -/
structure Config (W σ Op : Type) (Ans : Op → Type) (α : Type) where
  shared : σ
  workers : W → Option (Prog Op Ans α)

namespace Config

variable {W σ Op α : Type} {Ans : Op → Type} [DecidableEq W]

/-- No worker is running. -/
def idle (s : σ) : Config W σ Op Ans α := ⟨s, fun _ => none⟩

/-- The configuration with one worker's program replaced. -/
def set (c : Config W σ Op Ans α) (w : W) (p : Option (Prog Op Ans α)) : Config W σ Op Ans α :=
  ⟨c.shared, Function.update c.workers w p⟩

/-- One step of one worker. -/
inductive Step (serv : Service σ Op Ans) (main : Prog Op Ans α) :
    Config W σ Op Ans α → Config W σ Op Ans α → Prop
  /-- A worker that is not running starts. -/
  | start (c : Config W σ Op Ans α) (w : W) (hw : c.workers w = none) :
      Step serv main c (c.set w (some main))
  /-- A worker performs its next operation. -/
  | perform (c : Config W σ Op Ans α) (w : W) (op : Op) (k : Ans op → Prog Op Ans α) (a : Ans op)
      (s' : σ) (hw : c.workers w = some (.call op k)) (hserv : serv c.shared op a s') :
      Step serv main c { c.set w (some (k a)) with shared := s' }
  /-- A worker stops: it has finished, or it crashes. -/
  | stop (c : Config W σ Op Ans α) (w : W) : Step serv main c (c.set w none)

lemma Step.mono {serv serv' : Service σ Op Ans} {main : Prog Op Ans α} {c c' : Config W σ Op Ans α}
    (hserv : ∀ s op a s', serv s op a s' → serv' s op a s') (hstep : Step serv main c c') :
    Step serv' main c c' := by
  cases hstep with
  | start w hw => exact .start c w hw
  | perform w op k a s' hw hs => exact .perform c w op k a s' hw (hserv _ _ _ _ hs)
  | stop w => exact .stop c w

lemma Step.within {serv : Service σ Op Ans} {main : Prog Op Ans α} {c c' : Config W σ Op Ans α}
    {P : σ → Prop} (hstep : Step serv main c c') (hP : P c'.shared) :
    Step (serv.within P) main c c' := by
  cases hstep with
  | start w hw => exact .start c w hw
  | perform w op k a s' hw hs => exact .perform c w op k a s' hw ⟨hs, hP⟩
  | stop w => exact .stop c w

/-- If what does not hold never comes to hold, it has held before a step if it holds after it. -/
lemma Step.back {serv : Service σ Op Ans} {main : Prog Op Ans α} {c c' : Config W σ Op Ans α}
    {P : σ → Prop} (hback : ∀ s op a s', serv s op a s' → P s' → P s)
    (hstep : Step serv main c c') (hP : P c'.shared) : P c.shared := by
  cases hstep with
  | start w hw => exact hP
  | perform w op k a s' hw hs => exact hback _ _ _ _ hs hP
  | stop w => exact hP

/-- The configurations reached from an idle one. -/
def Reachable (serv : Service σ Op Ans) (main : Prog Op Ans α) (s₀ : σ)
    (c : Config W σ Op Ans α) : Prop :=
  Relation.ReflTransGen (Step serv main) (idle s₀) c

end Config

/-! ## Rely and guarantee -/

section Safe

variable {σ Op α β : Type} {Ans : Op → Type} (serv : Service σ Op Ans) (I : σ → Prop)
  (G : σ → σ → Prop)

/-- Whatever others do from `s` on within `G` and `I`, the operations of the program keep `I` and
stay within `G`. -/
def Safe : Prog Op Ans α → σ → Prop
  | .ret _, _ => True
  | .call op k, s => ∀ s₁, Relation.ReflTransGen G s s₁ → I s₁ → ∀ a s₂, serv s₁ op a s₂ →
      I s₂ ∧ G s₁ s₂ ∧ Safe (k a) s₂

variable {serv I G}

/-- Safety is stable under the steps of others. -/
lemma Safe.mono {p : Prog Op Ans α} {s s' : σ} (h : Safe serv I G p s)
    (hs : Relation.ReflTransGen G s s') : Safe serv I G p s' := by
  cases p with
  | ret a => trivial
  | call op k => exact fun s₁ h₁ => h s₁ (hs.trans h₁)

/-- One operation: what is known before it, if it is stable, is known when it is performed. -/
lemma Safe.perform {op : Op} {k : Ans op → Prog Op Ans α} {s : σ} (A : σ → Prop)
    (hstable : ∀ s s', A s → G s s' → A s') (hA : A s)
    (h : ∀ s₁, A s₁ → I s₁ → ∀ a s₂, serv s₁ op a s₂ → I s₂ ∧ G s₁ s₂ ∧ Safe serv I G (k a) s₂) :
    Safe serv I G (Prog.perform op >>= k) s := by
  intro s₁ hs
  refine h s₁ ?_
  induction hs with
  | refl => exact hA
  | tail _ hstep ih => exact hstable _ _ ih hstep

/-- Sequencing: the second program has to be safe wherever the first one ends. -/
lemma Safe.bind {p : Prog Op Ans α} {f : α → Prog Op Ans β} {s : σ} (h : Safe serv I G p s)
    (hf : ∀ a s, Safe serv I G (f a) s) : Safe serv I G (p >>= f) s := by
  induction p generalizing s with
  | ret a => exact hf a s
  | call op k ih =>
      intro s₁ hs hI a s₂ hserv
      obtain ⟨hI₂, hG, hrest⟩ := h s₁ hs hI a s₂ hserv
      exact ⟨hI₂, hG, ih a hrest⟩

end Safe

/-! ## What holds of every interleaving -/

namespace Config.Reachable

variable {W σ Op α : Type} {Ans : Op → Type} [DecidableEq W] {serv : Service σ Op Ans}
  {I : σ → Prop} {G : σ → σ → Prop} {main : Prog Op Ans α} {s₀ : σ} {c c' : Config W σ Op Ans α}

/-- The invariant holds, and every running program is safe from here on. -/
lemma safe (hmain : ∀ s, I s → Safe serv I G main s) (h₀ : I s₀)
    (h : Reachable serv main s₀ c) :
    I c.shared ∧ ∀ w p, c.workers w = some p → Safe serv I G p c.shared := by
  induction h with
  | refl => exact ⟨h₀, fun w p hp => absurd hp (by simp [Config.idle])⟩
  | tail _ hstep ih =>
      obtain ⟨hI, hsafe⟩ := ih
      cases hstep with
      | start w hw =>
          refine ⟨hI, fun v p hp => ?_⟩
          by_cases hv : v = w
          · subst hv
            obtain rfl : main = p := by simpa [Config.set] using hp
            exact hmain _ hI
          · exact hsafe v p (by simpa [Config.set, hv] using hp)
      | perform w op k a s' hw hserv =>
          obtain ⟨hI', hG, hk⟩ := hsafe w _ hw _ .refl hI a s' hserv
          refine ⟨hI', fun v p hp => ?_⟩
          by_cases hv : v = w
          · subst hv
            obtain rfl : k a = p := by simpa [Config.set] using hp
            exact hk
          · exact (hsafe v p (by simpa [Config.set, hv] using hp)).mono (.single hG)
      | stop w =>
          refine ⟨hI, fun v p hp => ?_⟩
          by_cases hv : v = w
          · subst hv
            simp [Config.set] at hp
          · exact hsafe v p (by simpa [Config.set, hv] using hp)

/-- **The invariant rule.** -/
lemma invariant (hmain : ∀ s, I s → Safe serv I G main s) (h₀ : I s₀)
    (h : Reachable serv main s₀ c) : I c.shared := (h.safe hmain h₀).1

/-- **The guarantee rule.**  A step leaves the shared state alone or stays within `G`. -/
lemma guarantee (hmain : ∀ s, I s → Safe serv I G main s) (h₀ : I s₀)
    (h : Reachable serv main s₀ c) (hstep : Step serv main c c') :
    c'.shared = c.shared ∨ G c.shared c'.shared := by
  obtain ⟨hI, hsafe⟩ := h.safe hmain h₀
  cases hstep with
  | start w hw => exact Or.inl rfl
  | perform w op k a s' hw hserv => exact Or.inr (hsafe w _ hw _ .refl hI a s' hserv).2.1
  | stop w => exact Or.inl rfl

/-- What the service keeps by itself, whoever calls it. -/
lemma of_service {P : σ → Prop} (hserv : ∀ s op a s', serv s op a s' → P s → P s') (h₀ : P s₀)
    (h : Reachable serv main s₀ c) : P c.shared := by
  induction h with
  | refl => exact h₀
  | tail _ hstep ih =>
      cases hstep with
      | start w hw => exact ih
      | perform w op k a s' hw hs => exact hserv _ _ _ _ hs ih
      | stop w => exact ih

/-- A service that may do more reaches more. -/
lemma mono {serv' : Service σ Op Ans} (hserv : ∀ s op a s', serv s op a s' → serv' s op a s')
    (h : Reachable serv main s₀ c) : Reachable serv' main s₀ c :=
  Relation.ReflTransGen.mono (fun _ _ hstep => hstep.mono hserv) _ _ h

/-- A configuration in which `P` holds is reached within `P`, if what does not hold never comes to
hold. -/
lemma within {P : σ → Prop} (hback : ∀ s op a s', serv s op a s' → P s' → P s)
    (h : Reachable serv main s₀ c) (hP : P c.shared) : Reachable (serv.within P) main s₀ c := by
  induction h with
  | refl => exact .refl
  | tail _ hstep ih => exact (ih (hstep.back hback hP)).tail (hstep.within hP)

/-- Workers do nothing to the shared state but operations of their program. -/
lemma performed (h : Reachable serv main s₀ c) :
    Relation.ReflTransGen (fun s s' => ∃ op a, main.Performs op ∧ serv s op a s') s₀ c.shared := by
  -- What is left of a worker's program performs no others than the whole.
  suffices hboth : Relation.ReflTransGen (fun s s' => ∃ op a, main.Performs op ∧ serv s op a s') s₀
      c.shared ∧ ∀ w p, c.workers w = some p → ∀ op, p.Performs op → main.Performs op from hboth.1
  induction h with
  | refl => exact ⟨.refl, fun w p hp => absurd hp (by simp [Config.idle])⟩
  | tail _ hstep ih =>
      obtain ⟨hshared, hworkers⟩ := ih
      cases hstep with
      | start w hw =>
          refine ⟨hshared, fun v p hp => ?_⟩
          by_cases hv : v = w
          · subst hv
            obtain rfl : main = p := by simpa [Config.set] using hp
            exact fun _ hop => hop
          · exact hworkers v p (by simpa [Config.set, hv] using hp)
      | perform w op k a s' hw hserv =>
          refine ⟨hshared.tail ⟨op, a, hworkers w _ hw op (.now k), hserv⟩, fun v p hp => ?_⟩
          by_cases hv : v = w
          · subst hv
            obtain rfl : k a = p := by simpa [Config.set] using hp
            exact fun op' hop => hworkers v _ hw op' (.later a hop)
          · exact hworkers v p (by simpa [Config.set, hv] using hp)
      | stop w =>
          refine ⟨hshared, fun v p hp => ?_⟩
          by_cases hv : v = w
          · subst hv
            simp [Config.set] at hp
          · exact hworkers v p (by simpa [Config.set, hv] using hp)

end Config.Reachable

/-! ## A worker alone -/

namespace Config

variable {σ Op α : Type} {Ans : Op → Type}

/-- One worker, running `p`. -/
def solo (s : σ) (p : Prog Op Ans α) : Config Unit σ Op Ans α := ⟨s, fun _ => some p⟩

namespace Reachable

variable {serv : Service σ Op Ans} {main : Prog Op Ans α} {s₀ s s' : σ}

lemma set_eq (c : Config Unit σ Op Ans α) (p : Prog Op Ans α) :
    c.set () (some p) = solo c.shared p := by
  simp only [set, solo, mk.injEq, true_and]
  funext w
  exact Function.update_self ..

lemma solo_start : Reachable serv main s₀ (solo s₀ main) := by
  have hstep : Step serv main (idle s₀) ((idle s₀).set () (some main)) := .start _ () rfl
  rw [set_eq] at hstep
  exact .single hstep

/-- The worker performs its next operation. -/
lemma solo_perform {op : Op} {k : Ans op → Prog Op Ans α} {a : Ans op}
    (h : Reachable serv main s₀ (solo s (.call op k))) (hs : serv s op a s') :
    Reachable serv main s₀ (solo s' (k a)) := by
  have hstep : Step serv main (solo s (.call op k))
      { (solo s (.call op k)).set () (some (k a)) with shared := s' } :=
    .perform _ () op k a s' rfl hs
  rw [set_eq] at hstep
  exact h.tail hstep

/-- The worker stops and starts again. -/
lemma solo_restart {p : Prog Op Ans α} (h : Reachable serv main s₀ (solo s p)) :
    Reachable serv main s₀ (solo s main) := by
  have hstop : Step serv main (solo s p) ((solo s p).set () none) := .stop _ ()
  have hstart : Step serv main ((solo s p).set () none)
      (((solo s p).set () none).set () (some main)) :=
    .start _ () (by simp [set])
  rw [set_eq] at hstart
  exact (h.tail hstop).tail hstart

end Reachable

end Config

end ExchangeCore

import ExchangeCore.Framework.Workers

/-!
# Contracts of programs among workers

`Safe` of `Framework/Workers.lean` speaks about the operations a program performs.  A `Contract`
adds what is known of each operation performed (`P`) and of what the program returns (`Q`), so that
the programs of a service can be verified apart and then sequenced (`Contract.bind`).

A program of a component becomes one of a larger service when its operations are embedded
(`Prog.embed`, or `Prog.attempt` where the larger service may also answer errors); its contract goes
along (`Contract.embed`, `Contract.attempt`).  `Contract.of_runsAmong` is what a contract says of
one run among others.
-/

namespace ExchangeCore

/-! ## Embedded programs -/

namespace Prog

variable {Op Op' : Type} {Ans : Op → Type} {Ans' : Op' → Type} {α : Type}

/-- The program with its operations taken for operations of a larger service. -/
def embed (emb : Op → Op') (view : ∀ op, Ans' (emb op) → Ans op) : Prog Op Ans α → Prog Op' Ans' α
  | .ret a => .ret a
  | .call op k => .call (emb op) (fun x => embed emb view (k (view op x)))

lemma All.embed {P : Op' → Prop} {emb : Op → Op'} {view : ∀ op, Ans' (emb op) → Ans op}
    (h : ∀ op, P (emb op)) (p : Prog Op Ans α) : (p.embed emb view).All P := by
  induction p with
  | ret a => trivial
  | call op k ih => exact ⟨h op, fun x => ih _⟩

end Prog

section Contract

variable {σ Op α β : Type} {Ans : Op → Type}

/-- Whatever others do from `s` on within `G` and `I`, the operations of the program meet `P`, keep
`I` and stay within `G`, and what it returns meets `Q` from then on. -/
def Contract (serv : Service σ Op Ans) (I : σ → Prop) (G : σ → σ → Prop) (P : Op → Prop)
    (Q : α → σ → Prop) : Prog Op Ans α → σ → Prop
  | .ret a, s => ∀ s₁, Relation.ReflTransGen G s s₁ → I s₁ → Q a s₁
  | .call op k, s => P op ∧ ∀ s₁, Relation.ReflTransGen G s s₁ → I s₁ → ∀ a s₂, serv s₁ op a s₂ →
      I s₂ ∧ G s₁ s₂ ∧ Contract serv I G P Q (k a) s₂

variable {serv : Service σ Op Ans} {I : σ → Prop} {G : σ → σ → Prop} {P : Op → Prop}
  {Q : α → σ → Prop} {s s' : σ}

namespace Contract

lemma safe {p : Prog Op Ans α} (h : Contract serv I G P Q p s) : Safe serv I G p s := by
  induction p generalizing s with
  | ret a => trivial
  | call op k ih =>
      intro s₁ hs hI a s₂ hserv
      obtain ⟨hI₂, hG, hrest⟩ := h.2 s₁ hs hI a s₂ hserv
      exact ⟨hI₂, hG, ih a hrest⟩

/-- It is stable under the steps of others. -/
lemma mono {p : Prog Op Ans α} (h : Contract serv I G P Q p s)
    (hs : Relation.ReflTransGen G s s') : Contract serv I G P Q p s' := by
  cases p with
  | ret a => exact fun s₁ h₁ => h s₁ (hs.trans h₁)
  | call op k => exact ⟨h.1, fun s₁ h₁ => h.2 s₁ (hs.trans h₁)⟩

/-- What is stable and known is known later. -/
lemma stable {A : σ → Prop} (hstable : ∀ s s', A s → G s s' → A s') (hA : A s)
    (hs : Relation.ReflTransGen G s s') : A s' := by
  induction hs with
  | refl => exact hA
  | tail _ hstep ih => exact hstable _ _ ih hstep

/-- Returning. -/
lemma ret {a : α} (A : σ → Prop) (hstable : ∀ s s', A s → G s s' → A s') (hA : A s)
    (h : ∀ s₁, A s₁ → I s₁ → Q a s₁) : Contract serv I G P Q (.ret a) s :=
  fun s₁ hs => h s₁ (stable hstable hA hs)

/-- One operation. -/
lemma perform {op : Op} {k : Ans op → Prog Op Ans α} (A : σ → Prop)
    (hstable : ∀ s s', A s → G s s' → A s') (hA : A s) (hP : P op)
    (h : ∀ s₁, A s₁ → I s₁ → ∀ a s₂, serv s₁ op a s₂ →
      I s₂ ∧ G s₁ s₂ ∧ Contract serv I G P Q (k a) s₂) :
    Contract serv I G P Q (Prog.perform op >>= k) s :=
  ⟨hP, fun s₁ hs => h s₁ (stable hstable hA hs)⟩

/-- Sequencing: the second program starts from what the first one promises. -/
lemma bind {p : Prog Op Ans α} {f : α → Prog Op Ans β} {R : β → σ → Prop} (hI : I s)
    (h : Contract serv I G P Q p s)
    (hf : ∀ a s', I s' → Relation.ReflTransGen G s s' →
      (∀ s₁, Relation.ReflTransGen G s' s₁ → I s₁ → Q a s₁) → Contract serv I G P R (f a) s') :
    Contract serv I G P R (p >>= f) s := by
  induction p generalizing s with
  | ret a => exact hf a s hI .refl h
  | call op k ih =>
      refine ⟨h.1, fun s₁ hs hI a s₂ hserv => ?_⟩
      obtain ⟨hI₂, hG, hrest⟩ := h.2 s₁ hs hI a s₂ hserv
      exact ⟨hI₂, hG, ih a hI₂ hrest (fun b s' hI' hs' => hf b s' hI' ((hs.tail hG).trans hs'))⟩

section Embed

variable {σ' Op' ε : Type} {Ans' : Op' → Type} {serv' : Service σ' Op' Ans'} {I' : σ' → Prop}
  {G' : σ' → σ' → Prop} {P' : Op' → Prop} {emb : Op → Op'}

/-- Operations that may also answer an error, where `E` allows it, whether or not they have been
applied. -/
lemma attempt {serv' : Service σ Op' Ans'} {P' : Op' → Prop} {E : Prop}
    {view : ∀ op, Ans' (emb op) → Except ε (Ans op)} (hrefl : ∀ s, G s s)
    (hok : ∀ s op x s' a, serv' s (emb op) x s' → view op x = .ok a → serv s op a s')
    (herror : ∀ s op x s' e, serv' s (emb op) x s' → view op x = .error e →
      E ∧ (s' = s ∨ ∃ a, serv s op a s'))
    (hP : ∀ op, P op → P' (emb op)) {p : Prog Op Ans α} (h : Contract serv I G P Q p s) :
    Contract serv' I G P' (fun r s => (∃ a, r = .ok a ∧ Q a s) ∨ E ∧ ∃ e, r = .error e)
      (p.attempt emb view) s := by
  induction p generalizing s with
  | ret a => exact fun s₁ hs hI => Or.inl ⟨a, rfl, h s₁ hs hI⟩
  | call op k ih =>
      refine ⟨hP op h.1, fun s₁ hs hI x s₂ hserv => ?_⟩
      show I s₂ ∧ G s₁ s₂ ∧ Contract serv' I G P' _ (Prog.orElse _ (view op x)) s₂
      cases hview : view op x with
      | error e =>
          obtain ⟨hE, hs₂⟩ := herror s₁ op x s₂ e hserv hview
          have hend : Contract serv' I G P'
              (fun r s => (∃ a, r = .ok a ∧ Q a s) ∨ E ∧ ∃ e, r = .error e)
              (.ret (.error e) : Prog Op' Ans' (Except ε α)) s₂ :=
            fun _ _ _ => Or.inr ⟨hE, e, rfl⟩
          rcases hs₂ with rfl | ⟨a, hserv⟩
          · exact ⟨hI, hrefl _, hend⟩
          · obtain ⟨hI₂, hG, -⟩ := h.2 s₁ hs hI a s₂ hserv
            exact ⟨hI₂, hG, hend⟩
      | ok a =>
          obtain ⟨hI₂, hG, hrest⟩ := h.2 s₁ hs hI a s₂ (hok s₁ op x s₂ a hserv hview)
          exact ⟨hI₂, hG, ih a hrest⟩

/-- The operations of a component, in the service it is a part of, while `A` says that it is. -/
lemma embed {view : ∀ op, Ans' (emb op) → Ans op} (part : σ' → σ) {A : σ' → Prop}
    (hstable : ∀ t t', A t → G' t t' → A t') (hI : ∀ t, A t → I' t → I (part t))
    (hG : ∀ t t', A t → G' t t' → G (part t) (part t')) (hP : ∀ op, P op → P' (emb op))
    (hop : ∀ op t x t', P op → A t → I' t → serv' t (emb op) x t' →
      serv (part t) op (view op x) (part t') ∧
        (I (part t') → G (part t) (part t') → I' t' ∧ G' t t'))
    {p : Prog Op Ans α} {t : σ'} (hA : A t) (h : Contract serv I G P Q p (part t)) :
    Contract serv' I' G' P' (fun a t => Q a (part t)) (p.embed emb view) t := by
  have hrely : ∀ {t t₁}, A t → Relation.ReflTransGen G' t t₁ →
      Relation.ReflTransGen G (part t) (part t₁) := by
    intro t t₁ hA hs
    induction hs with
    | refl => exact .refl
    | tail hs hstep ih => exact ih.tail (hG _ _ (stable hstable hA hs) hstep)
  induction p generalizing t with
  | ret a =>
      exact fun t₁ hs hI₁ => h (part t₁) (hrely hA hs) (hI t₁ (stable hstable hA hs) hI₁)
  | call op k ih =>
      refine ⟨hP op h.1, fun t₁ hs hI₁ x t₂ hserv => ?_⟩
      have hA₁ := stable hstable hA hs
      obtain ⟨hpart, hback⟩ := hop op t₁ x t₂ h.1 hA₁ hI₁ hserv
      obtain ⟨hI₂, hG₂, hrest⟩ := h.2 (part t₁) (hrely hA hs) (hI t₁ hA₁ hI₁) _ _ hpart
      obtain ⟨hI'₂, hG'₂⟩ := hback hI₂ hG₂
      exact ⟨hI'₂, hG'₂, ih _ (hstable _ _ hA₁ hG'₂) hrest⟩

end Embed

/-- A run among others that keep `I` and stay within `G`: so does the run, and what it returns is
what has been promised. -/
lemma of_runsAmong {serv' : Service σ Op Ans} {R : σ → σ → Prop}
    (hserv : ∀ s op a s', serv' s op a s' → serv s op a s')
    (hR : ∀ s s', I s → R s s' → I s' ∧ G s s')
    {p : Prog Op Ans α} {es : List (Event σ Op Ans)} {a : α}
    (hrun : p.RunsAmong serv' R s es a s') (h : Contract serv I G P Q p s) (hI : I s) :
    I s' ∧ Relation.ReflTransGen G s s' ∧ Q a s' := by
  induction hrun with
  | ret a s => exact ⟨hI, .refl, h s .refl hI⟩
  | others hothers _ ih =>
      obtain ⟨hI₁, hG⟩ := hR _ _ hI hothers
      obtain ⟨hI', hG', hQ⟩ := ih (h.mono (.single hG)) hI₁
      exact ⟨hI', hG'.head hG, hQ⟩
  | own hop _ ih =>
      obtain ⟨hI₁, hG, hrest⟩ := h.2 _ .refl hI _ _ (hserv _ _ _ _ hop)
      obtain ⟨hI', hG', hQ⟩ := ih hrest hI₁
      exact ⟨hI', hG'.head hG, hQ⟩

end Contract

end Contract

/-! ## Events of a run -/

namespace Prog.RunsAmong

variable {σ Op α : Type} {Ans : Op → Type} {serv : Service σ Op Ans} {R : σ → σ → Prop}
  {s s' : σ} {es : List (Event σ Op Ans)} {a : α}

/-- The operations of a run are those of the program. -/
lemma own_of_all {P : Op → Prop} {p : Prog Op Ans α} (h : RunsAmong serv R p s es a s')
    (hp : p.All P) : ∀ t op x t', .own t op x t' ∈ es → P op := by
  induction h with
  | ret => exact fun _ _ _ _ he => absurd he List.not_mem_nil
  | others _ _ ih =>
      intro t op x t' he
      rcases List.mem_cons.mp he with he | he
      · cases he
      · exact ih hp t op x t' he
  | own _ _ ih =>
      intro t op x t' he
      rcases List.mem_cons.mp he with he | he
      · cases he
        exact hp.1
      · exact ih (hp.2 _) t op x t' he

/-- The operation a program begins with, and what others do before it. -/
lemma first_call {op : Op} {k : Ans op → Prog Op Ans α}
    (h : RunsAmong serv R (.call op k) s es a s') :
    ∃ between s₁ x s₂ rest, Relation.ReflTransGen R s s₁ ∧ serv s₁ op x s₂ ∧
      RunsAmong serv R (k x) s₂ rest a s' ∧ es = between ++ .own s₁ op x s₂ :: rest ∧
      ∀ e ∈ between, ∃ t t', e = .others t t' := by
  generalize hp : Prog.call op k = q at h
  induction h with
  | ret b s => exact absurd hp (by simp)
  | others hR hrest ih =>
      obtain ⟨between, s₁, x, s₂, rest, hs, hserv, hk, rfl, hbetween⟩ := ih hp
      refine ⟨_ :: between, s₁, x, s₂, rest, hs.head hR, hserv, hk, rfl, ?_⟩
      intro e he
      rcases List.mem_cons.mp he with rfl | he
      · exact ⟨_, _, rfl⟩
      · exact hbetween e he
  | own hserv hrest _ =>
      obtain ⟨rfl, hk⟩ := Prog.call.inj hp
      obtain rfl := eq_of_heq hk
      exact ⟨[], _, _, _, _, .refl, hserv, hrest, rfl, fun e he => absurd he List.not_mem_nil⟩

end Prog.RunsAmong

end ExchangeCore

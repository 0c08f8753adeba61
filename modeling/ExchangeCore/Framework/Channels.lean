import Mathlib.Algebra.BigOperators.Group.Finset.Basic
import Mathlib.Algebra.Order.BigOperators.Group.Finset
import Mathlib.Data.Fintype.Basic
import Mathlib.Logic.Relation
import Mathlib.Tactic.Common

/-!
# Bounded channels

Producers send messages into bounded channels, and each channel has one consumer, which collects up
to a number of messages and writes them down together.  A producer that waits for room sends
everything; one that does not drops what finds its channel full, or all its room promised to others.

`Runs.inv` says what holds in every interleaving: nothing that got into a channel is lost, doubled
or reordered between there and what is written.  A system that has stopped has written everything
(`Stopped.of_no_step`), and every system can run until it stops (`exists_stopped`), so that bounded
channels do not block each other.
-/

namespace ExchangeCore

/-- What is fixed about some channels. -/
structure ChannelLimits (P κ : Type*) where
  /-- How many messages a channel holds. -/
  capacity : ℕ
  /-- How many messages the consumer of a channel collects. -/
  drain : κ → ℕ
  /-- Whether a producer waits for room. -/
  waits : P → Bool
  capacity_pos : 0 < capacity
  drain_pos : ∀ c, 0 < drain c

/-- Producers, channels and consumers at a moment. -/
@[ext] structure Channels (P κ μ : Type*) where
  /-- What each producer has still to send. -/
  todo : P → List (κ × μ)
  /-- What each has sent or dropped, in order. -/
  done : P → List (Bool × κ × μ)
  /-- What has got into each channel, and from whom. -/
  entered : κ → List (P × μ)
  queue : κ → List μ
  /-- What each consumer has collected. -/
  held : κ → List μ
  /-- What the consumers have written, in order. -/
  written : List (κ × List μ)

namespace Channels

variable {P κ μ : Type*}

/-- Nothing has been sent yet. -/
def start (todo : P → List (κ × μ)) : Channels P κ μ :=
  ⟨todo, fun _ => [], fun _ => [], fun _ => [], fun _ => [], []⟩

section Steps

variable [DecidableEq P] [DecidableEq κ]

/-- The messages for a channel. -/
def messagesFor (c : κ) (sends : List (κ × μ)) : List μ :=
  sends.filterMap (fun send => if send.1 = c then some send.2 else none)

/-- The messages from a producer. -/
def messagesFrom (p : P) (entered : List (P × μ)) : List μ :=
  entered.filterMap (fun entry => if entry.1 = p then some entry.2 else none)

/-- The sends that got into their channels. -/
def kept (done : List (Bool × κ × μ)) : List (κ × μ) :=
  done.filterMap (fun attempt => if attempt.1 then some attempt.2 else none)

/-- What has been written of a channel. -/
def writtenOf (s : Channels P κ μ) (c : κ) : List μ := (messagesFor c s.written).flatten

variable (L : ChannelLimits P κ)

/-- One process takes a step. -/
inductive Step : Channels P κ μ → Channels P κ μ → Prop
  | send {s : Channels P κ μ} {p : P} {c : κ} {m : μ} {rest : List (κ × μ)}
      (htodo : s.todo p = (c, m) :: rest) (hroom : (s.queue c).length < L.capacity) :
      Step s
        { s with
          todo := Function.update s.todo p rest
          done := Function.update s.done p (s.done p ++ [(true, c, m)])
          entered := Function.update s.entered c (s.entered c ++ [(p, m)])
          queue := Function.update s.queue c (s.queue c ++ [m]) }
  | drop {s : Channels P κ μ} {p : P} {c : κ} {m : μ} {rest : List (κ × μ)}
      (htodo : s.todo p = (c, m) :: rest) (hwaits : L.waits p = false)
      (hfull : L.capacity ≤ (s.queue c).length ∨ ∃ q, L.waits q = true ∧
        ∃ m' rest', s.todo q = (c, m') :: rest') :
      Step s
        { s with
          todo := Function.update s.todo p rest
          done := Function.update s.done p (s.done p ++ [(false, c, m)]) }
  | collect {s : Channels P κ μ} {c : κ} {m : μ} {rest : List μ} (hqueue : s.queue c = m :: rest)
      (hheld : (s.held c).length < L.drain c) :
      Step s
        { s with
          queue := Function.update s.queue c rest
          held := Function.update s.held c (s.held c ++ [m]) }
  | write {s : Channels P κ μ} {c : κ} (hheld : s.held c ≠ [])
      (hstop : s.queue c = [] ∨ (s.held c).length = L.drain c) :
      Step s
        { s with
          held := Function.update s.held c []
          written := s.written ++ [(c, s.held c)] }

/-- Any number of steps. -/
def Runs : Channels P κ μ → Channels P κ μ → Prop := Relation.ReflTransGen (Step L)

/-! ## What every interleaving keeps -/

/-- What holds between the beginning and now. -/
structure Inv (todo : P → List (κ × μ)) (s : Channels P κ μ) : Prop where
  /-- Every producer has gone through its sends in order. -/
  progress : ∀ p, (s.done p).map Prod.snd ++ s.todo p = todo p
  waits : ∀ p, L.waits p = true → ∀ attempt ∈ s.done p, attempt.1 = true
  /-- What has got into a channel from a producer is what it has sent there, in order. -/
  entered : ∀ p c, messagesFrom p (s.entered c) = messagesFor c (kept (s.done p))
  /-- What has got into a channel has been written, in order, up to what is on the way. -/
  conserved : ∀ c, s.writtenOf c ++ (s.held c ++ s.queue c) = (s.entered c).map Prod.snd
  queue : ∀ c, (s.queue c).length ≤ L.capacity
  held : ∀ c, (s.held c).length ≤ L.drain c
  batches : ∀ batch ∈ s.written, batch.2 ≠ [] ∧ batch.2.length ≤ L.drain batch.1

variable {L} {todo : P → List (κ × μ)} {s s' : Channels P κ μ}

lemma Inv.start (todo : P → List (κ × μ)) : Inv L todo (Channels.start todo) where
  progress _ := rfl
  waits _ _ _ h := absurd h List.not_mem_nil
  entered _ _ := rfl
  conserved _ := rfl
  queue _ := Nat.zero_le _
  held _ := Nat.zero_le _
  batches _ h := absurd h List.not_mem_nil

omit [DecidableEq P] in
lemma messagesFor_append (c : κ) (sends sends' : List (κ × μ)) :
    messagesFor c (sends ++ sends') = messagesFor c sends ++ messagesFor c sends' :=
  List.filterMap_append

omit [DecidableEq κ] in
lemma messagesFrom_append (p : P) (entries entries' : List (P × μ)) :
    messagesFrom p (entries ++ entries') = messagesFrom p entries ++ messagesFrom p entries' :=
  List.filterMap_append

omit [DecidableEq κ] in
lemma kept_append (done done' : List (Bool × κ × μ)) :
    kept (done ++ done') = kept done ++ kept done' := List.filterMap_append

omit [DecidableEq κ] in
/-- A producer moves on. -/
lemma progress_update {p : P} {ok : Bool} {x : κ × μ} {rest : List (κ × μ)}
    (h : ∀ p, (s.done p).map Prod.snd ++ s.todo p = todo p) (htodo : s.todo p = x :: rest)
    (p' : P) :
    (Function.update s.done p (s.done p ++ [(ok, x)]) p').map Prod.snd ++
      Function.update s.todo p rest p' = todo p' := by
  by_cases hp : p' = p
  · subst hp
    rw [Function.update_self, Function.update_self, ← h p', htodo, List.map_append,
      List.append_assoc]
    rfl
  · rw [Function.update_of_ne hp, Function.update_of_ne hp]
    exact h p'

lemma Inv.send (h : Inv L todo s) {p : P} {c : κ} {m : μ} {rest : List (κ × μ)}
    (htodo : s.todo p = (c, m) :: rest) (hroom : (s.queue c).length < L.capacity) :
    Inv L todo
      { s with
        todo := Function.update s.todo p rest
        done := Function.update s.done p (s.done p ++ [(true, c, m)])
        entered := Function.update s.entered c (s.entered c ++ [(p, m)])
        queue := Function.update s.queue c (s.queue c ++ [m]) } where
  progress := progress_update h.progress htodo
  waits := by
    refine (Function.forall_update_iff s.done
      (p := fun p done => L.waits p = true → ∀ attempt ∈ done, attempt.1 = true)).mpr
      ⟨fun hwaits attempt hin => ?_, fun p' _ => h.waits p'⟩
    rcases List.mem_append.mp hin with hin | hin
    · exact h.waits p hwaits attempt hin
    · rw [List.mem_singleton.mp hin]
  entered p' c' := by
    -- only the part of `p` in the channel `c` grows
    have hold := h.entered p' c'
    dsimp only
    by_cases hp : p' = p <;> by_cases hc : c' = c
    · subst hp hc
      rw [Function.update_self, Function.update_self, messagesFrom_append, kept_append,
        messagesFor_append, hold]
      simp [messagesFrom, messagesFor, kept]
    · subst hp
      rw [Function.update_self, Function.update_of_ne hc, kept_append, messagesFor_append, hold]
      simp [messagesFor, kept, Ne.symm hc]
    · subst hc
      rw [Function.update_of_ne hp, Function.update_self, messagesFrom_append, hold]
      simp [messagesFrom, Ne.symm hp]
    · rw [Function.update_of_ne hp, Function.update_of_ne hc, hold]
  conserved c' := by
    -- what is not written yet is still in the queue, the new message last
    have hold := h.conserved c'
    show writtenOf s c' ++ _ = _
    dsimp only
    by_cases hc : c' = c
    · subst hc
      rw [Function.update_self, Function.update_self, List.map_append, ← hold]
      simp
    · rw [Function.update_of_ne hc, Function.update_of_ne hc, hold]
  queue := by
    refine (Function.forall_update_iff s.queue
      (p := fun _ queue => queue.length ≤ L.capacity)).mpr ⟨?_, fun c' _ => h.queue c'⟩
    rw [List.length_append, List.length_singleton]
    exact hroom
  held := h.held
  batches := h.batches

lemma Inv.drop (h : Inv L todo s) {p : P} {c : κ} {m : μ} {rest : List (κ × μ)}
    (htodo : s.todo p = (c, m) :: rest) (hwaits : L.waits p = false) :
    Inv L todo
      { s with
        todo := Function.update s.todo p rest
        done := Function.update s.done p (s.done p ++ [(false, c, m)]) } where
  progress := progress_update h.progress htodo
  waits := by
    refine (Function.forall_update_iff s.done
      (p := fun p done => L.waits p = true → ∀ attempt ∈ done, attempt.1 = true)).mpr
      ⟨fun hwaits' => ?_, fun p' _ => h.waits p'⟩
    rw [hwaits] at hwaits'
    exact absurd hwaits' Bool.false_ne_true
  entered p' c' := by
    dsimp only
    by_cases hp : p' = p
    · subst hp
      rw [Function.update_self, kept_append, messagesFor_append, h.entered p' c']
      simp [kept, messagesFor]
    · rw [Function.update_of_ne hp]
      exact h.entered p' c'
  conserved := h.conserved
  queue := h.queue
  held := h.held
  batches := h.batches

lemma Inv.collect (h : Inv L todo s) {c : κ} {m : μ} {rest : List μ}
    (hqueue : s.queue c = m :: rest) (hheld : (s.held c).length < L.drain c) :
    Inv L todo
      { s with
        queue := Function.update s.queue c rest
        held := Function.update s.held c (s.held c ++ [m]) } where
  progress := h.progress
  waits := h.waits
  entered := h.entered
  conserved c' := by
    have hold := h.conserved c'
    show writtenOf s c' ++ _ = _
    dsimp only
    by_cases hc : c' = c
    · subst hc
      rw [Function.update_self, Function.update_self, ← hold, hqueue]
      simp
    · rw [Function.update_of_ne hc, Function.update_of_ne hc, hold]
  queue := by
    refine (Function.forall_update_iff s.queue
      (p := fun _ queue => queue.length ≤ L.capacity)).mpr ⟨?_, fun c' _ => h.queue c'⟩
    have hle := h.queue c
    rw [hqueue, List.length_cons] at hle
    exact (Nat.le_succ _).trans hle
  held := by
    refine (Function.forall_update_iff s.held
      (p := fun c held => held.length ≤ L.drain c)).mpr ⟨?_, fun c' _ => h.held c'⟩
    rw [List.length_append, List.length_singleton]
    exact hheld
  batches := h.batches

lemma Inv.write (h : Inv L todo s) {c : κ} (hheld : s.held c ≠ []) :
    Inv L todo
      { s with
        held := Function.update s.held c []
        written := s.written ++ [(c, s.held c)] } where
  progress := h.progress
  waits := h.waits
  entered := h.entered
  conserved c' := by
    have hold := h.conserved c'
    show (messagesFor c' (s.written ++ [(c, s.held c)])).flatten ++ _ = _
    dsimp only
    rw [messagesFor_append, List.flatten_append]
    by_cases hc : c' = c
    · subst hc
      rw [Function.update_self, ← hold, writtenOf]
      simp [messagesFor]
    · rw [Function.update_of_ne hc, ← hold, writtenOf]
      simp [messagesFor, Ne.symm hc]
  queue := h.queue
  held := by
    refine (Function.forall_update_iff s.held
      (p := fun c held => held.length ≤ L.drain c)).mpr ⟨?_, fun c' _ => h.held c'⟩
    exact Nat.zero_le _
  batches batch hin := by
    rcases List.mem_append.mp hin with hin | hin
    · exact h.batches batch hin
    · rw [List.mem_singleton.mp hin]
      exact ⟨hheld, h.held c⟩

lemma Inv.step (h : Inv L todo s) (hstep : Step L s s') : Inv L todo s' := by
  cases hstep with
  | send htodo hroom => exact h.send htodo hroom
  | drop htodo hwaits _ => exact h.drop htodo hwaits
  | collect hqueue hheld => exact h.collect hqueue hheld
  | write hheld _ => exact h.write hheld

/-- **In every interleaving** nothing is lost, doubled or reordered on the way. -/
lemma Runs.inv (h : Runs L (Channels.start todo) s) : Inv L todo s := by
  induction h with
  | refl => exact Inv.start todo
  | tail _ hlast ih => exact ih.step hlast

/-! ## The end -/

/-- Everything has been sent or dropped, and everything sent has been written. -/
structure Stopped (s : Channels P κ μ) : Prop where
  todo : ∀ p, s.todo p = []
  queue : ∀ c, s.queue c = []
  held : ∀ c, s.held c = []

/-- **No deadlock.**  While something is on the way there is a step. -/
lemma Stopped.of_no_step (h : Inv L todo s) (hno : ∀ s', ¬Step L s s') : Stopped s := by
  have hheld : ∀ c, s.queue c ≠ [] ∨ s.held c ≠ [] → False := by
    intro c hsome
    rcases hq : s.queue c with _ | ⟨m, rest⟩
    · exact hno _ (.write (hsome.resolve_left (fun hne => hne hq)) (Or.inl hq))
    · rcases Nat.lt_or_ge (s.held c).length (L.drain c) with hlt | hge
      · exact hno _ (.collect hq hlt)
      · have hfull := le_antisymm (h.held c) hge
        refine hno _ (.write (fun hnil => ?_) (Or.inr hfull))
        rw [hnil] at hge
        exact absurd (L.drain_pos c) (Nat.not_lt_of_le hge)
  have hqueue : ∀ c, s.queue c = [] := fun c => by_contra (fun hne => hheld c (Or.inl hne))
  refine ⟨fun p => ?_, hqueue, fun c => by_contra (fun hne => hheld c (Or.inr hne))⟩
  rcases htodo : s.todo p with _ | ⟨⟨c, m⟩, rest⟩
  · rfl
  · refine absurd (.send htodo ?_) (hno _)
    rw [hqueue c]
    exact L.capacity_pos

/-- What is left to do: each message takes three steps at most. -/
def work [Fintype P] [Fintype κ] (s : Channels P κ μ) : ℕ :=
  ∑ p, 3 * (s.todo p).length + ∑ c, 2 * (s.queue c).length + ∑ c, (s.held c).length

omit [DecidableEq P] [DecidableEq κ] in
lemma sum_update {ι α : Type*} [Fintype ι] [DecidableEq ι] (f : ι → α) (size : α → ℕ) (i : ι)
    (v : α) : ∑ j, size (Function.update f i v j) + size (f i) = ∑ j, size (f j) + size v := by
  have hothers : ∑ j ∈ Finset.univ.erase i, size (Function.update f i v j) =
      ∑ j ∈ Finset.univ.erase i, size (f j) := by
    refine Finset.sum_congr rfl (fun j hj => ?_)
    rw [Function.update_of_ne (Finset.ne_of_mem_erase hj)]
  rw [← Finset.add_sum_erase _ _ (Finset.mem_univ i), hothers, Function.update_self,
    ← Finset.add_sum_erase _ (fun j => size (f j)) (Finset.mem_univ i)]
  omega

lemma work_step [Fintype P] [Fintype κ] (h : Step L s s') : s'.work < s.work := by
  cases h with
  | @send p c m rest htodo hroom =>
      have htodos := sum_update s.todo (3 * List.length ·) p rest
      have hqueues := sum_update s.queue (2 * List.length ·) c (s.queue c ++ [m])
      simp only [htodo, List.length_append, List.length_cons, List.length_nil] at htodos hqueues
      simp only [work]
      omega
  | @drop p c m rest htodo hwaits hfull =>
      have htodos := sum_update s.todo (3 * List.length ·) p rest
      simp only [htodo, List.length_cons] at htodos
      simp only [work]
      omega
  | @collect c m rest hqueue hheld =>
      have hqueues := sum_update s.queue (2 * List.length ·) c rest
      have hhelds := sum_update s.held List.length c (s.held c ++ [m])
      simp only [hqueue, List.length_append, List.length_cons, List.length_nil] at hqueues hhelds
      simp only [work]
      omega
  | @write c hheld hstop =>
      have hhelds := sum_update s.held List.length c []
      have hpos := List.length_pos_iff.mpr hheld
      simp only [List.length_nil] at hhelds
      simp only [work]
      omega

/-- Every system can run until it stops. -/
lemma exists_stopped [Fintype P] [Fintype κ] (h : Inv L todo s) :
    ∃ s', Runs L s s' ∧ Stopped s' := by
  induction hn : s.work using Nat.strong_induction_on generalizing s with
  | _ n ih =>
    by_cases hstep : ∃ s', Step L s s'
    · obtain ⟨s', hs'⟩ := hstep
      obtain ⟨t, hruns, hstopped⟩ := ih _ (hn ▸ work_step hs') (h.step hs') rfl
      exact ⟨t, Relation.ReflTransGen.head hs' hruns, hstopped⟩
    · exact ⟨s, .refl, .of_no_step h (fun s' hs' => hstep ⟨s', hs'⟩)⟩

/-- What a channel has written at any moment has got into it first. -/
lemma Inv.writtenOf_prefix (h : Inv L todo s) (c : κ) :
    s.writtenOf c <+: (s.entered c).map Prod.snd := ⟨_, h.conserved c⟩

lemma Inv.writtenOf_of_stopped (h : Inv L todo s) (hstopped : Stopped s) (c : κ) :
    s.writtenOf c = (s.entered c).map Prod.snd := by
  have hconserved := h.conserved c
  rwa [hstopped.held c, hstopped.queue c, List.append_nil, List.append_nil] at hconserved

omit [DecidableEq P] [DecidableEq κ] in
lemma kept_sublist (done : List (Bool × κ × μ)) : (kept done).Sublist (done.map Prod.snd) := by
  induction done with
  | nil => exact .slnil
  | cons attempt done ih =>
      obtain ⟨ok, x⟩ := attempt
      cases ok with
      | false => exact ih.cons x
      | true => exact ih.cons_cons x

omit [DecidableEq P] [DecidableEq κ] in
lemma kept_of_all {done : List (Bool × κ × μ)} (h : ∀ attempt ∈ done, attempt.1 = true) :
    kept done = done.map Prod.snd := by
  induction done with
  | nil => rfl
  | cons attempt done ih =>
      obtain ⟨ok, x⟩ := attempt
      rw [List.forall_mem_cons] at h
      obtain rfl : ok = true := h.1
      exact congrArg (x :: ·) (ih h.2)

/-- Of any producer's messages some have got into a channel, in order. -/
lemma Inv.messagesFrom_sublist (h : Inv L todo s) (p : P) (c : κ) :
    (messagesFrom p (s.entered c)).Sublist (messagesFor c (todo p)) := by
  rw [h.entered, ← h.progress p, messagesFor_append]
  exact ((kept_sublist _).filterMap _).trans (List.sublist_append_left _ _)

/-- Of a producer that waits, the first ones. -/
lemma Inv.messagesFrom_prefix (h : Inv L todo s) {p : P} (hwaits : L.waits p = true) (c : κ) :
    messagesFrom p (s.entered c) <+: messagesFor c (todo p) := by
  rw [h.entered, kept_of_all (h.waits p hwaits), ← h.progress p, messagesFor_append]
  exact List.prefix_append _ _

/-- And all of them in the end. -/
lemma Inv.messagesFrom_of_stopped (h : Inv L todo s) (hstopped : Stopped s) {p : P}
    (hwaits : L.waits p = true) (c : κ) :
    messagesFrom p (s.entered c) = messagesFor c (todo p) := by
  rw [h.entered, kept_of_all (h.waits p hwaits), ← h.progress p, hstopped.todo p, List.append_nil]

/-- What has been written of a channel somebody has sent there. -/
lemma Inv.exists_of_mem_written (h : Inv L todo s) {c : κ} {ms : List μ} (hin : (c, ms) ∈ s.written)
    {m : μ} (hm : m ∈ ms) : ∃ p, (c, m) ∈ todo p := by
  have hwritten : m ∈ s.writtenOf c := by
    refine List.mem_flatten.mpr ⟨ms, List.mem_filterMap.mpr ⟨_, hin, if_pos rfl⟩, hm⟩
  obtain ⟨⟨p, m'⟩, hentered, rfl⟩ := List.mem_map.mp ((h.writtenOf_prefix c).subset hwritten)
  have hfrom : m' ∈ messagesFrom p (s.entered c) :=
    List.mem_filterMap.mpr ⟨_, hentered, if_pos rfl⟩
  obtain ⟨⟨c', m''⟩, hsend, hfor⟩ :=
    List.mem_filterMap.mp ((h.messagesFrom_sublist p c).subset hfrom)
  split at hfor
  · rename_i hc
    obtain rfl := Option.some.inj hfor
    obtain rfl : c' = c := hc
    exact ⟨p, hsend⟩
  · exact absurd hfor (by simp)

end Steps

end Channels

end ExchangeCore

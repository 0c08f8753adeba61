import ExchangeCore.Book.OrderBook
import Mathlib.Algebra.BigOperators.Group.List.Basic

/-!
# The reference price-time matcher

What matching is for, on plain lists: the opposite side is one list of resting orders, best
price first and oldest first within a price, and a taker walks it from the front.  `walk` says
which makers are visited and for how much (`fills`), which of them are used up (`consumed`),
what is left of the list (`rest`) and what is left of the taker (`residual`).

Nothing here mentions price maps, queues or the book's bookkeeping; `Book/Matching.lean` shows
that the book's two nested loops compute exactly this walk.
-/

namespace ExchangeCore

namespace Reference

open OrderBook (Crosses)

/-- The result of walking a taker along the opposite side. -/
structure Outcome where
  /-- The makers visited, in order, each with the quantity traded. -/
  fills : List (Order × UInt64)
  /-- The makers used up completely. -/
  consumed : List Order
  /-- What is left of the opposite side. -/
  rest : List Order
  /-- What is left of the taker. -/
  residual : UInt64
  deriving DecidableEq

/-- A walk that used up a whole list, continued on what follows it. -/
def Outcome.andThen (o₁ o₂ : Outcome) : Outcome where
  fills := o₁.fills ++ o₂.fills
  consumed := o₁.consumed ++ o₂.consumed
  rest := o₂.rest
  residual := o₂.residual

/-- Walk along the makers while the taker has quantity left and the maker's price crosses the
taker's limit. -/
def walk (side : Side) (limit : UInt64) : UInt64 → List Order → Outcome
  | remaining, [] => ⟨[], [], [], remaining⟩
  | remaining, m :: ms =>
      if 0 < remaining ∧ Crosses side limit m.price then
        let q := min remaining m.quantity
        if q < m.quantity then
          ⟨[(m, q)], [], { m with quantity := m.quantity - q } :: ms, remaining - q⟩
        else
          let o := walk side limit (remaining - q) ms
          ⟨(m, q) :: o.fills, m :: o.consumed, o.rest, o.residual⟩
      else ⟨[], [], m :: ms, remaining⟩

/-- The order of the two that buys. -/
def buyer (taker maker : Order) : Order := if taker.side = .buy then taker else maker

/-- The order of the two that sells. -/
def seller (taker maker : Order) : Order := if taker.side = .buy then maker else taker

lemma buyer_of_buy {taker : Order} (h : taker.side = .buy) (maker : Order) :
    buyer taker maker = taker := if_pos h

lemma seller_of_buy {taker : Order} (h : taker.side = .buy) (maker : Order) :
    seller taker maker = maker := if_pos h

lemma buyer_of_sell {taker : Order} (h : taker.side = .sell) (maker : Order) :
    buyer taker maker = maker := if_neg (by rw [h]; decide)

lemma seller_of_sell {taker : Order} (h : taker.side = .sell) (maker : Order) :
    seller taker maker = taker := if_neg (by rw [h]; decide)

/-- The ids the generator hands out for `n` trades at one timestamp, with the generator left
behind. -/
def tradeIds (timestamp : UInt64) : ℕ → FastUlidHalfGen → List UInt64 × FastUlidHalfGen
  | 0, g => ([], g)
  | n + 1, g =>
      let first := g.generateFromTs timestamp
      let later := tradeIds timestamp n first.2
      (first.1 :: later.1, later.2)

/-- The trades of a walk: one per fill, at the maker's price, numbered consecutively after
`seq`. -/
def trades (taker : Order) (timestamp : UInt64) :
    FastUlidHalfGen → UInt64 → List (Order × UInt64) → List Trade
  | _, _, [] => []
  | g, seq, (m, q) :: fs =>
      { tradeId := (g.generateFromTs timestamp).1
        buyOrderId := (buyer taker m).orderId
        sellOrderId := (seller taker m).orderId
        buyUserId := (buyer taker m).userId
        sellUserId := (seller taker m).userId
        price := m.price
        quantity := q
        matchSeq := seq + 1 } ::
      trades taker timestamp (g.generateFromTs timestamp).2 (seq + 1) fs

/-! ## Numbering and ids -/

lemma seq_succ (seq : UInt64) (n : ℕ) :
    seq + 1 + UInt64.ofNat n = seq + UInt64.ofNat (n + 1) := by
  rw [UInt64.ofNat_add, UInt64.add_assoc, UInt64.add_comm 1]
  rfl

lemma tradeIds_add (timestamp : UInt64) (n k : ℕ) (g : FastUlidHalfGen) :
    (tradeIds timestamp (n + k) g).2 =
      (tradeIds timestamp k (tradeIds timestamp n g).2).2 := by
  induction n generalizing g with
  | zero => simp [tradeIds]
  | succ n ih =>
      rw [Nat.succ_add]
      exact ih _

/-- The trades of two walks in a row. -/
lemma trades_append (taker : Order) (timestamp : UInt64) (fs gs : List (Order × UInt64))
    (g : FastUlidHalfGen) (seq : UInt64) :
    trades taker timestamp g seq (fs ++ gs) =
      trades taker timestamp g seq fs ++
        trades taker timestamp (tradeIds timestamp fs.length g).2
          (seq + UInt64.ofNat fs.length) gs := by
  induction fs generalizing g seq with
  | nil => simp [tradeIds, trades]
  | cons f fs ih =>
      simp only [List.cons_append, trades, ih, List.length_cons, tradeIds, seq_succ]

lemma trades_withQuantity (taker : Order) (r timestamp : UInt64) (g : FastUlidHalfGen)
    (seq : UInt64) (fs : List (Order × UInt64)) :
    trades { taker with quantity := r } timestamp g seq fs = trades taker timestamp g seq fs := by
  induction fs generalizing g seq with
  | nil => rfl
  | cons f fs ih =>
      obtain ⟨m, q⟩ := f
      simp only [trades, ih]
      cases h : taker.side <;> simp [buyer, seller, h]

/-- A trade of a walk carries the price of its maker, the quantity of its fill, and the users
of the two orders. -/
lemma mem_trades {taker : Order} {timestamp : UInt64} {g : FastUlidHalfGen} {seq : UInt64}
    {fs : List (Order × UInt64)} {t : Trade} (ht : t ∈ trades taker timestamp g seq fs) :
    ∃ f ∈ fs, t.price = f.1.price ∧ t.quantity = f.2 ∧
      t.buyUserId = (buyer taker f.1).userId ∧ t.sellUserId = (seller taker f.1).userId := by
  induction fs generalizing g seq with
  | nil => simp [trades] at ht
  | cons f fs ih =>
      obtain ⟨m, q⟩ := f
      rcases List.mem_cons.mp ht with rfl | ht
      · exact ⟨(m, q), List.mem_cons_self .., rfl, rfl, rfl, rfl⟩
      · obtain ⟨f, hf, hprops⟩ := ih ht
        exact ⟨f, List.mem_cons_of_mem _ hf, hprops⟩

/-- One trade per fill. -/
lemma length_trades (taker : Order) (timestamp : UInt64) (g : FastUlidHalfGen) (seq : UInt64)
    (fs : List (Order × UInt64)) : (trades taker timestamp g seq fs).length = fs.length := by
  induction fs generalizing g seq with
  | nil => rfl
  | cons f fs ih => rw [trades, List.length_cons, ih, List.length_cons]

/-- A sum over the trades of a walk of something that only looks at price, quantity and users
is a sum over its fills. -/
lemma sum_trades {M : Type*} [AddMonoid M] (taker : Order) (timestamp : UInt64)
    (perTrade : Trade → M) (perFill : Order × UInt64 → M) (fs : List (Order × UInt64))
    (h : ∀ f ∈ fs, ∀ t : Trade, t.price = f.1.price → t.quantity = f.2 →
      t.buyUserId = (buyer taker f.1).userId → t.sellUserId = (seller taker f.1).userId →
      perTrade t = perFill f)
    (g : FastUlidHalfGen) (seq : UInt64) :
    ((trades taker timestamp g seq fs).map perTrade).sum = (fs.map perFill).sum := by
  induction fs generalizing g seq with
  | nil => rfl
  | cons f fs ih =>
      obtain ⟨m, q⟩ := f
      rw [trades, List.map_cons, List.sum_cons, List.map_cons, List.sum_cons,
        ih (fun f hf => h f (List.mem_cons_of_mem _ hf)),
        h (m, q) (List.mem_cons_self ..) _ rfl rfl rfl rfl]

/-! ## What a walk leaves behind -/

variable {side : Side} {limit : UInt64}

lemma walk_cons_stop {remaining : UInt64} {m : Order} {ms : List Order}
    (h : ¬(0 < remaining ∧ Crosses side limit m.price)) :
    walk side limit remaining (m :: ms) = ⟨[], [], m :: ms, remaining⟩ := by
  rw [walk, if_neg h]

/-- Unfolding at a maker that is only partly filled. -/
lemma walk_cons_split {remaining : UInt64} {m : Order} {ms : List Order}
    (h : 0 < remaining ∧ Crosses side limit m.price) (hq : remaining < m.quantity) :
    walk side limit remaining (m :: ms) =
      ⟨[(m, remaining)], [], { m with quantity := m.quantity - remaining } :: ms, 0⟩ := by
  have hmin : min remaining m.quantity = remaining := min_eq_left hq.le
  rw [walk, if_pos h]
  simp only [hmin, if_pos hq, UInt64.sub_self]

/-- Unfolding at a maker that is used up. -/
lemma walk_cons_full {remaining : UInt64} {m : Order} {ms : List Order}
    (h : 0 < remaining ∧ Crosses side limit m.price) (hq : m.quantity ≤ remaining) :
    walk side limit remaining (m :: ms) =
      ⟨(m, m.quantity) :: (walk side limit (remaining - m.quantity) ms).fills,
        m :: (walk side limit (remaining - m.quantity) ms).consumed,
        (walk side limit (remaining - m.quantity) ms).rest,
        (walk side limit (remaining - m.quantity) ms).residual⟩ := by
  have hmin : min remaining m.quantity = m.quantity := min_eq_right hq
  rw [walk, if_pos h]
  simp only [hmin, lt_irrefl, if_false]

/-- Case analysis along a walk: the list is empty, the walk stops at the head, the head is
partly filled, or the head is used up and the walk goes on. -/
lemma walk_induction (side : Side) (limit : UInt64) {motive : UInt64 → List Order → Prop}
    (nil : ∀ r, motive r [])
    (stop : ∀ r m ms, ¬(0 < r ∧ Crosses side limit m.price) → motive r (m :: ms))
    (part : ∀ r m ms, 0 < r ∧ Crosses side limit m.price → r < m.quantity →
      motive r (m :: ms))
    (full : ∀ r m ms, 0 < r ∧ Crosses side limit m.price → m.quantity ≤ r →
      motive (r - m.quantity) ms → motive r (m :: ms))
    (r : UInt64) (ms : List Order) : motive r ms := by
  induction ms generalizing r with
  | nil => exact nil r
  | cons m ms ih =>
      by_cases h : 0 < r ∧ Crosses side limit m.price
      · rcases lt_or_ge r m.quantity with hq | hq
        · exact part r m ms h hq
        · exact full r m ms h hq (ih _)
      · exact stop r m ms h

/-- The opposite side afterwards is a suffix of the old one, whose head may have a reduced
quantity. -/
lemma walk_rest_suffix (side : Side) (limit r : UInt64) (ms : List Order) :
    ∃ suffix, ms = (walk side limit r ms).consumed ++ suffix ∧
      ((walk side limit r ms).rest = suffix ∨
        ∃ m tail q, suffix = m :: tail ∧ 0 < q ∧ q < m.quantity ∧
          (walk side limit r ms).rest = { m with quantity := m.quantity - q } :: tail) := by
  induction r, ms using walk_induction side limit with
  | nil r => exact ⟨[], rfl, Or.inl rfl⟩
  | stop r m ms h =>
      rw [walk_cons_stop h]
      exact ⟨m :: ms, rfl, Or.inl rfl⟩
  | part r m ms h hq =>
      rw [walk_cons_split h hq]
      exact ⟨m :: ms, rfl, Or.inr ⟨m, ms, r, rfl, h.1, hq, rfl⟩⟩
  | full r m ms h hq ih =>
      obtain ⟨suffix, hms, hrest⟩ := ih
      rw [walk_cons_full h hq]
      refine ⟨suffix, ?_, hrest⟩
      rw [List.cons_append, ← hms]

/-- Sum of the quantities of a list of fills. -/
def filled (fills : List (Order × UInt64)) : ℕ := (fills.map (fun f => f.2.toNat)).sum

@[simp] lemma filled_nil : filled [] = 0 := rfl

@[simp] lemma filled_cons (m : Order) (q : UInt64) (fs : List (Order × UInt64)) :
    filled ((m, q) :: fs) = q.toNat + filled fs := rfl

lemma filled_add_residual (side : Side) (limit r : UInt64) (ms : List Order) :
    filled (walk side limit r ms).fills + (walk side limit r ms).residual.toNat = r.toNat := by
  induction r, ms using walk_induction side limit with
  | nil r => simp [walk]
  | stop r m ms h => simp [walk_cons_stop h]
  | part r m ms h hq => simp [walk_cons_split h hq]
  | full r m ms h hq ih =>
      rw [UInt64.toNat_sub_of_le _ _ hq] at ih
      have hle := UInt64.le_iff_toNat_le.mp hq
      simp only [walk_cons_full h hq, filled_cons]
      omega

/-- A maker is filled at most once. -/
lemma length_fills_le (side : Side) (limit r : UInt64) (ms : List Order) :
    (walk side limit r ms).fills.length ≤ ms.length := by
  induction r, ms using walk_induction side limit with
  | nil r => simp [walk]
  | stop r m ms h => simp [walk_cons_stop h]
  | part r m ms h hq => simp [walk_cons_split h hq]
  | full r m ms h hq ih =>
      simp only [walk_cons_full h hq, List.length_cons]
      omega

/-- No fill is empty where no maker is. -/
lemma fills_pos {r : UInt64} {ms : List Order} (h : ∀ m ∈ ms, 0 < m.quantity) :
    ∀ f ∈ (walk side limit r ms).fills, 0 < f.2 := by
  induction r, ms using walk_induction side limit with
  | nil r => simp [walk]
  | stop r m ms hstop => simp [walk_cons_stop hstop]
  | part r m ms hgo hq =>
      rw [walk_cons_split hgo hq]
      intro f hf
      obtain rfl := List.mem_singleton.mp hf
      exact hgo.1
  | full r m ms hgo hq ih =>
      rw [walk_cons_full hgo hq]
      intro f hf
      rcases List.mem_cons.mp hf with rfl | hf
      · exact h m (List.mem_cons_self ..)
      · exact ih (fun m hm => h m (List.mem_cons_of_mem _ hm)) f hf

/-- Every fill is between the taker and a maker of the list, at a crossing price, and no
larger than the maker. -/
lemma mem_fills {r : UInt64} {ms : List Order} {f : Order × UInt64}
    (hf : f ∈ (walk side limit r ms).fills) :
    f.1 ∈ ms ∧ Crosses side limit f.1.price ∧ f.2 ≤ f.1.quantity ∧ f.2 ≤ r := by
  induction r, ms using walk_induction side limit with
  | nil r => simp [walk] at hf
  | stop r m ms h => simp [walk_cons_stop h] at hf
  | part r m ms h hq =>
      rw [walk_cons_split h hq, List.mem_singleton] at hf
      subst hf
      exact ⟨List.mem_cons_self .., h.2, hq.le, le_refl _⟩
  | full r m ms h hq ih =>
      rw [walk_cons_full h hq] at hf
      rcases List.mem_cons.mp hf with rfl | hf
      · exact ⟨List.mem_cons_self .., h.2, le_refl _, hq⟩
      · obtain ⟨hmem, hcross, hle, hr⟩ := ih hf
        refine ⟨List.mem_cons_of_mem _ hmem, hcross, hle, ?_⟩
        rw [UInt64.le_iff_toNat_le, UInt64.toNat_sub_of_le _ _ hq] at hr
        rw [UInt64.le_iff_toNat_le]
        omega

/-- If the taker is left with quantity, the walk stopped at a maker that does not cross. -/
lemma rest_head_of_residual {r : UInt64} {ms : List Order}
    (hr : 0 < (walk side limit r ms).residual) {m : Order} {tail : List Order}
    (hm : (walk side limit r ms).rest = m :: tail) : ¬Crosses side limit m.price := by
  induction r, ms using walk_induction side limit with
  | nil r => simp [walk] at hm
  | stop r m' ms h =>
      rw [walk_cons_stop h] at hr hm
      obtain ⟨rfl, -⟩ := List.cons.inj hm
      exact fun hc => h ⟨hr, hc⟩
  | part r m' ms h hq =>
      rw [walk_cons_split h hq] at hr
      exact absurd hr (lt_irrefl _)
  | full r m' ms h hq ih =>
      rw [walk_cons_full h hq] at hr hm
      exact ih hr hm

/-- How much a list of makers offers at or better than a limit. -/
def crossing (side : Side) (limit : UInt64) (ms : List Order) : ℕ :=
  ((ms.filter (fun m => Crosses side limit m.price)).map (fun m => m.quantity.toNat)).sum

lemma crossing_cons {m : Order} (h : Crosses side limit m.price) (ms : List Order) :
    crossing side limit (m :: ms) = m.quantity.toNat + crossing side limit ms := by
  rw [crossing, List.filter_cons_of_pos (by simpa using h)]
  rfl

/-- When the crossing makers come first, the residual is what they do not offer. -/
lemma residual_eq_sub {r : UInt64} {ms : List Order}
    (h : ms.Pairwise (fun a b => Crosses side limit b.price → Crosses side limit a.price)) :
    (walk side limit r ms).residual.toNat = r.toNat - crossing side limit ms := by
  induction r, ms using walk_induction side limit with
  | nil r => simp [walk, crossing]
  | stop r m ms hc =>
      rw [walk_cons_stop hc]
      by_cases hcross : Crosses side limit m.price
      · have hzero : ¬0 < r := fun hr => hc ⟨hr, hcross⟩
        rw [Word.pos_iff] at hzero
        simp only
        omega
      · -- nothing later crosses either
        have hnone : crossing side limit (m :: ms) = 0 := by
          have hfilter : (m :: ms).filter (fun m => Crosses side limit m.price) = [] := by
            rw [List.filter_eq_nil_iff]
            intro x hx
            rcases List.mem_cons.mp hx with rfl | hx
            · simpa using hcross
            · simpa using fun hx' => hcross ((List.pairwise_cons.mp h).1 x hx hx')
          rw [crossing, hfilter]
          rfl
        simp [hnone]
  | part r m ms hc hq =>
      have hlt := UInt64.lt_iff_toNat_lt.mp hq
      rw [walk_cons_split hc hq, crossing_cons hc.2]
      simp only [UInt64.toNat_zero]
      omega
  | full r m ms hc hq ih =>
      have ih := ih (List.pairwise_cons.mp h).2
      rw [UInt64.toNat_sub_of_le _ _ hq] at ih
      rw [walk_cons_full hc hq, crossing_cons hc.2]
      simp only
      omega

/-- When the crossing makers come first and none is empty, a maker is used up exactly if it
crosses and the taker has enough for it and for every maker before it. -/
lemma mem_consumed_iff {r : UInt64} {ms : List Order}
    (h : ms.Pairwise (fun a b => Crosses side limit b.price → Crosses side limit a.price))
    (hpos : ∀ m ∈ ms, 0 < m.quantity) {x : Order} :
    x ∈ (walk side limit r ms).consumed ↔
      ∃ before after, ms = before ++ x :: after ∧ Crosses side limit x.price ∧
        (before.map (fun m => m.quantity.toNat)).sum + x.quantity.toNat ≤ r.toNat := by
  induction r, ms using walk_induction side limit with
  | nil r => simp [walk]
  | stop r m ms hstop =>
      rw [walk_cons_stop hstop]
      refine iff_of_false (by simp) ?_
      rintro ⟨before, after, heq, hcross, hle⟩
      have hx : x ∈ m :: ms := heq ▸ List.mem_append_right _ (List.mem_cons_self ..)
      have hxpos := (Word.pos_iff _).mp (hpos x hx)
      -- the head crosses if `x` does, so it is the quantity that is missing
      refine hstop ⟨(Word.pos_iff _).mpr (by omega), ?_⟩
      rcases List.mem_cons.mp hx with rfl | hx
      · exact hcross
      · exact (List.pairwise_cons.mp h).1 x hx hcross
  | part r m ms hc hq =>
      rw [walk_cons_split hc hq]
      refine iff_of_false (by simp) ?_
      rintro ⟨before, after, heq, -, hle⟩
      have hlt := UInt64.lt_iff_toNat_lt.mp hq
      cases before with
      | nil =>
          obtain ⟨rfl, -⟩ := List.cons.inj heq
          rw [List.map_nil, List.sum_nil] at hle
          omega
      | cons m' before =>
          obtain ⟨rfl, -⟩ := List.cons.inj heq
          rw [List.map_cons, List.sum_cons] at hle
          omega
  | full r m ms hc hq ih =>
      have hle := UInt64.le_iff_toNat_le.mp hq
      have ih := ih (List.pairwise_cons.mp h).2 (fun m' hm' => hpos m' (List.mem_cons_of_mem _ hm'))
      rw [UInt64.toNat_sub_of_le _ _ hq] at ih
      rw [walk_cons_full hc hq, List.mem_cons, ih]
      constructor
      · rintro (rfl | ⟨before, after, rfl, hcross, hsum⟩)
        · exact ⟨[], ms, rfl, hc.2, by simpa using hle⟩
        · refine ⟨m :: before, after, rfl, hcross, ?_⟩
          rw [List.map_cons, List.sum_cons]
          omega
      · rintro ⟨before, after, heq, hcross, hsum⟩
        cases before with
        | nil => exact Or.inl (List.cons.inj heq).1.symm
        | cons m' before =>
            obtain ⟨rfl, rfl⟩ := List.cons.inj heq
            rw [List.map_cons, List.sum_cons] at hsum
            exact Or.inr ⟨before, after, rfl, hcross, by omega⟩

/-- Makers keep a positive quantity. -/
lemma rest_pos {r : UInt64} {ms : List Order} (h : ∀ m ∈ ms, 0 < m.quantity) :
    ∀ m ∈ (walk side limit r ms).rest, 0 < m.quantity := by
  obtain ⟨suffix, hms, hrest⟩ := walk_rest_suffix side limit r ms
  have hsuf : ∀ m ∈ suffix, 0 < m.quantity := fun m hm =>
    h m (hms ▸ List.mem_append_right _ hm)
  rcases hrest with heq | ⟨m, tail, q, rfl, hq, hlt, heq⟩
  · rwa [heq]
  · rw [heq]
    intro x hx
    rcases List.mem_cons.mp hx with rfl | hx
    · rw [UInt64.lt_iff_toNat_lt] at hlt
      rw [Word.pos_iff, UInt64.toNat_sub_of_le _ _ (UInt64.le_iff_toNat_le.mpr hlt.le)]
      omega
    · exact hsuf x (List.mem_cons_of_mem _ hx)

lemma walk_append_nil {r : UInt64} {ms : List Order} (h : (walk side limit r ms).rest = [])
    (ns : List Order) :
    walk side limit r (ms ++ ns) =
      (walk side limit r ms).andThen (walk side limit (walk side limit r ms).residual ns) := by
  induction r, ms using walk_induction side limit with
  | nil r => rfl
  | stop r m ms hc => simp [walk_cons_stop hc] at h
  | part r m ms hc hq => simp [walk_cons_split hc hq] at h
  | full r m ms hc hq ih =>
      simp only [walk_cons_full hc hq] at h
      simp only [List.cons_append, walk_cons_full hc hq, ih h, Outcome.andThen]

/-- A walk that stops inside a list does not see what follows. -/
lemma walk_append_ne {r : UInt64} {ms : List Order} (h : (walk side limit r ms).rest ≠ [])
    (ns : List Order) :
    walk side limit r (ms ++ ns) =
      { walk side limit r ms with rest := (walk side limit r ms).rest ++ ns } := by
  induction r, ms using walk_induction side limit with
  | nil r => exact absurd rfl h
  | stop r m ms hc => rw [List.cons_append, walk_cons_stop hc, walk_cons_stop hc]; rfl
  | part r m ms hc hq =>
      rw [List.cons_append, walk_cons_split hc hq, walk_cons_split hc hq]
      rfl
  | full r m ms hc hq ih =>
      simp only [walk_cons_full hc hq] at h
      simp only [List.cons_append, walk_cons_full hc hq, ih h]

/-- Anything that does not depend on a maker's quantity survives on the rest. -/
lemma map_rest_suffix {α : Type*} (f : Order → α) (hf : ∀ m q, f { m with quantity := q } = f m)
    (side : Side) (limit r : UInt64) (ms : List Order) :
    ms.map f = (walk side limit r ms).consumed.map f ++ (walk side limit r ms).rest.map f := by
  obtain ⟨suffix, hms, hrest⟩ := walk_rest_suffix side limit r ms
  conv_lhs => rw [hms]
  rw [List.map_append]
  rcases hrest with heq | ⟨m, tail, q, rfl, -, -, heq⟩
  · rw [heq]
  · rw [heq, List.map_cons, List.map_cons, hf m (m.quantity - q)]

lemma mem_rest {side : Side} {limit r : UInt64} {ms : List Order} {x : Order}
    (hx : x ∈ (walk side limit r ms).rest) :
    ∃ m ∈ ms, x = { m with quantity := x.quantity } ∧ x.quantity ≤ m.quantity := by
  obtain ⟨suffix, hms, hrest⟩ := walk_rest_suffix side limit r ms
  have hold : ∀ y ∈ suffix, y ∈ ms := fun y hy => hms ▸ List.mem_append_right _ hy
  rcases hrest with heq | ⟨m, tail, q, rfl, -, hq, heq⟩
  · rw [heq] at hx
    exact ⟨x, hold x hx, rfl, le_refl _⟩
  · rw [heq] at hx
    rcases List.mem_cons.mp hx with rfl | hx
    · refine ⟨m, hold m (List.mem_cons_self ..), rfl, ?_⟩
      rw [UInt64.le_iff_toNat_le, UInt64.toNat_sub_of_le _ _ hq.le]
      exact Nat.sub_le _ _
    · exact ⟨x, hold x (List.mem_cons_of_mem _ hx), rfl, le_refl _⟩

/-- A weight that is additive in the quantity splits into what the fills took and what the rest
keeps. -/
lemma sum_weight (w : Order → ℕ → ℕ) (hw : ∀ m a b, w m (a + b) = w m a + w m b)
    (hcongr : ∀ m q n, w { m with quantity := q } n = w m n)
    (side : Side) (limit r : UInt64) (ms : List Order) :
    (ms.map (fun m => w m m.quantity.toNat)).sum =
      ((walk side limit r ms).fills.map (fun f => w f.1 f.2.toNat)).sum +
        ((walk side limit r ms).rest.map (fun m => w m m.quantity.toNat)).sum := by
  induction r, ms using walk_induction side limit with
  | nil r => simp [walk]
  | stop r m ms h => simp [walk_cons_stop h]
  | part r m ms h hq =>
      have hle := UInt64.le_iff_toNat_le.mp hq.le
      have hsplit : w m m.quantity.toNat = w m r.toNat + w m (m.quantity - r).toNat := by
        rw [UInt64.toNat_sub_of_le _ _ hq.le, ← hw]
        congr 1
        omega
      simp only [walk_cons_split h hq, List.map_cons, List.map_nil, List.sum_cons,
        List.sum_nil, hcongr]
      omega
  | full r m ms h hq ih =>
      simp only [walk_cons_full h hq, List.map_cons, List.sum_cons, ih]
      omega

end Reference

end ExchangeCore

import ExchangeCore.Book.Reference

/-!
# The matching loop computes the reference walk

`matchQueue` and `matchLoop` work on a price map, level by level, and carry the book's
bookkeeping along.  `matchLoop_eq_walk` says what they amount to: on a map whose levels are
well placed, the opposite side read best price first becomes the `rest` of the reference walk,
and everything else the loop updates is `MatchState.after`, a function of the walk alone.

The induction is on the number of levels.  Each iteration either uses the best level up, and
the walk over the whole side splits there (`walk_append_nil`), or leaves something of it, and
then the taker is exhausted and the loop stops (`residual_eq_zero`).
-/

namespace ExchangeCore

open Reference

namespace OrderBook

/-! ## A side read best price first -/

/-- The levels of an opposite map in the order a taker of this side meets them. -/
def levels (taker : Side) (m : PriceMap) : List (UInt64 × List Order) :=
  match taker with
  | .buy => m.entries
  | .sell => m.entries.reverse

/-- The resting orders of an opposite map, best price first and oldest first within a price. -/
def flat (taker : Side) (m : PriceMap) : List Order := (levels taker m).flatMap Prod.snd

/-- The resting orders of one side of the book, best price first. -/
def flatSide (b : OrderBook) (s : Side) : List Order := flat s.opposite (b.sideMap s)

/-- A level that may stand on a side: not empty, and every order on it is of that side, at the
level's price and with something left to trade. -/
structure LevelOk (s : Side) (e : UInt64 × List Order) : Prop where
  nonempty : e.2 ≠ []
  placed : ∀ o ∈ e.2, o.side = s ∧ o.price = e.1 ∧ 0 < o.quantity

/-- Every level of the map may stand on the side. -/
def SideOk (s : Side) (m : PriceMap) : Prop := ∀ e ∈ m.entries, LevelOk s e

@[simp] lemma mem_levels (taker : Side) {m : PriceMap} {e : UInt64 × List Order} :
    e ∈ levels taker m ↔ e ∈ m.entries := by
  cases taker <;> simp [levels]

@[simp] lemma length_levels (taker : Side) (m : PriceMap) :
    (levels taker m).length = m.entries.length := by
  cases taker <;> simp [levels]

lemma mem_flat {taker : Side} {m : PriceMap} {o : Order} :
    o ∈ flat taker m ↔ ∃ e ∈ m.entries, o ∈ e.2 := by
  simp [flat, List.mem_flatMap]

lemma bestEntry_eq (taker : Side) (m : PriceMap) : bestEntry taker m = (levels taker m).head? := by
  cases taker
  · rfl
  · exact (List.head?_reverse).symm

lemma levels_distinct (taker : Side) (m : PriceMap) :
    (levels taker m).Pairwise (fun a b => a.1 ≠ b.1) := by
  cases taker
  · exact m.distinct
  · exact m.distinct_reverse

lemma levels_erase {taker : Side} {m : PriceMap} {p : UInt64} {q : List Order}
    {ls : List (UInt64 × List Order)} (h : levels taker m = (p, q) :: ls) :
    levels taker (m.erase p) = ls := by
  have hd := levels_distinct taker m
  rw [h] at hd
  have hfilter := SortedMap.filter_ne_head hd
  rw [← h] at hfilter
  cases taker
  · exact hfilter
  · rwa [levels, SortedMap.entries_erase, ← List.filter_reverse]

lemma levels_replace {taker : Side} {m : PriceMap} {p : UInt64} {q : List Order}
    {ls : List (UInt64 × List Order)} (h : levels taker m = (p, q) :: ls) (q' : List Order) :
    levels taker (m.replace p q') = (p, q') :: ls := by
  have hd := levels_distinct taker m
  rw [h] at hd
  have hmap := SortedMap.map_setAt_head hd (w := q')
  rw [← h] at hmap
  cases taker
  · exact hmap
  · rwa [levels, SortedMap.entries_replace, ← List.map_reverse]

lemma get?_of_levels {taker : Side} {m : PriceMap} {p : UInt64} {q : List Order}
    {ls : List (UInt64 × List Order)} (h : levels taker m = (p, q) :: ls) :
    m.get? p = some q := by
  rw [SortedMap.get?_eq_some_iff, ← mem_levels taker, h]
  exact List.mem_cons_self ..

/-! ## The bookkeeping of a walk -/

/-- What the loop's bookkeeping is after a walk: the taker reduced to the residual, the trades
appended, the counter and the id generator advanced once per fill, and the makers used up
forgotten. -/
def MatchState.after (st : MatchState) (timestamp : UInt64) (o : Outcome) : MatchState where
  order := { st.order with quantity := o.residual }
  tradeIdGen := (tradeIds timestamp o.fills.length st.tradeIdGen).2
  activeOrderIds := st.activeOrderIds \ (o.consumed.map Order.orderId).toFinset
  orderIndex := o.consumed.foldl (fun index m => index.erase m.orderId) st.orderIndex
  matchSeq := st.matchSeq + UInt64.ofNat o.fills.length
  trades := st.trades ++ Reference.trades st.order timestamp st.tradeIdGen st.matchSeq o.fills

lemma mkTrade_eq (taker maker : Order) (seq tradeId q : UInt64) :
    mkTrade taker maker seq tradeId q =
      { tradeId := tradeId
        buyOrderId := (buyer taker maker).orderId
        sellOrderId := (seller taker maker).orderId
        buyUserId := (buyer taker maker).userId
        sellUserId := (seller taker maker).userId
        price := maker.price
        quantity := q
        matchSeq := seq } := by
  cases h : taker.side <;> simp [mkTrade, buyer, seller, h]

/-- A walk that visits nobody changes nothing. -/
lemma MatchState.after_nil (st : MatchState) (timestamp : UInt64) (ms : List Order) :
    st.after timestamp ⟨[], [], ms, st.order.quantity⟩ = st := by
  simp [MatchState.after, tradeIds, Reference.trades]

/-- One fill, then the rest of the walk. -/
lemma MatchState.after_cons (st : MatchState) (timestamp : UInt64) (m : Order) (q : UInt64)
    (fs : List (Order × UInt64)) (cs : List Order) (rest : List Order) (r : UInt64) :
    ((st.fill timestamp m q).retire m.orderId).after timestamp ⟨fs, cs, rest, r⟩ =
      st.after timestamp ⟨(m, q) :: fs, m :: cs, rest, r⟩ := by
  have hset : st.activeOrderIds.erase m.orderId \ (cs.map Order.orderId).toFinset =
      st.activeOrderIds \ ((m :: cs).map Order.orderId).toFinset := by
    ext x
    simp only [List.map_cons, List.toFinset_cons, Finset.mem_sdiff, Finset.mem_erase,
      Finset.mem_insert]
    tauto
  simp only [MatchState.after, MatchState.fill, MatchState.retire, hset, seq_succ,
    trades_withQuantity, mkTrade_eq, List.length_cons, List.foldl_cons, tradeIds, Reference.trades,
    List.append_assoc, List.singleton_append]

/-- A single fill that leaves the maker standing. -/
lemma MatchState.fill_eq_after (st : MatchState) (timestamp : UInt64) (m : Order) (q : UInt64)
    (rest : List Order) :
    st.fill timestamp m q =
      st.after timestamp ⟨[(m, q)], [], rest, st.order.quantity - q⟩ := by
  simp [MatchState.after, MatchState.fill, mkTrade_eq, tradeIds, Reference.trades]

/-- The bookkeeping of two walks in a row. -/
lemma MatchState.after_andThen (st : MatchState) (timestamp : UInt64) (o₁ o₂ : Outcome) :
    st.after timestamp (o₁.andThen o₂) = (st.after timestamp o₁).after timestamp o₂ := by
  have hset : st.activeOrderIds \ ((o₁.consumed ++ o₂.consumed).map Order.orderId).toFinset =
      (st.activeOrderIds \ (o₁.consumed.map Order.orderId).toFinset) \
        (o₂.consumed.map Order.orderId).toFinset := by
    rw [List.map_append, List.toFinset_append, sdiff_sdiff_left]
    rfl
  simp only [MatchState.after, Outcome.andThen, hset, tradeIds_add, trades_append,
    trades_withQuantity, List.length_append, List.foldl_append, List.append_assoc,
    UInt64.ofNat_add, UInt64.add_assoc]

/-! ## The inner loop -/

section Loop

variable {s : Side} {timestamp : UInt64}

/-- The taker's side and limit are fixed along the loop. -/
lemma MatchState.after_order_side (st : MatchState) (timestamp : UInt64) (o : Outcome) :
    (st.after timestamp o).order.side = st.order.side := rfl

/-- On a level that crosses, the inner loop is the reference walk over its queue. -/
lemma matchQueue_eq_walk (queue : List Order) (st : MatchState)
    (hpos : 0 < st.order.quantity)
    (hcross : ∀ m ∈ queue, Crosses st.order.side st.order.price m.price) :
    matchQueue timestamp queue st =
      ((walk st.order.side st.order.price st.order.quantity queue).rest,
        st.after timestamp (walk st.order.side st.order.price st.order.quantity queue)) := by
  induction queue generalizing st with
  | nil => rw [walk, MatchState.after_nil]; rfl
  | cons m ms ih =>
      have hm : 0 < st.order.quantity ∧ Crosses st.order.side st.order.price m.price :=
        ⟨hpos, hcross m (List.mem_cons_self ..)⟩
      rw [matchQueue]
      rcases lt_or_ge st.order.quantity m.quantity with hq | hq
      · -- the maker survives: push it back and stop
        have hmin : min st.order.quantity m.quantity = st.order.quantity := min_eq_left hq.le
        have hleft : m.quantity - st.order.quantity > 0 := by
          have := UInt64.lt_iff_toNat_lt.mp hq
          rw [gt_iff_lt, Word.pos_iff, UInt64.toNat_sub_of_le _ _ hq.le]
          omega
        rw [walk_cons_split hm hq]
        simp only [hmin, if_pos hleft]
        rw [MatchState.fill_eq_after st timestamp m st.order.quantity
          ({ m with quantity := m.quantity - st.order.quantity } :: ms), UInt64.sub_self]
      · -- the maker is used up
        have hmin : min st.order.quantity m.quantity = m.quantity := min_eq_right hq
        have hzero : ¬m.quantity - m.quantity > 0 := by
          rw [UInt64.sub_self]
          exact lt_irrefl _
        rw [walk_cons_full hm hq]
        simp only [hmin, if_neg hzero]
        have hrem : ((st.fill timestamp m m.quantity).retire m.orderId).order.quantity =
            st.order.quantity - m.quantity := rfl
        split
        · -- both exhausted: the walk goes no further either
          rename_i hdone
          rw [hrem] at hdone
          have hstop : walk st.order.side st.order.price (st.order.quantity - m.quantity) ms =
              ⟨[], [], ms, st.order.quantity - m.quantity⟩ := by
            cases ms with
            | nil => rfl
            | cons m' ms => exact walk_cons_stop (fun h => absurd hdone (ne_of_gt h.1))
          rw [hstop, ← MatchState.after_cons, ← hrem, MatchState.after_nil]
        · rename_i hmore
          have hpos' : 0 < ((st.fill timestamp m m.quantity).retire m.orderId).order.quantity :=
            lt_of_le_of_ne (UInt64.zero_le) (Ne.symm hmore)
          rw [ih _ hpos' (fun x hx => hcross x (List.mem_cons_of_mem _ hx)),
            ← MatchState.after_cons]
          rfl

/-! ## The outer loop -/

/-- If every maker of a list crosses, a walk that leaves one of them standing exhausts the
taker. -/
lemma residual_eq_zero {side : Side} {limit r : UInt64} {ms : List Order}
    (hcross : ∀ m ∈ ms, Crosses side limit m.price) (h : (walk side limit r ms).rest ≠ []) :
    (walk side limit r ms).residual = 0 := by
  by_contra hne
  have hpos : 0 < (walk side limit r ms).residual := lt_of_le_of_ne UInt64.zero_le (Ne.symm hne)
  obtain ⟨m, tail, hrest⟩ := List.exists_cons_of_ne_nil h
  refine rest_head_of_residual hpos hrest ?_
  have hprice : m.price ∈ ms.map Order.price := by
    rw [map_rest_suffix Order.price (fun _ _ => rfl) side limit r ms, hrest]
    simp
  obtain ⟨m', hm', hp⟩ := List.mem_map.mp hprice
  exact hp ▸ hcross m' hm'

lemma LevelOk.rest {p : UInt64} {queue : List Order} (h : LevelOk s (p, queue)) (side : Side)
    (limit r : UInt64) (hne : (walk side limit r queue).rest ≠ []) :
    LevelOk s (p, (walk side limit r queue).rest) := by
  refine ⟨hne, fun o ho => ?_⟩
  have hmem : (o.side, o.price) ∈ queue.map (fun m => (m.side, m.price)) := by
    rw [map_rest_suffix (fun m : Order => (m.side, m.price)) (fun _ _ => rfl) side limit r queue]
    exact List.mem_append_right _ (List.mem_map.mpr ⟨o, ho, rfl⟩)
  obtain ⟨m, hm, heq⟩ := List.mem_map.mp hmem
  obtain ⟨hside, hprice⟩ := Prod.mk.inj heq
  obtain ⟨h₁, h₂, -⟩ := h.placed m hm
  exact ⟨hside ▸ h₁, hprice ▸ h₂, rest_pos (fun m hm => (h.placed m hm).2.2) o ho⟩

/-- What one pass of the outer loop, or several, amount to on the map `makers`: the result `r`
carries out the walk `o`. -/
structure Matched (s : Side) (timestamp : UInt64) (makers : PriceMap) (st : MatchState)
    (o : Outcome) (r : PriceMap × MatchState) : Prop where
  /-- The opposite side becomes the rest of the walk. -/
  flat_eq : flat st.order.side r.1 = o.rest
  /-- The bookkeeping is that of the walk. -/
  state_eq : r.2 = st.after timestamp o
  /-- The levels left are well placed. -/
  sideOk : SideOk s r.1
  /-- No new level appears. -/
  old : ∀ e ∈ r.1.entries, ∃ q, (e.1, q) ∈ makers.entries

/-- A walk that stops at once leaves the loop where it is. -/
lemma Matched.stay {makers : PriceMap} {st : MatchState} (hok : SideOk s makers) :
    Matched s timestamp makers st ⟨[], [], flat st.order.side makers, st.order.quantity⟩
      (makers, st) :=
  ⟨rfl, (MatchState.after_nil st timestamp _).symm, hok, fun e he => ⟨e.2, he⟩⟩

/-- A used-up best level is removed, and the loop goes on with the walk over the others. -/
lemma Matched.usedUp {makers : PriceMap} {st : MatchState} {p : UInt64} {o₁ o₂ : Outcome}
    {r : PriceMap × MatchState}
    (h : Matched s timestamp (makers.erase p) (st.after timestamp o₁) o₂ r) :
    Matched s timestamp makers st (o₁.andThen o₂) r where
  flat_eq := h.flat_eq
  state_eq := h.state_eq.trans (MatchState.after_andThen st timestamp o₁ o₂).symm
  sideOk := h.sideOk
  old e he := by
    obtain ⟨q, hq⟩ := h.old e he
    exact ⟨q, List.mem_of_mem_filter hq⟩

/-- A best level that is left standing keeps its place. -/
lemma Matched.stands {makers : PriceMap} {st : MatchState} {p : UInt64} {queue : List Order}
    {ls : List (UInt64 × List Order)} {o : Outcome} (hok : SideOk s makers)
    (hlv : levels st.order.side makers = (p, queue) :: ls) (hlevel : LevelOk s (p, o.rest)) :
    Matched s timestamp makers st { o with rest := o.rest ++ ls.flatMap Prod.snd }
      (makers.replace p o.rest, st.after timestamp o) where
  flat_eq := by
    rw [flat, levels_replace hlv]
    rfl
  state_eq := rfl
  sideOk e he := by
    rw [← mem_levels st.order.side, levels_replace hlv] at he
    rcases List.mem_cons.mp he with rfl | he
    · exact hlevel
    · refine hok e ((mem_levels st.order.side).mp ?_)
      rw [hlv]
      exact List.mem_cons_of_mem _ he
  old e he := by
    obtain ⟨e', he', rfl⟩ := List.mem_map.mp he
    exact ⟨e'.2, by simpa using he'⟩

/-- **The matching loop is the reference walk**, given more fuel than there are levels. -/
lemma matchLoop_eq_walk (timestamp : UInt64) (fuel : ℕ) (makers : PriceMap) (st : MatchState)
    (hok : SideOk s makers) (hfuel : makers.entries.length < fuel) :
    Matched s timestamp makers st
      (walk st.order.side st.order.price st.order.quantity (flat st.order.side makers))
      (matchLoop timestamp fuel makers st) := by
  induction fuel generalizing makers st with
  | zero => omega
  | succ fuel ih =>
      rw [matchLoop]
      cases hlv : levels st.order.side makers with
      | nil =>
          have hflat : flat st.order.side makers = [] := by rw [flat, hlv]; rfl
          simp only [bestPrice, bestEntry_eq, hlv, List.head?_nil, ite_self]
          have hstay : Matched s timestamp makers st _ (makers, st) := Matched.stay hok
          rwa [hflat] at hstay ⊢
      | cons e ls =>
          obtain ⟨p, queue⟩ := e
          have hflat : flat st.order.side makers = queue ++ ls.flatMap Prod.snd := by
            rw [flat, hlv]
            rfl
          have hlevel : LevelOk s (p, queue) := by
            refine hok _ ((mem_levels st.order.side).mp ?_)
            rw [hlv]
            exact List.mem_cons_self ..
          by_cases hgo : 0 < st.order.quantity ∧ Crosses st.order.side st.order.price p
          · -- the best level crosses: run the inner loop on it
            have hcross : ∀ m ∈ queue, Crosses st.order.side st.order.price m.price :=
              fun m hm => (hlevel.placed m hm).2.1 ▸ hgo.2
            have hbest : bestPrice st.order.side makers st.order.price = some p := by
              simp only [bestPrice, bestEntry_eq, hlv, List.head?_cons, if_pos hgo.2]
            simp only [gt_iff_lt, if_pos hgo.1, hbest, get?_of_levels hlv,
              matchQueue_eq_walk queue st hgo.1 hcross, hflat]
            set w := walk st.order.side st.order.price st.order.quantity queue
            by_cases hrest : w.rest = []
            · -- the level is used up: the loop goes on with the next one
              have hls := levels_erase hlv
              have hlen : (makers.erase p).entries.length < fuel := by
                have h₁ := length_levels st.order.side makers
                have h₂ := length_levels st.order.side (makers.erase p)
                rw [hlv, List.length_cons] at h₁
                rw [hls] at h₂
                omega
              rw [hrest, walk_append_nil hrest, List.isEmpty_nil, if_pos rfl]
              have hih := ih (makers.erase p) (st.after timestamp w)
                (fun e he => hok e (List.mem_of_mem_filter he)) hlen
              rw [MatchState.after_order_side, flat, hls] at hih
              exact hih.usedUp
            · -- something of the level is left: the taker is exhausted and the loop stops
              have hzero : (st.after timestamp w).order.quantity = 0 :=
                residual_eq_zero hcross hrest
              have hstop : ∀ m, matchLoop timestamp fuel m (st.after timestamp w) =
                  (m, st.after timestamp w) := by
                intro m
                cases fuel with
                | zero => rfl
                | succ fuel => rw [matchLoop, hzero]; rfl
              rw [walk_append_ne hrest, if_neg (by simpa using hrest), hstop]
              exact Matched.stands hok hlv (hlevel.rest _ _ _ hrest)
          · -- the best level does not cross, or nothing is left to trade
            obtain ⟨m, ms, hqueue⟩ := List.exists_cons_of_ne_nil hlevel.nonempty
            have hm : m.price = p := (hlevel.placed m (hqueue ▸ List.mem_cons_self ..)).2.1
            have hwalk : walk st.order.side st.order.price st.order.quantity
                (flat st.order.side makers) =
                  ⟨[], [], flat st.order.side makers, st.order.quantity⟩ := by
              rw [hflat, show queue = m :: ms from hqueue, List.cons_append]
              exact walk_cons_stop (by rwa [hm])
            rw [hwalk]
            simp only [bestPrice, bestEntry_eq, hlv, List.head?_cons]
            by_cases hpos : 0 < st.order.quantity
            · rw [if_pos hpos, if_neg (fun hc => hgo ⟨hpos, hc⟩)]
              exact Matched.stay hok
            · rw [if_neg hpos]
              exact Matched.stay hok

end Loop

end OrderBook

end ExchangeCore

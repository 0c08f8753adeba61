import ExchangeCore.Ubs.Dedup
import ExchangeCore.Ubs.Wal

/-!
# Replay

A live run of UBSCore takes orders through `process_order_durable`, at the times of the wall clock,
and writes the ones it accepts to the log.  A replay starts from the same state in replay mode, runs
the orders of the log and the same other operations, and takes each order's own timestamp for the
clock.

The two runs are compared by what they have in common.  The funds agree (`userFunds`), and the other
operations cannot tell two states with the same funds apart.  The guards do not agree: the guard of
the replay has recorded a part of what the live guard has, so it evicts later, and what it has
evicted the live guard has evicted too (`Trails`).  So an order that was in time for the live guard
is in time for the replay.

An order that is refused leaves the funds as they were, except one: `Balance::lock` has already
taken the amount out of the available funds when it finds that the frozen funds would overflow, and
the log has no trace of it.
-/

namespace ExchangeCore

/-! ## Operations on the funds alone -/

namespace UBSCore

/-- The operation returns, and leaves behind, what the two amounts of the balance determine. -/
def OnAmounts (op : Balance → Except String Unit × Balance) : Prop :=
  ∀ b b' : Balance, b.avail = b'.avail → b.frozen = b'.frozen →
    (op b).1 = (op b').1 ∧ (op b).2.avail = (op b').2.avail ∧ (op b).2.frozen = (op b').2.frozen

/-- Two balances that differ in the version only. -/
lemma eq_with_version {b b' : Balance} (havail : b.avail = b'.avail)
    (hfrozen : b.frozen = b'.frozen) : b' = { b with version := b'.version } := by
  obtain ⟨avail, frozen, version⟩ := b
  obtain ⟨avail', frozen', version'⟩ := b'
  obtain rfl : avail = avail' := havail
  obtain rfl : frozen = frozen' := hfrozen
  rfl

lemma onAmounts_deposit (amount : UInt64) : OnAmounts (Balance.deposit amount) := by
  intro b b' havail hfrozen
  rw [eq_with_version havail hfrozen]
  unfold Balance.deposit
  cases Word.checkedAdd b.avail amount with
  | none => exact ⟨rfl, rfl, rfl⟩
  | some avail => exact ⟨rfl, rfl, rfl⟩

lemma onAmounts_unlock (amount : UInt64) : OnAmounts (Balance.unlock amount) := by
  intro b b' havail hfrozen
  rw [eq_with_version havail hfrozen]
  unfold Balance.unlock
  split
  · exact ⟨rfl, rfl, rfl⟩
  cases Word.checkedSub b.frozen amount with
  | none => exact ⟨rfl, rfl, rfl⟩
  | some frozen =>
      dsimp only
      cases Word.checkedAdd b.avail amount with
      | none => exact ⟨rfl, rfl, rfl⟩
      | some avail => exact ⟨rfl, rfl, rfl⟩

lemma onAmounts_spendFrozen (amount : UInt64) : OnAmounts (Balance.spendFrozen amount) := by
  intro b b' havail hfrozen
  rw [eq_with_version havail hfrozen]
  unfold Balance.spendFrozen
  split
  · exact ⟨rfl, rfl, rfl⟩
  cases Word.checkedSub b.frozen amount with
  | none => exact ⟨rfl, rfl, rfl⟩
  | some frozen => exact ⟨rfl, rfl, rfl⟩

/-- Where the funds agree, a user has an account in both states or in neither, with the same
amounts. -/
lemma account_cases {s t : UBSCore} (hst : s.userFunds = t.userFunds) (u : UInt64) :
    (s.accounts.get? u = none ∧ t.accounts.get? u = none) ∨
      ∃ account account', s.accounts.get? u = some account ∧ t.accounts.get? u = some account' ∧
        account.amounts = account'.amounts := by
  have hholdings : s.userFunds.holdings u = t.userFunds.holdings u := by rw [hst]
  cases hs : s.accounts.get? u with
  | none =>
      refine Or.inl ⟨rfl, ?_⟩
      simpa [userFunds, hs] using hholdings
  | some account =>
      obtain ⟨account', ht⟩ : ∃ account', t.accounts.get? u = some account' := by
        rw [← Option.isSome_iff_exists]
        have hsome := congrArg Option.isSome hholdings
        simpa [userFunds, hs] using hsome
      rw [holdings_of_some hs, holdings_of_some ht] at hholdings
      exact Or.inr ⟨account, account', rfl, ht, Option.some.inj hholdings⟩

lemma onBalance_dependsOn (u : UInt64) (a : UInt32) {op : Balance → Except String Unit × Balance}
    (hop : OnAmounts op) (reject : RejectReason) :
    Fallible.DependsOn userFunds (onBalance u a op reject) := by
  intro s t hst
  rcases account_cases hst u with ⟨hs, ht⟩ | ⟨account, account', hs, ht, hamounts⟩
  · simp only [onBalance, hs, ht]
    exact ⟨trivial, hst⟩
  · obtain ⟨hval, havail, hfrozen⟩ := hop _ _ (congrArg Prod.fst (congrFun hamounts a))
      (congrArg Prod.snd (congrFun hamounts a))
    refine ⟨?_, UserFunds.ext ?_ ?_⟩
    · simp only [onBalance, hs, ht, hval]
    · rw [holdings_onBalance op reject hs, holdings_onBalance op reject ht, hst, hamounts, havail,
        hfrozen]
    · rw [debt_onBalance, debt_onBalance, hst]

lemma availOf_dependsOn (u : UInt64) (a : UInt32) :
    Fallible.DependsOn userFunds (availOf u a) := by
  intro s t hst
  rcases account_cases hst u with ⟨hs, ht⟩ | ⟨account, account', hs, ht, hamounts⟩
  · simp only [availOf, hs, ht]
    exact ⟨trivial, hst⟩
  · have havail : (account.balanceMut a).avail = (account'.balanceMut a).avail :=
      congrArg Prod.fst (congrFun hamounts a)
    simp only [availOf, hs, ht, havail]
    exact ⟨trivial, hst⟩

lemma emitEvent_dependsOn (event : BalanceEvent) :
    Fallible.DependsOn userFunds (Fallible.modify (emitEvent event) :
      Fallible UBSCore RejectReason Unit) :=
  .modify (fun s => s.userFunds_emitEvent event)

lemma unlockFunds_dependsOn (u : UInt64) (a : UInt32) (amount orderId : UInt64) :
    Fallible.DependsOn userFunds (unlockFunds u a amount orderId) := by
  unfold unlockFunds
  apply (onBalance_dependsOn u a (onAmounts_unlock amount) _).bind
  intro _
  apply (availOf_dependsOn u a).bind
  intro avail
  apply (emitEvent_dependsOn _).bind
  intro _
  exact .pure avail

lemma refundBuyer_dependsOn (t : Settlement) :
    Fallible.DependsOn userFunds (refundBuyer t) := by
  unfold refundBuyer
  split
  · exact onBalance_dependsOn _ _ (onAmounts_unlock _) _
  · exact .pure ()

lemma settleTrade_dependsOn (t : Settlement) : Fallible.DependsOn userFunds (settleTrade t) := by
  unfold settleTrade
  apply (onBalance_dependsOn _ _ (onAmounts_spendFrozen _) _).bind
  intro _
  apply (onBalance_dependsOn _ _ (onAmounts_deposit _) _).bind
  intro _
  apply (refundBuyer_dependsOn t).bind
  intro _
  apply (onBalance_dependsOn _ _ (onAmounts_spendFrozen _) _).bind
  intro _
  apply (onBalance_dependsOn _ _ (onAmounts_deposit _) _).bind
  intro _
  exact emitEvent_dependsOn _

end UBSCore

/-! ## The guards -/

namespace DeduplicationGuard

/-- The guard of the replay trails the live guard: it has recorded a part of what the live guard has
recorded.  So its cut-off is no later, its cache no longer, and the id it would evict next has been
evicted by the live guard or is the one the live guard would evict next. -/
structure Trails (replay live : DeduplicationGuard) : Prop where
  minAllowedTs : replay.minAllowedTs ≤ live.minAllowedTs
  length : replay.cache.length ≤ live.cache.length
  last : CACHE_SIZE ≤ replay.cache.length → ∀ id, replay.cache.getLast? = some id →
    live.cache.getLast? = some id ∨ snowflakeTimestampMs id ≤ live.minAllowedTs

lemma Trails.refl (g : DeduplicationGuard) : g.Trails g :=
  ⟨le_refl _, le_refl _, fun _ _ h => Or.inl h⟩

/-- Recording an id appends it, and takes the place of the last one in a full cache. -/
lemma record_cases (g : DeduplicationGuard) (id : UInt64) :
    (g.cache.length < CACHE_SIZE ∧ (g.record id).cache = g.cache ++ [id] ∧
        (g.record id).minAllowedTs = g.minAllowedTs) ∨
      CACHE_SIZE ≤ g.cache.length ∧ ∃ init last, g.cache = init ++ [last] ∧
        (g.record id).cache = init ++ [id] ∧
        (g.record id).minAllowedTs = max g.minAllowedTs (snowflakeTimestampMs last) := by
  by_cases hfull : CACHE_SIZE ≤ g.cache.length
  · refine Or.inr ⟨hfull, ?_⟩
    rcases List.eq_nil_or_concat g.cache with hnil | ⟨init, last, hcache⟩
    · rw [hnil] at hfull
      exact absurd hfull (by decide)
    · rw [List.concat_eq_append] at hcache
      have hevict : g.evict = ⟨init, max g.minAllowedTs (snowflakeTimestampMs last)⟩ := by
        rw [evict, if_pos hfull, hcache, List.getLast?_concat, List.dropLast_concat]
      refine ⟨init, last, hcache, ?_⟩
      rw [record, hevict]
      exact ⟨rfl, rfl⟩
  · have hevict : g.evict = g := if_neg hfull
    refine Or.inl ⟨not_le.mp hfull, ?_⟩
    rw [record, hevict]
    exact ⟨rfl, rfl⟩

variable {replay live : DeduplicationGuard}

lemma Trails.record_live (h : replay.Trails live) (id : UInt64) :
    replay.Trails (live.record id) := by
  rcases live.record_cases id with ⟨hroom, hcache, hmin⟩ | ⟨hfull, init, last, hlast, hcache, hmin⟩
  · refine ⟨?_, ?_, ?_⟩
    · rw [hmin]
      exact h.minAllowedTs
    · rw [hcache, List.length_append]
      exact Nat.le_add_right_of_le h.length
    · intro hfull
      exact absurd (hfull.trans h.length) (not_le.mpr hroom)
  · refine ⟨?_, ?_, ?_⟩
    · rw [hmin]
      exact h.minAllowedTs.trans (le_max_left _ _)
    · have hlen := h.length
      rw [hlast, List.length_append] at hlen
      rwa [hcache, List.length_append]
    · intro hfull' x hx
      right
      rw [hmin]
      rcases h.last hfull' x hx with hsame | hevicted
      · rw [hlast, List.getLast?_concat] at hsame
        rw [Option.some.inj hsame]
        exact le_max_right _ _
      · exact hevicted.trans (le_max_left _ _)

lemma Trails.record (h : replay.Trails live) (id : UInt64) :
    (replay.record id).Trails (live.record id) := by
  have hlive := h.record_live id
  rcases replay.record_cases id with ⟨hroom, hcache, hmin⟩ |
    ⟨hfull, init, last, hlast, hcache, hmin⟩
  · refine ⟨?_, ?_, ?_⟩
    · rw [hmin]
      exact hlive.minAllowedTs
    · rw [hcache, List.length_append, List.length_singleton]
      -- the live cache is at least as long, and full if this one is
      have hlen := h.length
      rcases live.record_cases id with ⟨-, hcache', -⟩ | ⟨hfull', init', last', hlast', hcache', -⟩
      · rw [hcache', List.length_append, List.length_singleton]
        omega
      · rw [hlast', List.length_append] at hfull'
        rw [hcache', List.length_append]
        exact hroom.trans_le hfull'
    · intro _ x hx
      rw [hcache, List.getLast?_concat] at hx
      left
      rw [← hx]
      rcases live.record_cases id with ⟨-, hcache', -⟩ | ⟨-, init', last', -, hcache', -⟩
      · rw [hcache', List.getLast?_concat]
      · rw [hcache', List.getLast?_concat]
  · -- a full cache here is a full cache there
    have hfull' : CACHE_SIZE ≤ live.cache.length := hfull.trans h.length
    rcases live.record_cases id with ⟨hroom', -⟩ | ⟨-, init', last', hlast', hcache', hmin'⟩
    · exact absurd hfull' (not_le.mpr hroom')
    refine ⟨?_, ?_, ?_⟩
    · rw [hmin]
      refine max_le hlive.minAllowedTs ?_
      have hx : replay.cache.getLast? = some last := by rw [hlast, List.getLast?_concat]
      rw [hmin']
      rcases h.last hfull last hx with hsame | hevicted
      · rw [hlast', List.getLast?_concat] at hsame
        rw [Option.some.inj hsame]
        exact le_max_right _ _
      · exact hevicted.trans (le_max_left _ _)
    · have hlen := hlive.length
      rw [hlast, List.length_append] at hlen
      rwa [hcache, List.length_append]
    · intro _ x hx
      rw [hcache, List.getLast?_concat] at hx
      left
      rw [hcache', List.getLast?_concat, hx]

/-- The ids a guard keeps for good: all but the one a full cache holds last. -/
def settled (g : DeduplicationGuard) : List UInt64 :=
  if g.cache.length ≥ CACHE_SIZE then g.cache.dropLast else g.cache

lemma mem_cache_of_settled {g : DeduplicationGuard} {id : UInt64} (h : id ∈ g.settled) :
    id ∈ g.cache := by
  unfold settled at h
  split at h
  · exact List.mem_of_mem_dropLast h
  · exact h

/-- What is cached is kept for good, unless it is the last of a full cache. -/
lemma mem_settled {g : DeduplicationGuard} {id : UInt64} (h : id ∈ g.cache)
    (hlast : g.cache.length ≥ CACHE_SIZE → g.cache.getLast? ≠ some id) : id ∈ g.settled := by
  unfold settled
  split
  · rename_i hfull
    rcases List.eq_nil_or_concat g.cache with hnil | ⟨init, last, hcache⟩
    · rw [hnil] at h
      exact absurd h List.not_mem_nil
    · rw [List.concat_eq_append] at hcache
      have hne := hlast hfull
      rw [hcache, List.getLast?_concat] at hne
      rw [hcache] at h
      rw [hcache, List.dropLast_concat]
      rcases List.mem_append.mp h with hinit | hmem
      · exact hinit
      · exact absurd (congrArg some (List.mem_singleton.mp hmem).symm) hne
  · exact h

lemma settled_record {g : DeduplicationGuard} {id : UInt64} (h : id ∈ g.settled) (new : UInt64) :
    id ∈ (g.record new).settled := by
  rcases g.record_cases new with ⟨hroom, hcache, -⟩ | ⟨hfull, init, last, hlast, hcache, -⟩
  · rw [settled, hcache, List.dropLast_concat]
    have hmem := mem_cache_of_settled h
    split
    · exact hmem
    · exact List.mem_append_left _ hmem
  · have hfull' : (g.record new).cache.length ≥ CACHE_SIZE := by
      rw [hlast, List.length_append] at hfull
      rwa [hcache, List.length_append]
    rw [settled, if_pos hfull, hlast, List.dropLast_concat] at h
    rwa [settled, if_pos hfull', hcache, List.dropLast_concat]

lemma mem_record {g : DeduplicationGuard} {id new : UInt64} (h : id ∈ (g.record new).cache) :
    id ∈ g.cache ∨ id = new := by
  rcases g.record_cases new with ⟨-, hcache, -⟩ | ⟨-, init, last, hlast, hcache, -⟩
  · rw [hcache] at h
    simpa using h
  · rw [hcache] at h
    rw [hlast]
    rcases List.mem_append.mp h with hinit | hnew
    · exact Or.inl (List.mem_append_left _ hinit)
    · exact Or.inr (List.mem_singleton.mp hnew)

lemma inTime_self (id : UInt64) : InTime id (snowflakeTimestampMs id) := by
  constructor
  · rw [gt_iff_lt, not_lt, Word.saturatingSub_self]
    exact UInt64.zero_le
  · rw [gt_iff_lt, not_lt]
    exact Word.le_saturatingAdd _ _

/-- **What the live guard takes, the guard of the replay takes**, at the id's own timestamp. -/
lemma Trails.takes (h : replay.Trails live) {id now : UInt64} (hlive : live.Takes id now)
    (hnew : id ∈ replay.cache → id ∈ live.settled) : replay.Takes id (snowflakeTimestampMs id) := by
  obtain ⟨-, hmin, hcache⟩ := hlive
  refine ⟨inTime_self id, h.minAllowedTs.trans hmin, ?_⟩
  intro hmem
  exact hcache (mem_cache_of_settled (hnew hmem))

end DeduplicationGuard

/-! ## One order -/

namespace UBSCore

def setReplayMode (enabled : Bool) (ubs : UBSCore) : UBSCore := { ubs with isReplayMode := enabled }

/-- What decides about an order, next to the funds. -/
def control (ubs : UBSCore) :
    DeduplicationGuard × List InternalOrder × HashMap UInt32 (UInt32 × UInt32) × Bool :=
  (ubs.dedupGuard, ubs.pendingQueue, ubs.assetMap, ubs.isReplayMode)

lemma beside_control : Beside control := fun _ _ _ => rfl

/-- The checks of an order, as one condition. -/
lemma lockRequest_eq_some_iff {order : InternalOrder} {clock : UInt64} {ubs : UBSCore}
    {request : UInt32 × UInt64} :
    lockRequest order clock ubs = some request ↔
      ubs.pendingQueue.length ≤ HIGH_WATER_MARK ∧
        ubs.dedupGuard.Takes order.orderId (ubs.currentTime order clock) ∧
        (ubs.userFunds.holdings order.userId).isSome = true ∧
        order.calculateCost ≠ 0xFFFFFFFFFFFFFFFF ∧
        (ubs.assetMap.get? order.symbolId).map (fun assets =>
          (order.lockAsset assets, order.calculateCost)) = some request := by
  have htakes : (ubs.dedupGuard.checkAndRecord order.orderId (ubs.currentTime order clock)).1.isOk =
      false ↔ ¬ubs.dedupGuard.Takes order.orderId (ubs.currentTime order clock) := by
    rcases ubs.dedupGuard.checkAndRecord_cases order.orderId (ubs.currentTime order clock) with
      ⟨htakes, heq⟩ | ⟨hnot, e, heq⟩
    · rw [heq]
      exact iff_of_false (by simp) (not_not.mpr htakes)
    · rw [heq]
      exact iff_of_true rfl hnot
  have haccount : (ubs.userFunds.holdings order.userId).isSome =
      (ubs.accounts.get? order.userId).isSome := by
    rw [userFunds, Option.isSome_map]
  -- one split a check, in the order of the source
  rw [haccount, lockRequest]
  split
  · rename_i hbusy
    exact iff_of_false (by simp) (fun h => absurd h.1 (not_le.mpr hbusy))
  rename_i hbusy
  split
  · rename_i hrefused
    exact iff_of_false (by simp) (fun h => htakes.mp hrefused h.2.1)
  rename_i htaken
  split
  · rename_i hnone
    exact iff_of_false (by simp) (fun h => by simp_all)
  rename_i hsome
  split
  · rename_i hcost
    exact iff_of_false (by simp) (fun h => h.2.2.2.1 hcost)
  rename_i hcost
  have hsome' : (ubs.accounts.get? order.userId).isSome = true := by
    simpa [Option.isSome_iff_ne_none] using hsome
  exact ⟨fun h => ⟨not_lt.mp hbusy, not_not.mp (mt htakes.mpr htaken), hsome', hcost, h⟩,
    fun h => h.2.2.2.2⟩

/-- Validation changes the guard, and nothing else that decides about an order. -/
lemma control_validateOrder (order : InternalOrder) (clock : UInt64) (ubs : UBSCore) :
    (validateOrder order clock ubs).2.control = (recorded order clock ubs).control := by
  have heq := validateOrder_eq order clock ubs
  cases hrequest : lockRequest order clock ubs with
  | none =>
      rw [hrequest] at heq
      obtain ⟨e, heq⟩ := heq
      rw [heq]
  | some request =>
      rw [hrequest] at heq
      dsimp only at heq
      rw [heq]
      exact lockFunds_keeps beside_control _ _ _ _ _

lemma recorded_cases (order : InternalOrder) (clock : UInt64) (ubs : UBSCore) :
    recorded order clock ubs = ubs ∨
      recorded order clock ubs =
        { ubs with dedupGuard := ubs.dedupGuard.record order.orderId } := by
  unfold recorded
  split
  · exact Or.inl rfl
  · rcases ubs.dedupGuard.checkAndRecord_cases order.orderId (ubs.currentTime order clock) with
      ⟨-, heq⟩ | ⟨-, e, heq⟩
    · rw [heq]
      exact Or.inr rfl
    · rw [heq]
      exact Or.inl rfl

lemma recorded_of_request {order : InternalOrder} {clock : UInt64} {ubs : UBSCore}
    {request : UInt32 × UInt64} (h : lockRequest order clock ubs = some request) :
    recorded order clock ubs = { ubs with dedupGuard := ubs.dedupGuard.record order.orderId } := by
  obtain ⟨hqueue, htakes, -⟩ := lockRequest_eq_some_iff.mp h
  rw [recorded, if_neg (not_lt.mpr hqueue), DeduplicationGuard.checkAndRecord_of_takes htakes]

/-- The replay has the funds of the live run, and a guard that trails the live guard. -/
structure Follows (replay live : UBSCore) : Prop where
  funds : replay.userFunds = live.userFunds
  queue : replay.pendingQueue = live.pendingQueue
  assets : replay.assetMap = live.assetMap
  mode : replay.isReplayMode = true
  guard : replay.dedupGuard.Trails live.dedupGuard

/-- No id of the list is in the cache of the replay, except one the live guard keeps for good. -/
def Unseen (ids : List UInt64) (replay live : UBSCore) : Prop :=
  ∀ id ∈ ids, id ∈ replay.dedupGuard.cache → id ∈ live.dedupGuard.settled

variable {replay live : UBSCore}

/-- Operations that the guard and the queue are not part of. -/
lemma Follows.congr {replay' live' : UBSCore} (h : Follows replay live)
    (hreplay : replay'.control = replay.control) (hlive : live'.control = live.control)
    (hfunds : replay'.userFunds = live'.userFunds) : Follows replay' live' := by
  obtain ⟨hguard, hqueue, hassets, hmode⟩ : replay'.dedupGuard = replay.dedupGuard ∧
      replay'.pendingQueue = replay.pendingQueue ∧ replay'.assetMap = replay.assetMap ∧
      replay'.isReplayMode = replay.isReplayMode := by
    simpa [control] using hreplay
  obtain ⟨hguard', hqueue', hassets', -⟩ : live'.dedupGuard = live.dedupGuard ∧
      live'.pendingQueue = live.pendingQueue ∧ live'.assetMap = live.assetMap ∧
      live'.isReplayMode = live.isReplayMode := by
    simpa [control] using hlive
  refine ⟨hfunds, ?_, ?_, hmode.trans h.mode, ?_⟩
  · rw [hqueue, hqueue', h.queue]
  · rw [hassets, hassets', h.assets]
  · rw [hguard, hguard']
    exact h.guard

lemma guard_of_control {s t : UBSCore} (h : s.control = t.control) :
    s.dedupGuard = t.dedupGuard := congrArg Prod.fst h

/-- The order's lock fits: the frozen amount has room for what the available amount covers. -/
def LockFits (order : InternalOrder) (clock : UInt64) (ubs : UBSCore) : Prop :=
  ∀ a cost, lockRequest order clock ubs = some (a, cost) →
    ubs.userFunds.covers order.userId a cost = true → ubs.userFunds.fits order.userId a cost = true

lemma userFunds_of_refused {order : InternalOrder} {clock : UInt64} {ubs : UBSCore}
    (hfits : LockFits order clock ubs) (hno : (validateOrder order clock ubs).1.isOk = false) :
    (validateOrder order clock ubs).2.userFunds = ubs.userFunds := by
  cases hrequest : lockRequest order clock ubs with
  | none => exact (validateOrder_of_none hrequest).2
  | some request =>
      obtain ⟨a, cost⟩ := request
      obtain ⟨hok, hfunds⟩ := validateOrder_of_some hrequest
      rw [hno] at hok
      rw [hfunds, UserFunds.afterLock, if_neg]
      intro hcov
      rw [hcov, hfits a cost hrequest hcov] at hok
      exact absurd hok (by simp)

/-- An order that only the live run sees. -/
lemma Follows.refused (h : Follows replay live) {order : InternalOrder} {clock : UInt64}
    (hfits : LockFits order clock live) (hno : (validateOrder order clock live).1.isOk = false) :
    Follows replay (validateOrder order clock live).2 := by
  have hfunds := userFunds_of_refused hfits hno
  have hcontrol := control_validateOrder order clock live
  rcases recorded_cases order clock live with hsame | hrecord
  · rw [hsame] at hcontrol
    exact h.congr rfl hcontrol (h.funds.trans hfunds.symm)
  · rw [hrecord] at hcontrol
    have hnext : Follows replay { live with
        dedupGuard := live.dedupGuard.record order.orderId } :=
      ⟨h.funds, h.queue, h.assets, h.mode, h.guard.record_live order.orderId⟩
    exact hnext.congr rfl hcontrol (h.funds.trans hfunds.symm)

lemma Unseen.refused {ids : List UInt64} (h : Unseen ids replay live) (order : InternalOrder)
    (clock : UInt64) : Unseen ids replay (validateOrder order clock live).2 := by
  intro id hid hmem
  rw [guard_of_control (control_validateOrder order clock live)]
  rcases recorded_cases order clock live with hsame | hrecord
  · rw [hsame]
    exact h id hid hmem
  · rw [hrecord]
    exact DeduplicationGuard.settled_record (h id hid hmem) order.orderId

lemma Unseen.accepted {ids : List UInt64} (h : Unseen ids replay live) {order : InternalOrder}
    (clock : UInt64) {replay' : UBSCore}
    (hguard : replay'.dedupGuard = replay.dedupGuard.record order.orderId)
    (hfresh : order.orderId ∉ ids) : Unseen ids replay' (validateOrder order clock live).2 := by
  intro id hid hmem
  rw [hguard] at hmem
  rcases DeduplicationGuard.mem_record hmem with hold | rfl
  · exact (h.refused order clock) id hid hold
  · exact absurd hid hfresh

lemma request_of_accepted {order : InternalOrder} {clock : UInt64} {ubs : UBSCore}
    (hok : (validateOrder order clock ubs).1.isOk = true) :
    ∃ a cost, lockRequest order clock ubs = some (a, cost) ∧
      ubs.userFunds.covers order.userId a cost = true ∧
      ubs.userFunds.fits order.userId a cost = true := by
  cases hrequest : lockRequest order clock ubs with
  | none =>
      rw [(validateOrder_of_none hrequest).1] at hok
      exact absurd hok (by simp)
  | some request =>
      obtain ⟨a, cost⟩ := request
      rw [(validateOrder_of_some hrequest).1, Bool.and_eq_true] at hok
      exact ⟨a, cost, rfl, hok⟩

/-- **An order the live run accepts is accepted by the replay**, with the same effect on the
funds. -/
lemma Follows.accepted (h : Follows replay live) {order : InternalOrder} {clock : UInt64}
    (clock' : UInt64)
    (hnew : order.orderId ∈ replay.dedupGuard.cache → order.orderId ∈ live.dedupGuard.settled)
    (hok : (validateOrder order clock live).1.isOk = true) :
    (validateOrder order clock' replay).1.isOk = true ∧
      Follows (validateOrder order clock' replay).2 (validateOrder order clock live).2 ∧
      (validateOrder order clock' replay).2.dedupGuard =
        replay.dedupGuard.record order.orderId := by
  obtain ⟨a, cost, hlive, hcov, hfit⟩ := request_of_accepted hok
  obtain ⟨hqueue, htakes, haccount, hcost, hassets⟩ := lockRequest_eq_some_iff.mp hlive
  have hreplay : lockRequest order clock' replay = some (a, cost) := by
    rw [lockRequest_eq_some_iff, h.queue, h.funds, h.assets]
    refine ⟨hqueue, ?_, haccount, hcost, hassets⟩
    -- the clock of the replay is the order's own timestamp
    have hclock : replay.currentTime order clock' = snowflakeTimestampMs order.orderId := by
      rw [currentTime, h.mode]
      rfl
    rw [hclock]
    exact h.guard.takes htakes hnew
  obtain ⟨hok', hfunds'⟩ := validateOrder_of_some hreplay
  obtain ⟨-, hfunds⟩ := validateOrder_of_some hlive
  have hcontrol := control_validateOrder order clock live
  have hcontrol' := control_validateOrder order clock' replay
  rw [recorded_of_request hlive] at hcontrol
  rw [recorded_of_request hreplay] at hcontrol'
  have hnext : Follows { replay with dedupGuard := replay.dedupGuard.record order.orderId }
      { live with dedupGuard := live.dedupGuard.record order.orderId } :=
    ⟨h.funds, h.queue, h.assets, h.mode, h.guard.record order.orderId⟩
  refine ⟨?_, hnext.congr hcontrol' hcontrol ?_, guard_of_control hcontrol'⟩
  · rw [hok', h.funds, hcov, hfit]
    rfl
  · rw [hfunds', hfunds, h.funds]

end UBSCore

/-! ## Runs -/

namespace UBSCore

/-- The operations next to the orders. -/
inductive OtherOp
  | deposit (userId : UInt64) (assetId : UInt32) (amount txId : UInt64)
  | withdraw (userId : UInt64) (assetId : UInt32) (amount txId : UInt64)
  | unlock (userId : UInt64) (assetId : UInt32) (amount orderId : UInt64)
  | settle (t : Settlement)

/-- The state after an operation, which may have been refused. -/
def OtherOp.apply (ubs : UBSCore) : OtherOp → UBSCore
  | .deposit userId assetId amount txId => onDeposit userId assetId amount txId ubs
  | .withdraw userId assetId amount txId => (onWithdraw userId assetId amount txId ubs).2
  | .unlock userId assetId amount orderId => (unlockFunds userId assetId amount orderId ubs).2
  | .settle t => (settleTrade t ubs).2

/-- The other operations leave alone what decides about an order. -/
lemma OtherOp.control_apply (op : OtherOp) (ubs : UBSCore) :
    (op.apply ubs).control = ubs.control := by
  cases op with
  | deposit u a amount txId => exact onDeposit_keeps beside_control u a amount txId ubs
  | withdraw u a amount txId => exact onWithdraw_keeps beside_control u a amount txId ubs
  | unlock u a amount orderId => exact unlockFunds_keeps beside_control u a amount orderId ubs
  | settle t => exact settleTrade_keeps beside_control t ubs

/-- The other operations cannot tell two states with the same funds apart. -/
lemma OtherOp.userFunds_apply (op : OtherOp) {s t : UBSCore} (hst : s.userFunds = t.userFunds) :
    (op.apply s).userFunds = (op.apply t).userFunds := by
  cases op with
  | deposit u a amount txId =>
      show (s.onDeposit u a amount txId).userFunds = (t.onDeposit u a amount txId).userFunds
      rw [userFunds_onDeposit, userFunds_onDeposit, hst]
  | withdraw u a amount txId =>
      show (s.onWithdraw u a amount txId).2.userFunds = (t.onWithdraw u a amount txId).2.userFunds
      rw [(userFunds_onWithdraw u a amount txId s).2, (userFunds_onWithdraw u a amount txId t).2,
        hst]
  | unlock u a amount orderId => exact (unlockFunds_dependsOn u a amount orderId s t hst).2
  | settle trade => exact (settleTrade_dependsOn trade s t hst).2

end UBSCore

/-- A step of a run: an order, with the wall clock and the answers of the operating system, or
another operation. -/
inductive LiveOp
  | order (order : InternalOrder) (clock : UInt64) (io : FlushIo)
  | other (op : UBSCore.OtherOp)

namespace DurableCore

open UBSCore

/-- The live run. -/
def live (bincode : Bincode) : Machine DurableCore LiveOp (Except RejectReason Unit) where
  step core
    | .order order clock io =>
        let r := processOrderDurable bincode io order clock core
        (r.2, r.1)
    | .other op => ({ core with ubs := op.apply core.ubs }, .ok ())

/-- The replay. -/
def replay : Machine UBSCore LiveOp (Except RejectReason Unit) where
  step ubs
    | .order order clock _ =>
        let r := validateOrder order clock ubs
        (r.2, r.1)
    | .other op => (op.apply ubs, .ok ())

/-- The entries on disk. -/
def onDisk (core : DurableCore) : List WalEntry := (core.wal.map GroupCommitWal.written).getD []

/-- The steps a replay runs: all but the orders that were not written to the log. -/
def logged (bincode : Bincode) (core : DurableCore) : List LiveOp → List LiveOp
  | [] => []
  | .order order clock io :: ops =>
      let next := ((live bincode).step core (.order order clock io)).1
      if core.onDisk.length < next.onDisk.length then
        .order order clock io :: logged bincode next ops
      else logged bincode next ops
  | .other op :: ops => .other op :: logged bincode ((live bincode).step core (.other op)).1 ops

/-- The ids of the orders of a run. -/
def orderIds (ops : List LiveOp) : List UInt64 :=
  ops.filterMap (fun
    | .order order _ _ => some order.orderId
    | .other _ => none)

/-- The log takes and flushes an order that was validated. -/
def WritesSucceed (bincode : Bincode) (core : DurableCore) : LiveOp → Prop
  | .order order clock io => (validateOrder order clock core.ubs).1.isOk = true →
      ∀ wal, core.wal = some wal →
        (GroupCommitWal.appendAndFlush io (bincode.orderEntry order) wal).1.isOk = true
  | .other _ => True

/-- No order meets a frozen amount that its lock would overflow. -/
def LocksFit (core : DurableCore) : LiveOp → Prop
  | .order order clock _ => LockFits order clock core.ubs
  | .other _ => True

/-- The replay accepts the order. -/
def Accepted (ubs : UBSCore) : LiveOp → Prop
  | .order order clock _ => (validateOrder order clock ubs).1 = .ok ()
  | .other _ => True

variable {bincode : Bincode} {core : DurableCore} {order : InternalOrder} {clock : UInt64}
  {io : FlushIo}

lemma step_of_refused (hno : (validateOrder order clock core.ubs).1.isOk = false) :
    ((live bincode).step core (.order order clock io)).1 =
      { core with ubs := (validateOrder order clock core.ubs).2 } := by
  show (processOrderDurable bincode io order clock core).2 = _
  unfold processOrderDurable
  rcases hrun : validateOrder order clock core.ubs with ⟨r, ubs⟩
  rw [hrun] at hno
  cases r with
  | error reason => rfl
  | ok _ => exact absurd hno (by simp)

lemma step_of_accepted (hok : (validateOrder order clock core.ubs).1.isOk = true)
    {wal : GroupCommitWal} (hwal : core.wal = some wal)
    (hwrite : (GroupCommitWal.appendAndFlush io (bincode.orderEntry order) wal).1.isOk = true) :
    ((live bincode).step core (.order order clock io)).1.ubs =
        (validateOrder order clock core.ubs).2 ∧
      ((live bincode).step core (.order order clock io)).1.wal.isSome = true ∧
      core.onDisk.length < ((live bincode).step core (.order order clock io)).1.onDisk.length := by
  have hensures := GroupCommitWal.appendAndFlush_ensures io (bincode.orderEntry order) wal
  have hdisk : core.onDisk = wal.written := by
    rw [onDisk, hwal]
    rfl
  rw [hdisk]
  show (processOrderDurable bincode io order clock core).2.ubs = _ ∧
    (processOrderDurable bincode io order clock core).2.wal.isSome = true ∧
    wal.written.length < (processOrderDurable bincode io order clock core).2.onDisk.length
  unfold processOrderDurable
  rcases hrun : validateOrder order clock core.ubs with ⟨r, ubs⟩
  rw [hrun] at hok
  rcases happend : GroupCommitWal.appendAndFlush io (bincode.orderEntry order) wal with ⟨r', wal'⟩
  rw [happend] at hwrite
  cases r with
  | error reason => exact absurd hok (by simp)
  | ok _ =>
      cases r' with
      | error e => exact absurd hwrite (by simp)
      | ok _ =>
          obtain ⟨hwritten, -⟩ := hensures _ _ happend
          simp only [hwal, happend]
          refine ⟨rfl, rfl, ?_⟩
          show wal.written.length < wal'.written.length
          rw [hwritten, GroupCommitWal.entries, List.length_append, List.length_append,
            List.length_singleton]
          omega

/-- **The replay of a run.**  The relation is kept along the run, each step of the live run that is
logged being a step of the replay. -/
lemma replay_follows {ubs : UBSCore} (ops : List LiveOp) (h : Follows ubs core.ubs)
    (hwal : core.wal.isSome = true) (hids : (orderIds ops).Nodup)
    (hunseen : Unseen (orderIds ops) ubs core.ubs)
    (hwrites : (live bincode).AllSteps (WritesSucceed bincode) core ops)
    (hfits : (live bincode).AllSteps LocksFit core ops) :
    replay.AllSteps Accepted ubs (logged bincode core ops) ∧
      Follows (replay.run ubs (logged bincode core ops)) ((live bincode).run core ops).ubs := by
  induction ops generalizing core ubs with
  | nil => exact ⟨trivial, h⟩
  | cons op ops ih =>
      obtain ⟨hwrite, hwrites⟩ := hwrites
      obtain ⟨hfit, hfits⟩ := hfits
      cases op with
      | other op =>
          have hnext : Follows (op.apply ubs) ((live bincode).step core (.other op)).1.ubs :=
            h.congr (op.control_apply ubs) (op.control_apply core.ubs) (op.userFunds_apply h.funds)
          have hunseen' : Unseen (orderIds ops) (op.apply ubs) (op.apply core.ubs) := by
            intro id hid
            rw [guard_of_control (op.control_apply ubs),
              guard_of_control (op.control_apply core.ubs)]
            exact hunseen id hid
          obtain ⟨hall, hend⟩ := ih hnext hwal hids hunseen' hwrites hfits
          exact ⟨⟨trivial, hall⟩, hend⟩
      | order order clock io =>
          obtain ⟨hfresh, hids⟩ : order.orderId ∉ orderIds ops ∧ (orderIds ops).Nodup :=
            List.nodup_cons.mp hids
          have hrest : Unseen (orderIds ops) ubs core.ubs :=
            fun id hid => hunseen id (List.mem_cons_of_mem _ hid)
          rw [logged, Machine.run_cons]
          cases hok : (validateOrder order clock core.ubs).1.isOk with
          | false =>
              rw [step_of_refused hok] at hwrites hfits ⊢
              -- a refused order leaves nothing on disk, and so nothing to replay
              have hnot : ¬core.onDisk.length <
                  (onDisk { core with ubs := (validateOrder order clock core.ubs).2 }).length :=
                lt_irrefl _
              rw [if_neg hnot]
              exact ih (h.refused hfit hok) hwal hids (hrest.refused order clock) hwrites hfits
          | true =>
              obtain ⟨wal, hsome⟩ := Option.isSome_iff_exists.mp hwal
              -- an accepted one is on disk, and the replay accepts it again
              obtain ⟨hubs, hwal', hgrows⟩ := step_of_accepted hok hsome (hwrite hok wal hsome)
              obtain ⟨hok', hnext, hguard⟩ := h.accepted clock
                (hunseen order.orderId List.mem_cons_self) hok
              rw [← hubs] at hnext
              rw [if_pos hgrows]
              have hunseen' : Unseen (orderIds ops) (validateOrder order clock ubs).2
                  ((live bincode).step core (.order order clock io)).1.ubs := by
                rw [hubs]
                exact hrest.accepted clock hguard hfresh
              obtain ⟨hall, hend⟩ := ih hnext hwal' hids hunseen' hwrites hfits
              exact ⟨⟨eq_ok_of_isOk hok', hall⟩, hend⟩

/-- The replay accepts every order of the log and ends with the balances of the live run. -/
def ReplayAgrees (bincode : Bincode) (core : DurableCore) (ops : List LiveOp) : Prop :=
  replay.AllSteps Accepted (core.ubs.setReplayMode true) (logged bincode core ops) ∧
    ∀ u a,
      (replay.run (core.ubs.setReplayMode true) (logged bincode core ops)).avail u a =
          ((live bincode).run core ops).ubs.avail u a ∧
        (replay.run (core.ubs.setReplayMode true) (logged bincode core ops)).frozen u a =
          ((live bincode).run core ops).ubs.frozen u a

/-- **Replay determinism.**  Take a live run whose orders have distinct ids and whose writes to the
log succeed.  If no order meets a frozen amount that its lock would overflow, and none carries the
id a full cache holds last at the start, the replay agrees with it. -/
theorem replay_agrees (bincode : Bincode) (core : DurableCore) (ops : List LiveOp)
    (hwal : core.wal.isSome = true) (hids : (orderIds ops).Nodup)
    (hwrites : (live bincode).AllSteps (WritesSucceed bincode) core ops)
    (hlast : core.ubs.dedupGuard.cache.length ≥ DeduplicationGuard.CACHE_SIZE →
      ∀ id ∈ orderIds ops, core.ubs.dedupGuard.cache.getLast? ≠ some id)
    (hfits : (live bincode).AllSteps LocksFit core ops) : ReplayAgrees bincode core ops := by
  have hstart : Follows (core.ubs.setReplayMode true) core.ubs :=
    ⟨rfl, rfl, rfl, rfl, DeduplicationGuard.Trails.refl _⟩
  have hunseen : Unseen (orderIds ops) (core.ubs.setReplayMode true) core.ubs := by
    intro id hid hmem
    exact DeduplicationGuard.mem_settled hmem (fun hfull => hlast hfull id hid)
  obtain ⟨hall, hend⟩ := replay_follows ops hstart hwal hids hunseen hwrites hfits
  refine ⟨hall, fun u a => ⟨?_, ?_⟩⟩
  · rw [avail_eq_userFunds, avail_eq_userFunds, hend.funds]
  · rw [frozen_eq_userFunds, frozen_eq_userFunds, hend.funds]

/-- A core with a log, in which user 1 can buy asset 1 with asset 2. -/
def logging : DurableCore where
  ubs := UBSCore.new.registerSymbol 1 (1, 2)
  wal := some ⟨100, 65536, [], 0, []⟩
  orderTx := none

/-- User 1 buys at price 1. -/
def buyAtOne (orderId qty : UInt64) : LiveOp :=
  .order ⟨orderId, 1, 1, .buy, 1, qty, .limit⟩ 0 ⟨.ok (), .ok (), .ok ()⟩

/-- A run with an order that is accepted and one that is refused for lack of funds. -/
theorem replay_agrees_two_orders : ReplayAgrees Bincode.fixint logging
    [.other (.deposit 1 2 100 1), buyAtOne 7 60, buyAtOne 8 60] := by
  refine replay_agrees _ _ _ rfl (by decide) ?_ (fun hfull => absurd hfull (by decide)) ?_
  · refine ⟨trivial, fun _ wal hwal => ?_, fun hok => absurd hok (by decide), trivial⟩
    obtain rfl := Option.some.inj hwal
    decide
  · refine ⟨trivial, ?_, ?_, trivial⟩
    · intro a cost hrequest _
      obtain ⟨rfl, rfl⟩ : a = 2 ∧ cost = 60 := by
        have hval := hrequest.symm.trans (show _ = some (2, 60) by decide)
        simpa using hval
      decide
    · intro a cost hrequest hcov
      obtain ⟨rfl, rfl⟩ : a = 2 ∧ cost = 60 := by
        have hval := hrequest.symm.trans (show _ = some (2, 60) by decide)
        simpa using hval
      exact absurd hcov (by decide)

/-- The run in which user 1 freezes nearly all a word can hold, is given as much again and orders as
much again: the second order is refused, with its amount gone from the available funds. -/
def overflowRun : List LiveOp :=
  [.other (.deposit 1 2 0xFFFFFFFFFFFFFFFF 1), buyAtOne 7 0xFFFFFFFFFFFFFFFE,
    .other (.deposit 1 2 0xFFFFFFFFFFFFFFFE 2), buyAtOne 8 0xFFFFFFFFFFFFFFFE]

theorem refused_lock_not_replayed :
    (orderIds overflowRun).Nodup ∧
      (live Bincode.fixint).AllSteps (WritesSucceed Bincode.fixint) logging overflowRun ∧
      ¬ReplayAgrees Bincode.fixint logging overflowRun := by
  refine ⟨by decide, ⟨trivial, fun _ wal hwal => ?_, trivial, fun hok => ?_, trivial⟩, ?_⟩
  · obtain rfl := Option.some.inj hwal
    decide
  · exact absurd hok (by decide)
  · rintro ⟨-, hsame⟩
    exact absurd (hsame 1 2).1 (by decide)

end DurableCore

end ExchangeCore

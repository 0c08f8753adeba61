import ExchangeCore.Ubs.Batch

/-!
# Once accepted, never lost

Whether the answer to an order agrees with its effect, on the three ways an order is handled: on its
own (`handle_order`), in a batch (`process_batch`) and by `process_order_durable`.  A rejected order
must leave the funds alone; an accepted one must have its funds locked, its entry appended to the
log, and a flush covering the entry must have succeeded.

The funds are locked during the validation, before the log is written, and no path takes the lock
back.  `answers_agree_iff` lists what has to go right: an order that passes the checks and is
covered must not overflow the frozen funds, and its entry must be appended and flushed, or, where
the order is rejected for that, must have locked nothing.
-/

namespace ExchangeCore

/-- The funds after the lock of an order. -/
def UBSCore.LocksOrder (order : InternalOrder) (ubs ubs' : UBSCore) : Prop :=
  ∃ assets, ubs.assetMap.get? order.symbolId = some assets ∧
    ubs.userFunds.covers order.userId (order.lockAsset assets) order.calculateCost = true ∧
    ubs.userFunds.fits order.userId (order.lockAsset assets) order.calculateCost = true ∧
    ubs'.userFunds =
      ubs.userFunds.lock order.userId (order.lockAsset assets) order.calculateCost

namespace UBSCore

variable {ubs : UBSCore} {order : InternalOrder} {clock : UInt64} {a : UInt32} {cost : UInt64}

lemma lockRequest_eq_some (h : lockRequest order clock ubs = some (a, cost)) :
    ∃ assets, ubs.assetMap.get? order.symbolId = some assets ∧ a = order.lockAsset assets ∧
      cost = order.calculateCost := by
  unfold lockRequest at h
  split at h
  · exact absurd h (by simp)
  split at h
  · exact absurd h (by simp)
  split at h
  · exact absurd h (by simp)
  split at h
  · exact absurd h (by simp)
  obtain ⟨assets, hassets, heq⟩ := Option.map_eq_some_iff.mp h
  obtain ⟨rfl, rfl⟩ := Prod.mk.inj heq
  exact ⟨assets, hassets, rfl, rfl⟩

lemma locksOrder_of_some (h : lockRequest order clock ubs = some (a, cost))
    (hcov : ubs.userFunds.covers order.userId a cost = true)
    (hfits : ubs.userFunds.fits order.userId a cost = true) :
    LocksOrder order ubs (validateOrder order clock ubs).2 := by
  obtain ⟨assets, hassets, rfl, rfl⟩ := lockRequest_eq_some h
  refine ⟨assets, hassets, hcov, hfits, ?_⟩
  rw [(validateOrder_of_some h).2, UserFunds.afterLock, if_pos hcov, if_pos hfits]

end UBSCore

namespace UbsCoreHandler

/-- **The answer to an order agrees with its effect**, where `before` and `after` are the states
around it, and `log` the log when the answer is sent. -/
def Agrees (bincode : Bincode) (payload : Bytes) (before after : UbsCoreHandler) (log : MmapWal)
    (response : ResponseMessage) : Prop :=
  if response.accepted = 1 then
    ∃ order, orderOf payload = some order ∧
      UBSCore.LocksOrder order before.ubsCore after.ubsCore ∧
      log.entries[before.wal.entries.length]? = some (bincode.orderEntry order) ∧
      before.wal.entries.length < log.flushed
  else after.ubsCore.userFunds = before.ubsCore.userFunds

/-- **What has to go right** for an order in a state: if it passes the checks and is covered, then
the frozen funds have room, and its entry is appended and flushed, or its cost is nothing and the
log is full. -/
def Safe (bincode : Bincode) (flushOk : Bool) (item : Item) (h : UbsCoreHandler) : Prop :=
  ∀ order a cost, orderOf item.payload = some order →
    UBSCore.lockRequest order item.clock h.ubsCore = some (a, cost) →
    h.ubsCore.userFunds.covers order.userId a cost = true →
    h.ubsCore.userFunds.fits order.userId a cost = true ∧
      if h.wal.hasRoom (bincode.orderEntry order) then flushOk = true else cost = 0

variable {bincode : Bincode} {h : UbsCoreHandler} {item : Item}

/-! ## One order message -/

lemma safe_of_none {order : InternalOrder} (flushOk : Bool)
    (horder : orderOf item.payload = some order)
    (hreq : UBSCore.lockRequest order item.clock h.ubsCore = none) :
    Safe bincode flushOk item h := by
  intro order' a cost horder' hreq'
  obtain rfl := Option.some.inj (horder.symm.trans horder')
  rw [hreq] at hreq'
  exact absurd hreq' (by simp)

lemma safe_iff_of_some {order : InternalOrder} {a : UInt32} {cost : UInt64} (flushOk : Bool)
    (horder : orderOf item.payload = some order)
    (hreq : UBSCore.lockRequest order item.clock h.ubsCore = some (a, cost)) :
    Safe bincode flushOk item h ↔
      (h.ubsCore.userFunds.covers order.userId a cost = true →
        h.ubsCore.userFunds.fits order.userId a cost = true ∧
          if h.wal.hasRoom (bincode.orderEntry order) then flushOk = true else cost = 0) := by
  constructor
  · intro hsafe
    exact hsafe order a cost horder hreq
  · intro hsafe order' a' cost' horder' hreq'
    obtain rfl := Option.some.inj (horder.symm.trans horder')
    obtain ⟨rfl, rfl⟩ := Prod.mk.inj (Option.some.inj (hreq.symm.trans hreq'))
    exact hsafe

/-- A rejected order has left the funds alone exactly if nothing had to go right, or nothing was
locked. -/
lemma unchanged_iff_safe {order : InternalOrder} (flushOk : Bool)
    (horder : orderOf item.payload = some order)
    (hrejected : (UBSCore.validateOrder order item.clock h.ubsCore).1.isOk = false ∨
      h.wal.hasRoom (bincode.orderEntry order) = false) :
    (UBSCore.validateOrder order item.clock h.ubsCore).2.userFunds = h.ubsCore.userFunds ↔
      Safe bincode flushOk item h := by
  cases hreq : UBSCore.lockRequest order item.clock h.ubsCore with
  | none =>
      exact iff_of_true (UBSCore.validateOrder_of_none hreq).2 (safe_of_none flushOk horder hreq)
  | some request =>
      obtain ⟨a, cost⟩ := request
      obtain ⟨hok, hfunds⟩ := UBSCore.validateOrder_of_some hreq
      rw [hfunds, UserFunds.afterLock, safe_iff_of_some flushOk horder hreq]
      cases hcov : h.ubsCore.userFunds.covers order.userId a cost with
      | false => simp
      | true =>
          cases hfits : h.ubsCore.userFunds.fits order.userId a cost with
          | false =>
              have hne : cost ≠ 0 := by
                rintro rfl
                rw [UserFunds.fits_zero _ _ _ hcov] at hfits
                exact absurd hfits (by simp)
              simp [UserFunds.debit_eq_self_iff hcov, hne]
          | true =>
              rw [hcov, hfits] at hok
              have hfull : h.wal.hasRoom (bincode.orderEntry order) = false := by
                rcases hrejected with hr | hr
                · rw [hok] at hr
                  exact absurd hr (by simp)
                · exact hr
              simp [UserFunds.lock_eq_self_iff _ _ _ _ hcov, hfull]

lemma flushed_iff_safe {order : InternalOrder} (flushOk : Bool)
    (horder : orderOf item.payload = some order)
    (hok : (UBSCore.validateOrder order item.clock h.ubsCore).1.isOk = true)
    (hroom : h.wal.hasRoom (bincode.orderEntry order) = true) :
    UBSCore.LocksOrder order h.ubsCore (UBSCore.validateOrder order item.clock h.ubsCore).2 ∧
      (flushOk = true ↔ Safe bincode flushOk item h) := by
  cases hreq : UBSCore.lockRequest order item.clock h.ubsCore with
  | none =>
      rw [(UBSCore.validateOrder_of_none hreq).1] at hok
      exact absurd hok (by simp)
  | some request =>
      obtain ⟨a, cost⟩ := request
      have hboth := (UBSCore.validateOrder_of_some hreq).1
      rw [hok, eq_comm, Bool.and_eq_true] at hboth
      refine ⟨UBSCore.locksOrder_of_some hreq hboth.1 hboth.2, ?_⟩
      rw [safe_iff_of_some flushOk horder hreq]
      simp [hboth, hroom]

variable (bincode) in
/-- **One order message.**  If the log ends up with the entry where it was appended, and covered by
a flush exactly if `flushOk`, the answer agrees with the effect exactly if all goes right. -/
lemma agrees_iff_safe {body : Bytes} (hparse : parseMessage item.payload = some (.order, body))
    (log : MmapWal) (flushOk : Bool)
    (hlog : ∀ order, orderOf item.payload = some order →
      ProcessResult.isPending (h.processNoFlush bincode item.clock item.payload).2 = true →
        log.entries[h.wal.entries.length]? = some (bincode.orderEntry order) ∧
          (h.wal.entries.length < log.flushed ↔ flushOk = true))
    {after : UbsCoreHandler}
    (hafter : after.ubsCore = (h.processNoFlush bincode item.clock item.payload).1.ubsCore) :
    Agrees bincode item.payload h after log
        (respond (h.processNoFlush bincode item.clock item.payload).2) ↔
      Safe bincode flushOk item h := by
  rcases processNoFlush_order bincode (h := h) hparse with
    ⟨hnone, orderId, code, hrun⟩ | ⟨order, horder, hrun⟩
  · rw [hrun] at hafter ⊢
    simp [Agrees, respond, ResponseMessage.reject, Safe, hnone, hafter]
  · rw [hrun] at hafter hlog ⊢
    rcases admitOrder_cases bincode item.clock order h with
      ⟨code, hresult, hubs, hrejected⟩ | ⟨hresult, hubs, hok, hroom, -⟩
    · rw [hresult, ← unchanged_iff_safe flushOk horder hrejected]
      simp [Agrees, respond, ResponseMessage.reject, hafter, hubs]
    · obtain ⟨hlocks, hsafe⟩ := flushed_iff_safe flushOk horder hok hroom
      obtain ⟨hentry, hflushed⟩ := hlog order horder (by rw [hresult]; rfl)
      rw [hresult, ← hsafe, ← hflushed]
      simp [Agrees, respond, ResponseMessage.accept, horder, hafter, hubs, hlocks, hentry]

/-! ## The log -/

/-- Only orders are written to the log. -/
lemma handleOther_wal (msgType : MsgType) (body : Bytes) (h : UbsCoreHandler) :
    (h.handleOther msgType body).1.wal = h.wal := by
  unfold handleOther
  cases msgType with
  | order | query | response => rfl
  | cancel =>
      simp only [handleCancel]
      split
      · rfl
      split <;> rfl
  | deposit =>
      simp only [handleDeposit]
      split <;> rfl
  | withdraw =>
      simp only [handleWithdraw]
      split <;> rfl

variable (bincode) in
/-- An order is appended if it fits, and nothing is flushed. -/
lemma admitOrder_wal (clock : UInt64) (order : InternalOrder) (h : UbsCoreHandler) :
    (∃ suffix, (h.admitOrder bincode clock order).1.wal.entries = h.wal.entries ++ suffix) ∧
      (h.admitOrder bincode clock order).1.wal.flushed = h.wal.flushed := by
  unfold admitOrder
  split
  · exact ⟨⟨[], by simp⟩, rfl⟩
  cases hroom : h.wal.hasRoom (bincode.orderEntry order) with
  | false =>
      rw [MmapWal.append_of_full hroom]
      exact ⟨⟨[], by simp⟩, rfl⟩
  | true =>
      obtain ⟨happend, hentries, hflushed⟩ := MmapWal.append_of_room hroom
      rcases hrun : h.wal.append (bincode.orderEntry order) with ⟨r, wal⟩
      rw [hrun] at happend hentries hflushed
      obtain rfl : r = .ok () := happend
      exact ⟨⟨_, hentries⟩, hflushed⟩

variable (bincode) in
/-- Before the flush, the log only grows. -/
lemma processNoFlush_wal (clock : UInt64) (payload : Bytes) (h : UbsCoreHandler) :
    (∃ suffix, (h.processNoFlush bincode clock payload).1.wal.entries =
        h.wal.entries ++ suffix) ∧
      (h.processNoFlush bincode clock payload).1.wal.flushed = h.wal.flushed := by
  unfold processNoFlush
  cases hparse : parseMessage payload with
  | none => exact ⟨⟨[], by simp⟩, rfl⟩
  | some msg =>
      obtain ⟨msgType, body⟩ := msg
      cases msgType with
      | order =>
          show (∃ suffix, (h.handleOrderNoFlush bincode clock body).1.wal.entries =
            h.wal.entries ++ suffix) ∧
              (h.handleOrderNoFlush bincode clock body).1.wal.flushed = h.wal.flushed
          cases horder : orderOf payload with
          | none =>
              obtain ⟨orderId, code, heq⟩ := handleOrderNoFlush_of_none bincode
                (h := h) clock hparse horder
              rw [heq]
              exact ⟨⟨[], by simp⟩, rfl⟩
          | some order =>
              rw [handleOrderNoFlush_of_some hparse horder]
              exact admitOrder_wal bincode clock order h
      | cancel | query | deposit | withdraw | response =>
          simp only [handleOther_wal]
          exact ⟨⟨[], by simp⟩, trivial⟩

variable (bincode) in
lemma collect_wal (items : List Item) (h : UbsCoreHandler) :
    (∃ suffix, (h.collect bincode items).1.wal.entries = h.wal.entries ++ suffix) ∧
      (h.collect bincode items).1.wal.flushed = h.wal.flushed := by
  induction items generalizing h with
  | nil => exact ⟨⟨[], by simp [collect]⟩, rfl⟩
  | cons item items ih =>
      obtain ⟨⟨s₁, h₁⟩, hf₁⟩ := processNoFlush_wal bincode item.clock item.payload h
      obtain ⟨⟨s₂, h₂⟩, hf₂⟩ := ih (h.processNoFlush bincode item.clock item.payload).1
      refine ⟨⟨s₁ ++ s₂, ?_⟩, hf₂.trans hf₁⟩
      rw [← List.append_assoc, ← h₁]
      exact h₂

lemma collect_append (pre items : List Item) (h : UbsCoreHandler) :
    h.collect bincode (pre ++ items) =
      (((h.collect bincode pre).1.collect bincode items).1,
        (h.collect bincode pre).2 ++ ((h.collect bincode pre).1.collect bincode items).2) := by
  induction pre generalizing h with
  | nil => rfl
  | cons item pre ih => simp only [List.cons_append, collect, ih]

lemma length_collect (items : List Item) (h : UbsCoreHandler) :
    (h.collect bincode items).2.length = items.length := by
  induction items generalizing h with
  | nil => rfl
  | cons item items ih => simp only [collect, List.length_cons, ih]

/-! ## Single messages -/

variable (bincode) in
/-- An order that waits for the flush has been appended. -/
lemma processNoFlush_entry {body : Bytes} {order : InternalOrder}
    (hparse : parseMessage item.payload = some (.order, body))
    (horder : orderOf item.payload = some order)
    (hpending : ProcessResult.isPending
      (h.processNoFlush bincode item.clock item.payload).2 = true) :
    (h.processNoFlush bincode item.clock item.payload).1.wal.entries =
        h.wal.entries ++ [bincode.orderEntry order] ∧
      (h.processNoFlush bincode item.clock item.payload).1.wal.flushed = h.wal.flushed := by
  have hrun : h.processNoFlush bincode item.clock item.payload =
      h.admitOrder bincode item.clock order := by
    rcases processNoFlush_order bincode (h := h) hparse with
      ⟨hnone, -⟩ | ⟨order', horder', hrun⟩
    · rw [horder] at hnone
      exact absurd hnone (by simp)
    · obtain rfl := Option.some.inj (horder.symm.trans horder')
      exact hrun
  rw [hrun] at hpending ⊢
  rcases admitOrder_cases bincode item.clock order h with
    ⟨code, hresult, -⟩ | ⟨-, -, -, -, hentries, hflushed⟩
  · rw [hresult] at hpending
    exact absurd hpending (by simp [ProcessResult.isPending])
  · exact ⟨hentries, hflushed⟩

lemma flush_covers_iff {wal wal' : MmapWal} {n : ℕ} (hn : wal.entries.length ≤ n)
    (hentries : n < wal'.entries.length)
    (hflushed : wal'.flushed = wal.flushed) (flushOk : Bool) :
    n < (wal'.flush flushOk).flushed ↔ flushOk = true := by
  cases flushOk with
  | true =>
      simp only [MmapWal.flush, if_true, hentries]
  | false =>
      have hle := wal.flushed_le
      simp only [MmapWal.flush, Bool.false_eq_true, if_false, iff_false, not_lt, hflushed]
      omega

/-- The answer to an order message handled on its own agrees with its effect exactly if all goes
right. -/
lemma agrees_onMessage_iff {body : Bytes}
    (hparse : parseMessage item.payload = some (.order, body)) :
    Agrees bincode item.payload h
        (h.onMessage bincode item.clock item.flushOk item.payload).1
        (h.onMessage bincode item.clock item.flushOk item.payload).1.wal
        (h.onMessage bincode item.clock item.flushOk item.payload).2 ↔
      Safe bincode item.flushOk item h := by
  obtain ⟨hcore, hresponse, -⟩ := onMessage_spec bincode item h
  rw [hresponse]
  refine agrees_iff_safe _ hparse _ _ (fun order horder hpending => ?_)
    (congrArg (fun c => c.ubsCore) hcore)
  obtain ⟨hentries, hflushed⟩ := processNoFlush_entry _ hparse horder hpending
  have hwal : (h.onMessage bincode item.clock item.flushOk item.payload).1.wal =
      (h.processNoFlush bincode item.clock item.payload).1.wal.flush item.flushOk := by
    rw [onMessage_eq]
    rcases hrun : h.processNoFlush bincode item.clock item.payload with ⟨h', result⟩
    rw [hrun] at hpending
    cases result with
    | immediate response => exact absurd hpending (by simp [ProcessResult.isPending])
    | pending order response => rfl
  rw [hwal, MmapWal.flush_entries, hentries]
  refine ⟨by simp, ?_⟩
  exact flush_covers_iff (Nat.le_refl _) (by simp [hentries]) hflushed item.flushOk

/-- The answer to an order message handled on its own agrees with its effect. -/
def SingleAgrees (bincode : Bincode) (item : Item) (h : UbsCoreHandler) : Prop :=
  ∀ body, parseMessage item.payload = some (.order, body) →
    Agrees bincode item.payload h
      (h.onMessage bincode item.clock item.flushOk item.payload).1
      (h.onMessage bincode item.clock item.flushOk item.payload).1.wal
      (h.onMessage bincode item.clock item.flushOk item.payload).2

lemma safe_of_not_order (flushOk : Bool)
    (hparse : ∀ body, parseMessage item.payload ≠ some (.order, body)) :
    Safe bincode flushOk item h := by
  intro order a cost horder
  unfold orderOf at horder
  split at horder
  · rename_i body heq
    exact absurd heq (hparse body)
  · exact absurd horder (by simp)

lemma singleAgrees_iff (item : Item) (h : UbsCoreHandler) :
    SingleAgrees bincode item h ↔ Safe bincode item.flushOk item h := by
  by_cases hex : ∃ body, parseMessage item.payload = some (.order, body)
  · obtain ⟨body, hparse⟩ := hex
    rw [← agrees_onMessage_iff hparse]
    constructor
    · intro hagrees
      exact hagrees body hparse
    · intro hagrees _ _
      exact hagrees
  · have hnot : ∀ body, parseMessage item.payload ≠ some (.order, body) := by
      intro body heq
      exact hex ⟨body, heq⟩
    exact iff_of_true (fun body heq => absurd heq (hnot body)) (safe_of_not_order _ hnot)

/-! ## Batches -/

/-- The answers to the order messages of a batch agree with their effects: each has the state it
arrives in and the one it leaves, and the log when the answers are sent. -/
def BatchAgrees (bincode : Bincode) (flushOk : Bool) (items : List Item) (h : UbsCoreHandler) :
    Prop :=
  ∀ pre item post body, items = pre ++ item :: post →
    parseMessage item.payload = some (.order, body) →
    ∃ response, (h.processBatch bincode flushOk items).2[pre.length]? =
        some (item.correlationId, response) ∧
      Agrees bincode item.payload (h.collect bincode pre).1
        ((h.collect bincode pre).1.processNoFlush bincode item.clock item.payload).1
        (h.processBatch bincode flushOk items).1.wal response

/-- All goes right for every order message of a batch. -/
def BatchSafe (bincode : Bincode) (flushOk : Bool) (items : List Item) (h : UbsCoreHandler) :
    Prop :=
  ∀ pre item post body, items = pre ++ item :: post →
    parseMessage item.payload = some (.order, body) →
    Safe bincode flushOk item (h.collect bincode pre).1

lemma processBatch_log {pre post : List Item} {item : Item} {order : InternalOrder} {body : Bytes}
    (flushOk : Bool) (hparse : parseMessage item.payload = some (.order, body))
    (horder : orderOf item.payload = some order)
    (hpending : ProcessResult.isPending
      ((h.collect bincode pre).1.processNoFlush bincode item.clock item.payload).2 = true) :
    (h.processBatch bincode flushOk (pre ++ item :: post)).1.wal.entries[
        (h.collect bincode pre).1.wal.entries.length]? = some (bincode.orderEntry order) ∧
      ((h.collect bincode pre).1.wal.entries.length <
          (h.processBatch bincode flushOk (pre ++ item :: post)).1.wal.flushed ↔
        flushOk = true) := by
  generalize hs : (h.collect bincode pre).1 = s at hpending ⊢
  -- the state after the message has the entry, and later messages append to it
  obtain ⟨⟨s₂, hlater⟩, hflushed₂⟩ := collect_wal bincode post
    (s.processNoFlush bincode item.clock item.payload).1
  obtain ⟨⟨s₁, hbefore⟩, hflushed₁⟩ := collect_wal bincode pre h
  rw [hs] at hbefore hflushed₁
  have hentry := processNoFlush_entry bincode (h := s) hparse horder hpending
  -- so the batch is flushed
  have hcollect : h.collect bincode (pre ++ item :: post) =
      (((s.processNoFlush bincode item.clock item.payload).1.collect bincode post).1,
        (h.collect bincode pre).2 ++ ((item.correlationId,
          (s.processNoFlush bincode item.clock item.payload).2) ::
          ((s.processNoFlush bincode item.clock item.payload).1.collect bincode post).2)) := by
    rw [collect_append, hs]
    rfl
  have hany : (h.collect bincode (pre ++ item :: post)).2.any
      (fun r => ProcessResult.isPending r.2) = true := by
    rw [hcollect]
    simp [hpending]
  obtain ⟨-, -, hwal⟩ := flushBatch_spec flushOk (h.collect bincode (pre ++ item :: post)).2
    (h.collect bincode (pre ++ item :: post)).1
  obtain ⟨hstate, -⟩ := forwardBatch_spec (h.collect bincode (pre ++ item :: post)).2
    (flushBatch flushOk (h.collect bincode (pre ++ item :: post)).2
      (h.collect bincode (pre ++ item :: post)).1)
  rw [if_pos hany, hcollect] at hwal
  have hlog : (h.processBatch bincode flushOk (pre ++ item :: post)).1.wal =
      ((s.processNoFlush bincode item.clock item.payload).1.collect bincode post).1.wal.flush
        flushOk := by
    rw [hcollect] at hstate
    simp only [processBatch, hcollect, hstate, hwal]
  rw [hlog, MmapWal.flush_entries]
  refine ⟨by simp [hlater, hentry.1], ?_⟩
  have hlen : h.wal.entries.length ≤ s.wal.entries.length := by
    rw [hbefore, List.length_append]
    exact Nat.le_add_right _ _
  have hflushed : ((s.processNoFlush bincode item.clock item.payload).1.collect bincode
      post).1.wal.flushed = h.wal.flushed := by
    rw [hflushed₂, hentry.2, hflushed₁]
  exact flush_covers_iff hlen (by simp [hlater, hentry.1]) hflushed flushOk

lemma batchAgrees_iff (flushOk : Bool) (items : List Item) (h : UbsCoreHandler) :
    BatchAgrees bincode flushOk items h ↔ BatchSafe bincode flushOk items h := by
  refine forall_congr' (fun pre => forall_congr' (fun item => forall_congr' (fun post =>
    forall_congr' (fun body => forall_congr' (fun hitems => forall_congr' (fun hparse => ?_))))))
  subst hitems
  obtain ⟨-, hresponses⟩ := forwardBatch_spec (h.collect bincode (pre ++ item :: post)).2
    (flushBatch flushOk (h.collect bincode (pre ++ item :: post)).2
      (h.collect bincode (pre ++ item :: post)).1)
  have hresponse : (h.processBatch bincode flushOk (pre ++ item :: post)).2[pre.length]? =
      some (item.correlationId, respond
        ((h.collect bincode pre).1.processNoFlush bincode item.clock item.payload).2) := by
    simp only [processBatch, hresponses]
    rw [collect_append, List.map_append, List.getElem?_append_right (by simp [length_collect])]
    simp [length_collect, collect]
  have hiff := agrees_iff_safe bincode (h := (h.collect bincode pre).1) hparse
    (h.processBatch bincode flushOk (pre ++ item :: post)).1.wal flushOk
    (fun order horder hpending => processBatch_log flushOk hparse horder hpending) rfl
  rw [← hiff]
  constructor
  · rintro ⟨response, hsome, hagrees⟩
    obtain ⟨-, rfl⟩ := Prod.mk.inj (Option.some.inj (hresponse.symm.trans hsome))
    exact hagrees
  · intro hagrees
    exact ⟨_, hresponse, hagrees⟩

end UbsCoreHandler

/-! ## `process_order_durable` -/

namespace DurableCore

/-- The answer of `process_order_durable` agrees with its effect. -/
def Agrees (bincode : Bincode) (order : InternalOrder) (before after : DurableCore) :
    Except RejectReason Unit → Prop
  | .ok () => UBSCore.LocksOrder order before.ubs after.ubs ∧
      ∃ wal wal', before.wal = some wal ∧ after.wal = some wal' ∧
        wal'.written = wal.entries ++ [bincode.orderEntry order]
  | .error _ => after.ubs.userFunds = before.ubs.userFunds

/-- What has to go right: if the order passes the checks and is covered, then the frozen funds have
room, and there is a log, which appends and flushes the entry unless the cost is nothing. -/
def Safe (bincode : Bincode) (io : FlushIo) (order : InternalOrder) (clock : UInt64)
    (core : DurableCore) : Prop :=
  ∀ a cost, UBSCore.lockRequest order clock core.ubs = some (a, cost) →
    core.ubs.userFunds.covers order.userId a cost = true →
    core.ubs.userFunds.fits order.userId a cost = true ∧
      ∃ wal, core.wal = some wal ∧
        ((GroupCommitWal.appendAndFlush io (bincode.orderEntry order) wal).1.isOk = true ∨ cost = 0)

variable {bincode : Bincode}

variable (bincode) in
lemma processOrderDurable_of_refused (io : FlushIo) {order : InternalOrder} {clock : UInt64}
    {core : DurableCore} (h : (UBSCore.validateOrder order clock core.ubs).1.isOk = false) :
    ∃ e, processOrderDurable bincode io order clock core =
      (.error e, { core with ubs := (UBSCore.validateOrder order clock core.ubs).2 }) := by
  unfold processOrderDurable
  rcases hrun : UBSCore.validateOrder order clock core.ubs with ⟨r, ubs⟩
  rw [hrun] at h
  cases r with
  | error reason => exact ⟨reason, rfl⟩
  | ok _ => exact absurd h (by simp)

/-- The log of a validated order decides the answer. -/
lemma agrees_of_validated {io : FlushIo} {order : InternalOrder} {clock : UInt64}
    {core : DurableCore} (h : (UBSCore.validateOrder order clock core.ubs).1.isOk = true)
    (hlocks : UBSCore.LocksOrder order core.ubs (UBSCore.validateOrder order clock core.ubs).2) :
    Agrees bincode order core (processOrderDurable bincode io order clock core).2
        (processOrderDurable bincode io order clock core).1 ↔
      ∃ wal, core.wal = some wal ∧
        ((GroupCommitWal.appendAndFlush io (bincode.orderEntry order) wal).1.isOk = true ∨
          (UBSCore.validateOrder order clock core.ubs).2.userFunds = core.ubs.userFunds) := by
  unfold processOrderDurable
  rcases hrun : UBSCore.validateOrder order clock core.ubs with ⟨r, ubs⟩
  rw [hrun] at h hlocks
  cases r with
  | error reason => exact absurd h (by simp)
  | ok _ =>
      cases hwal : core.wal with
      | none => simp [Agrees, hwal]
      | some wal =>
          rcases happend : GroupCommitWal.appendAndFlush io (bincode.orderEntry order) wal with
            ⟨r, wal'⟩
          cases r with
          | error e =>
              simp only [happend, Agrees]
              constructor
              · intro hsame
                exact ⟨wal, rfl, Or.inr hsame⟩
              · rintro ⟨wal'', hsome, hcase⟩
                obtain rfl := Option.some.inj hsome
                rw [happend] at hcase
                exact hcase.resolve_left (by simp)
          | ok _ =>
              have hwritten := GroupCommitWal.appendAndFlush_ensures io (bincode.orderEntry order)
                wal _ _ happend
              simp only [happend, Agrees]
              constructor
              · intro _
                exact ⟨wal, rfl, Or.inl (by rw [happend]; rfl)⟩
              · intro _
                exact ⟨hlocks, wal, wal', hwal, rfl, hwritten.1⟩

lemma agrees_iff (io : FlushIo) (order : InternalOrder) (clock : UInt64) (core : DurableCore) :
    Agrees bincode order core (processOrderDurable bincode io order clock core).2
        (processOrderDurable bincode io order clock core).1 ↔
      Safe bincode io order clock core := by
  have hrefused : (UBSCore.validateOrder order clock core.ubs).1.isOk = false →
      (Agrees bincode order core (processOrderDurable bincode io order clock core).2
          (processOrderDurable bincode io order clock core).1 ↔
        (UBSCore.validateOrder order clock core.ubs).2.userFunds = core.ubs.userFunds) := by
    intro hok
    obtain ⟨e, hrun⟩ := processOrderDurable_of_refused bincode io hok
    rw [hrun]
    rfl
  cases hreq : UBSCore.lockRequest order clock core.ubs with
  | none =>
      obtain ⟨hok, hfunds⟩ := UBSCore.validateOrder_of_none hreq
      rw [hrefused hok]
      refine iff_of_true hfunds (fun a cost hsome => ?_)
      rw [hreq] at hsome
      exact absurd hsome (by simp)
  | some request =>
      obtain ⟨a, cost⟩ := request
      obtain ⟨hok, hfunds⟩ := UBSCore.validateOrder_of_some hreq
      have hsafe : Safe bincode io order clock core ↔
          (core.ubs.userFunds.covers order.userId a cost = true →
            core.ubs.userFunds.fits order.userId a cost = true ∧ ∃ wal, core.wal = some wal ∧
              ((GroupCommitWal.appendAndFlush io (bincode.orderEntry order) wal).1.isOk = true ∨
                cost = 0)) := by
        constructor
        · intro h
          exact h a cost hreq
        · intro h a' cost' hreq'
          obtain ⟨rfl, rfl⟩ := Prod.mk.inj (Option.some.inj (hreq.symm.trans hreq'))
          exact h
      rw [hsafe]
      cases hcov : core.ubs.userFunds.covers order.userId a cost with
      | false =>
          rw [hcov, Bool.false_and] at hok
          rw [hrefused hok, hfunds, UserFunds.afterLock, hcov]
          simp
      | true =>
          cases hfits : core.ubs.userFunds.fits order.userId a cost with
          | false =>
              -- an account that is short of nothing cannot lack room
              have hne : cost ≠ 0 := by
                rintro rfl
                rw [UserFunds.fits_zero _ _ _ hcov] at hfits
                exact absurd hfits (by simp)
              rw [hcov, hfits] at hok
              rw [hrefused hok, hfunds, UserFunds.afterLock, hcov, hfits]
              simp [UserFunds.debit_eq_self_iff hcov, hne]
          | true =>
              rw [hcov, hfits] at hok
              -- validated: the funds and the log must agree that the lock has been taken
              rw [agrees_of_validated hok (UBSCore.locksOrder_of_some hreq hcov hfits), hfunds,
                UserFunds.afterLock, hcov, hfits, if_pos rfl, if_pos rfl,
                UserFunds.lock_eq_self_iff _ _ _ _ hcov]
              simp

end DurableCore

/-- **Answers and effects.**  On each of the three ways, the answers to orders agree with their
effects exactly if all goes right: every order that passes the checks and is covered fits into the
frozen funds, and is appended to the log and flushed, or has locked nothing where the failure to
append or to flush rejects it. -/
theorem answers_agree_iff (bincode : Bincode) :
    (∀ (h : UbsCoreHandler) (item : Item),
      UbsCoreHandler.SingleAgrees bincode item h ↔
        UbsCoreHandler.Safe bincode item.flushOk item h) ∧
    (∀ (h : UbsCoreHandler) (items : List Item) (flushOk : Bool),
      UbsCoreHandler.BatchAgrees bincode flushOk items h ↔
        UbsCoreHandler.BatchSafe bincode flushOk items h) ∧
    ∀ (core : DurableCore) (io : FlushIo) (order : InternalOrder) (clock : UInt64),
      DurableCore.Agrees bincode order core
          (DurableCore.processOrderDurable bincode io order clock core).2
          (DurableCore.processOrderDurable bincode io order clock core).1 ↔
        DurableCore.Safe bincode io order clock core :=
  ⟨fun h item => UbsCoreHandler.singleAgrees_iff item h,
    fun h items flushOk => UbsCoreHandler.batchAgrees_iff flushOk items h,
    fun core io order clock => DurableCore.agrees_iff io order clock core⟩

/-- The order of `buyPayload`. -/
def buyOrder : InternalOrder := ⟨7, 1, 1, .buy, 50, 4, .limit⟩

/-- Each path fails: an order that finds the log full is rejected with its funds locked, an order of
a batch whose flush fails is accepted, and `process_order_durable` answers a failed flush with an
error and leaves the funds locked. -/
theorem half_done_orders :
    ¬UbsCoreHandler.SingleAgrees Bincode.fixint ⟨10, UbsCoreHandler.buyPayload, 0, true⟩
        { UbsCoreHandler.funded with wal := ⟨8, 0, [], 0, Nat.le_refl _⟩ } ∧
      ¬UbsCoreHandler.BatchAgrees Bincode.fixint false
        [⟨10, UbsCoreHandler.buyPayload, 0, false⟩] UbsCoreHandler.funded ∧
      ¬DurableCore.Agrees Bincode.fixint buyOrder
        ⟨UbsCoreHandler.funded.ubsCore, some ⟨100, 65536, [], 0, []⟩, none⟩
        (DurableCore.processOrderDurable Bincode.fixint
          ⟨.ok (), .ok (), .error "I/O error"⟩ buyOrder 0
          ⟨UbsCoreHandler.funded.ubsCore, some ⟨100, 65536, [], 0, []⟩, none⟩).2
        (DurableCore.processOrderDurable Bincode.fixint
          ⟨.ok (), .ok (), .error "I/O error"⟩ buyOrder 0
          ⟨UbsCoreHandler.funded.ubsCore, some ⟨100, 65536, [], 0, []⟩, none⟩).1 := by
  -- user 1's amounts of asset 2, where two states are said to have the same funds
  have hamounts : ∀ {f f' : UserFunds}, f' = f →
      (f'.holdings 1).map (fun h => h 2) = (f.holdings 1).map (fun h => h 2) := by
    rintro f _ rfl
    rfl
  refine ⟨fun hagrees => ?_, fun hagrees => ?_, fun hagrees => ?_⟩
  · have hsame := hagrees _ rfl
    rw [UbsCoreHandler.Agrees, if_neg (by decide)] at hsame
    exact absurd (hamounts hsame) (by decide)
  · obtain ⟨response, hresponse, hflushed⟩ := hagrees [] _ [] _ rfl rfl
    obtain rfl : response = .accept 7 := by
      have hval : (UbsCoreHandler.funded.processBatch Bincode.fixint false
          [⟨10, UbsCoreHandler.buyPayload, 0, false⟩]).2 = [(10, .accept 7)] := by decide
      rw [hval] at hresponse
      simpa using hresponse.symm
    rw [UbsCoreHandler.Agrees, if_pos (by decide)] at hflushed
    obtain ⟨-, -, -, -, hlt⟩ := hflushed
    exact absurd hlt (by decide)
  · exact absurd (hamounts hagrees) (by decide)

end ExchangeCore

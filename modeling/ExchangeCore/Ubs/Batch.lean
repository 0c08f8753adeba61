import ExchangeCore.Ubs.Dispatch

/-!
# Batches

`process_batch` against `on_message` on the payloads one by one.  What an order does before the
flush reads neither how much of the log is flushed nor what has been sent (`core`), so the two
runs go through the same states, up to these two, and give the same responses
(`collect_eq_singles`).

They differ in the order of the calls of `send`.  One by one, cancels and orders are sent in the
order they arrive; in a batch, the cancels are sent in the first phase and the orders in the last.
`processBatch_sends_eq_singles_iff` says when the calls are the same all the same.  No record of
either gets on the topic, as both drop the future of every call (`processBatch_eq_singles`).
-/

namespace ExchangeCore

namespace UbsCoreHandler

variable {bincode : Bincode} {h : UbsCoreHandler}

/-! ## Orders and cancels in payloads -/

/-- The order in a payload. -/
def orderOf (payload : Bytes) : Option InternalOrder :=
  match parseMessage payload with
  | some (.order, body) =>
      (OrderMessage.fromBytes body).bind (fun msg => msg.toInternalOrder.toOption)
  | _ => none

/-- The user and the order of a cancel in a payload. -/
def cancelOf (payload : Bytes) : Option (UInt64 × UInt64) :=
  match parseMessage payload with
  | some (.cancel, body) =>
      if body.length < 16 then none else some (body.u64At 0, body.u64At 8)
  | _ => none

/-- An order that passes every check: the ones of `validate_order`, the lock, and the room in the
log. -/
def Admits (bincode : Bincode) (h : UbsCoreHandler) (item : Item) : Prop :=
  ∃ order a cost, orderOf item.payload = some order ∧
    UBSCore.lockRequest order item.clock h.ubsCore = some (a, cost) ∧
    h.ubsCore.userFunds.covers order.userId a cost = true ∧
    h.ubsCore.userFunds.fits order.userId a cost = true ∧
    h.wal.hasRoom (bincode.orderEntry order) = true

/-- What happens to an order up to the flush. -/
def admitOrder (bincode : Bincode) (clock : UInt64) (order : InternalOrder) (h : UbsCoreHandler) :
    UbsCoreHandler × ProcessResult :=
  match UBSCore.validateOrder order clock h.ubsCore with
  | (.error reason, ubsCore) =>
      ({ h with ubsCore := ubsCore }, .immediate (.reject order.orderId reason.code))
  | (.ok (), ubsCore) =>
      match h.wal.append (bincode.orderEntry order) with
      | (.error _, wal) =>
          ({ h with ubsCore := ubsCore, wal := wal },
            .immediate (.reject order.orderId INTERNAL_ERROR))
      | (.ok (), wal) =>
          ({ h with ubsCore := ubsCore, wal := wal }, .pending order (.accept order.orderId))

lemma orderId_of_toInternalOrder {msg : OrderMessage} {order : InternalOrder}
    (h : msg.toInternalOrder = .ok order) : order.orderId = msg.orderId := by
  unfold OrderMessage.toInternalOrder at h
  split at h
  · exact absurd h (by simp)
  split at h
  · exact absurd h (by simp)
  obtain rfl := Except.ok.inj h
  rfl

variable (bincode) in
lemma handleOrderNoFlush_of_none (clock : UInt64) {payload body : Bytes}
    (hparse : parseMessage payload = some (.order, body)) (hnone : orderOf payload = none) :
    ∃ orderId code,
      h.handleOrderNoFlush bincode clock body = (h, .immediate (.reject orderId code)) := by
  unfold handleOrderNoFlush
  cases hmsg : OrderMessage.fromBytes body with
  | none => exact ⟨_, _, rfl⟩
  | some msg =>
      cases horder : msg.toInternalOrder with
      | error e =>
          simp only [horder]
          exact ⟨_, _, rfl⟩
      | ok order => simp [orderOf, hparse, hmsg, horder, Except.toOption] at hnone

lemma handleOrderNoFlush_of_some {clock : UInt64} {payload body : Bytes} {order : InternalOrder}
    (hparse : parseMessage payload = some (.order, body)) (hsome : orderOf payload = some order) :
    h.handleOrderNoFlush bincode clock body = h.admitOrder bincode clock order := by
  unfold handleOrderNoFlush
  cases hmsg : OrderMessage.fromBytes body with
  | none => simp [orderOf, hparse, hmsg] at hsome
  | some msg =>
      cases horder : msg.toInternalOrder with
      | error e => simp [orderOf, hparse, hmsg, horder, Except.toOption] at hsome
      | ok order' =>
          obtain rfl : order' = order := by
            simpa [orderOf, hparse, hmsg, horder, Except.toOption] using hsome
          simp only [horder, ← orderId_of_toInternalOrder horder]
          rfl

/-- The single-message path is the batch path, and then the flush and the call of `send`. -/
lemma handleOrder_eq (clock : UInt64) (flushOk : Bool) (body : Bytes) (h : UbsCoreHandler) :
    h.handleOrder bincode clock flushOk body =
      match h.handleOrderNoFlush bincode clock body with
      | (h', .immediate response) => (h', response)
      | (h', .pending order response) =>
          (({ h' with wal := h'.wal.flush flushOk } : UbsCoreHandler).send (.order order),
            response) := by
  unfold handleOrder handleOrderNoFlush
  cases OrderMessage.fromBytes body with
  | none => rfl
  | some msg =>
      cases horder : msg.toInternalOrder with
      | error e => simp only [horder]
      | ok order =>
          simp only [horder, orderId_of_toInternalOrder horder]
          rcases UBSCore.validateOrder order clock h.ubsCore with ⟨r, ubsCore⟩
          cases r with
          | error reason => rfl
          | ok _ =>
              rcases h.wal.append (bincode.orderEntry order) with ⟨r, wal⟩
              cases r <;> rfl

lemma onMessage_eq (clock : UInt64) (flushOk : Bool) (payload : Bytes) (h : UbsCoreHandler) :
    h.onMessage bincode clock flushOk payload =
      match h.processNoFlush bincode clock payload with
      | (h', .immediate response) => (h', response)
      | (h', .pending order response) =>
          (({ h' with wal := h'.wal.flush flushOk } : UbsCoreHandler).send (.order order),
            response) := by
  unfold onMessage processNoFlush
  cases parseMessage payload with
  | none => rfl
  | some msg =>
      obtain ⟨msgType, body⟩ := msg
      cases msgType with
      | order => exact handleOrder_eq clock flushOk body h
      | cancel | query | deposit | withdraw | response => rfl

/-! ## When an order is accepted -/

variable (bincode) in
/-- How an order message ends, before the flush: rejected with the state as it was, or with the
order in it admitted. -/
lemma processNoFlush_order {item : Item} {body : Bytes}
    (hparse : parseMessage item.payload = some (.order, body)) :
    (orderOf item.payload = none ∧ ∃ orderId code,
        h.processNoFlush bincode item.clock item.payload =
          (h, .immediate (.reject orderId code))) ∨
      ∃ order, orderOf item.payload = some order ∧
        h.processNoFlush bincode item.clock item.payload =
          h.admitOrder bincode item.clock order := by
  have hrun : h.processNoFlush bincode item.clock item.payload =
      h.handleOrderNoFlush bincode item.clock body := by
    simp only [processNoFlush, hparse]
  rw [hrun]
  cases horder : orderOf item.payload with
  | none =>
      exact Or.inl ⟨rfl, handleOrderNoFlush_of_none _ _ hparse horder⟩
  | some order =>
      exact Or.inr ⟨order, rfl, handleOrderNoFlush_of_some hparse horder⟩

variable (bincode) in
/-- The ways an admission ends. -/
lemma admitOrder_cases (clock : UInt64) (order : InternalOrder) (h : UbsCoreHandler) :
    (∃ code, (h.admitOrder bincode clock order).2 = .immediate (.reject order.orderId code) ∧
        (h.admitOrder bincode clock order).1.ubsCore =
          (UBSCore.validateOrder order clock h.ubsCore).2 ∧
        ((UBSCore.validateOrder order clock h.ubsCore).1.isOk = false ∨
          h.wal.hasRoom (bincode.orderEntry order) = false)) ∨
      ((h.admitOrder bincode clock order).2 = .pending order (.accept order.orderId) ∧
        (h.admitOrder bincode clock order).1.ubsCore =
          (UBSCore.validateOrder order clock h.ubsCore).2 ∧
        (UBSCore.validateOrder order clock h.ubsCore).1.isOk = true ∧
        h.wal.hasRoom (bincode.orderEntry order) = true ∧
        (h.admitOrder bincode clock order).1.wal.entries =
          h.wal.entries ++ [bincode.orderEntry order] ∧
        (h.admitOrder bincode clock order).1.wal.flushed = h.wal.flushed) := by
  unfold admitOrder
  rcases UBSCore.validateOrder order clock h.ubsCore with ⟨r, ubsCore⟩
  cases r with
  | error reason => exact Or.inl ⟨_, rfl, rfl, Or.inl rfl⟩
  | ok _ =>
      cases hroom : h.wal.hasRoom (bincode.orderEntry order) with
      | false =>
          rw [MmapWal.append_of_full hroom]
          exact Or.inl ⟨_, rfl, rfl, Or.inr rfl⟩
      | true =>
          obtain ⟨happend, hentries, hflushed⟩ := MmapWal.append_of_room hroom
          rcases hrun : h.wal.append (bincode.orderEntry order) with ⟨r, wal⟩
          rw [hrun] at happend hentries hflushed
          obtain rfl : r = .ok () := happend
          exact Or.inr ⟨rfl, rfl, rfl, rfl, hentries, hflushed⟩

/-- The response waits for the flush exactly if the order passes every check. -/
lemma isPending_admitOrder_iff (clock : UInt64) (order : InternalOrder) (h : UbsCoreHandler) :
    ProcessResult.isPending (h.admitOrder bincode clock order).2 = true ↔
      ∃ a cost, UBSCore.lockRequest order clock h.ubsCore = some (a, cost) ∧
        h.ubsCore.userFunds.covers order.userId a cost = true ∧
        h.ubsCore.userFunds.fits order.userId a cost = true ∧
        h.wal.hasRoom (bincode.orderEntry order) = true := by
  have hresult : ProcessResult.isPending (h.admitOrder bincode clock order).2 =
      ((UBSCore.validateOrder order clock h.ubsCore).1.isOk &&
        h.wal.hasRoom (bincode.orderEntry order)) := by
    rcases admitOrder_cases bincode clock order h with
      ⟨_, hresult, -, hrefused⟩ | ⟨hresult, -, hok, hroom, -⟩
    · rw [hresult]
      rcases hrefused with hok | hroom
      · rw [hok]
        rfl
      · rw [hroom, Bool.and_false]
        rfl
    · rw [hresult, hok, hroom]
      rfl
  rw [hresult, Bool.and_eq_true]
  cases hreq : UBSCore.lockRequest order clock h.ubsCore with
  | none =>
      obtain ⟨hok, -⟩ := UBSCore.validateOrder_of_none hreq
      simp [hok]
  | some request =>
      obtain ⟨a, cost⟩ := request
      obtain ⟨hok, -⟩ := UBSCore.validateOrder_of_some hreq
      rw [hok, Bool.and_eq_true]
      constructor
      · rintro ⟨⟨hcov, hfits⟩, hroom⟩
        exact ⟨a, cost, rfl, hcov, hfits, hroom⟩
      · rintro ⟨a', cost', heq, hcov, hfits, hroom⟩
        obtain ⟨rfl, rfl⟩ := Prod.mk.inj (Option.some.inj heq)
        exact ⟨⟨hcov, hfits⟩, hroom⟩

variable (bincode) in
lemma isPending_processNoFlush_iff (h : UbsCoreHandler) (item : Item) :
    ProcessResult.isPending (h.processNoFlush bincode item.clock item.payload).2 = true ↔
      h.Admits bincode item := by
  cases hparse : parseMessage item.payload with
  | none =>
      have hnone : orderOf item.payload = none := by simp [orderOf, hparse]
      simp [processNoFlush, hparse, Admits, hnone, ProcessResult.isPending]
  | some msg =>
      obtain ⟨msgType, body⟩ := msg
      by_cases htype : msgType = .order
      · subst htype
        have hrun : h.processNoFlush bincode item.clock item.payload =
            h.handleOrderNoFlush bincode item.clock body := by
          simp only [processNoFlush, hparse]
        rw [hrun]
        cases horder : orderOf item.payload with
        | none =>
            obtain ⟨orderId, code, heq⟩ := handleOrderNoFlush_of_none bincode (h := h)
              item.clock hparse horder
            simp [heq, Admits, horder, ProcessResult.isPending]
        | some order =>
            rw [handleOrderNoFlush_of_some hparse horder, isPending_admitOrder_iff]
            simp [Admits, horder]
      · have hnone : orderOf item.payload = none := by
          cases msgType <;> first | exact absurd rfl htype | simp [orderOf, hparse]
        have himm : ProcessResult.isPending
            (h.processNoFlush bincode item.clock item.payload).2 = false := by
          cases msgType <;>
            first | exact absurd rfl htype | simp [processNoFlush, hparse, ProcessResult.isPending]
        simp [himm, Admits, hnone]

/-! ## What a batch does not read -/

/-- A producer that has sent nothing, if there is one. -/
def blank (sends : Option (List ValidatedRecord)) : Option (List ValidatedRecord) :=
  sends.map (fun _ => [])

@[simp] lemma blank_some (records : List ValidatedRecord) : blank (some records) = some [] := rfl

@[simp] lemma blank_none : blank none = none := rfl

@[simp] lemma blank_blank (sends : Option (List ValidatedRecord)) :
    blank (blank sends) = blank sends := by
  cases sends <;> rfl

/-- The handler without what has been flushed and sent. -/
def core (h : UbsCoreHandler) : UbsCoreHandler where
  ubsCore := h.ubsCore
  wal := { h.wal with flushed := 0, flushed_le := Nat.zero_le _ }
  sends := blank h.sends

@[simp] lemma core_core (h : UbsCoreHandler) : h.core.core = h.core := by simp [core]

/-- What a message sends before the flush. -/
def cancelRecords (payload : Bytes) : List ValidatedRecord :=
  (cancelOf payload).toList.map (fun c => .cancel c.1 c.2)

/-- What a result sends after the flush. -/
def orderRecords : ProcessResult → List ValidatedRecord
  | .pending order _ => [.order order]
  | .immediate _ => []

lemma append_core (entry : WalEntry) (h : UbsCoreHandler) :
    (h.core.wal.append entry).1 = (h.wal.append entry).1 ∧
      ∀ ubsCore sends, core ⟨ubsCore, (h.core.wal.append entry).2, sends⟩ =
        core ⟨ubsCore, (h.wal.append entry).2, sends⟩ := by
  by_cases hfull : h.wal.cursor + entry.serializedLen > h.wal.size
  · have hfull' : h.core.wal.cursor + entry.serializedLen > h.core.wal.size := hfull
    rw [MmapWal.append, if_pos hfull', MmapWal.append, if_pos hfull]
    exact ⟨rfl, fun _ _ => rfl⟩
  · have hfull' : ¬h.core.wal.cursor + entry.serializedLen > h.core.wal.size := hfull
    rw [MmapWal.append, if_neg hfull', MmapWal.append, if_neg hfull]
    exact ⟨rfl, fun _ _ => rfl⟩

lemma handleOther_core (msgType : MsgType) (body : Bytes) (h : UbsCoreHandler) :
    (h.core.handleOther msgType body).2 = (h.handleOther msgType body).2 ∧
      (h.core.handleOther msgType body).1.core = (h.handleOther msgType body).1.core := by
  have hidem := h.core_core
  unfold handleOther
  cases msgType with
  | order | query | response => exact ⟨rfl, hidem⟩
  | cancel =>
      simp only [handleCancel]
      split
      · exact ⟨rfl, hidem⟩
      · have hpub : h.core.sends = blank h.sends := rfl
        rw [hpub]
        cases hp : h.sends with
        | none => exact ⟨rfl, hidem⟩
        | some records =>
            refine ⟨rfl, ?_⟩
            simp [core, send, hp]
  | deposit =>
      simp only [handleDeposit]
      cases FundsMessage.fromBytes body with
      | none => exact ⟨rfl, hidem⟩
      | some msg =>
          refine ⟨rfl, ?_⟩
          simp [core]
  | withdraw =>
      simp only [handleWithdraw]
      cases FundsMessage.fromBytes body with
      | none => exact ⟨rfl, hidem⟩
      | some msg =>
          refine ⟨rfl, ?_⟩
          simp [core]

variable (bincode) in
lemma handleOrderNoFlush_core (clock : UInt64) (body : Bytes) (h : UbsCoreHandler) :
    (h.core.handleOrderNoFlush bincode clock body).2 =
        (h.handleOrderNoFlush bincode clock body).2 ∧
      (h.core.handleOrderNoFlush bincode clock body).1.core =
        (h.handleOrderNoFlush bincode clock body).1.core := by
  have hidem := h.core_core
  simp only [handleOrderNoFlush]
  cases OrderMessage.fromBytes body with
  | none => exact ⟨rfl, hidem⟩
  | some msg =>
      simp only
      cases msg.toInternalOrder with
      | error e => exact ⟨rfl, hidem⟩
      | ok order =>
          obtain ⟨hanswer, hcore⟩ := append_core (bincode.orderEntry order) h
          have hubs : h.core.ubsCore = h.ubsCore := rfl
          simp only [hubs]
          rcases UBSCore.validateOrder order clock h.ubsCore with ⟨r, ubsCore⟩
          cases r with
          | error reason =>
              refine ⟨rfl, ?_⟩
              simp [core]
          | ok _ =>
              rcases hrun : h.core.wal.append (bincode.orderEntry order) with ⟨r, wal⟩
              rcases hrun' : h.wal.append (bincode.orderEntry order) with ⟨r', wal'⟩
              rw [hrun, hrun'] at hanswer hcore
              obtain rfl : r = r' := hanswer
              have hpub : ∀ wal, core ⟨ubsCore, wal, h.core.sends⟩ =
                  core ⟨ubsCore, wal, h.sends⟩ := by
                intro wal
                simp [core]
              cases r with
              | error e => exact ⟨rfl, (hpub wal).trans (hcore _ _)⟩
              | ok _ => exact ⟨rfl, (hpub wal).trans (hcore _ _)⟩

variable (bincode) in
lemma processNoFlush_core (clock : UInt64) (payload : Bytes) (h : UbsCoreHandler) :
    (h.core.processNoFlush bincode clock payload).2 = (h.processNoFlush bincode clock payload).2 ∧
      (h.core.processNoFlush bincode clock payload).1.core =
        (h.processNoFlush bincode clock payload).1.core := by
  unfold processNoFlush
  cases parseMessage payload with
  | none => exact ⟨rfl, h.core_core⟩
  | some msg =>
      obtain ⟨msgType, body⟩ := msg
      obtain ⟨hresponse, hcore⟩ := handleOther_core msgType body h
      cases msgType with
      | order => exact handleOrderNoFlush_core bincode clock body h
      | cancel | query | deposit | withdraw | response =>
          exact ⟨congrArg ProcessResult.immediate hresponse, hcore⟩

variable (bincode) in
lemma processNoFlush_congr {s t : UbsCoreHandler} (hst : s.core = t.core) (clock : UInt64)
    (payload : Bytes) :
    (s.processNoFlush bincode clock payload).2 = (t.processNoFlush bincode clock payload).2 ∧
      (s.processNoFlush bincode clock payload).1.core =
        (t.processNoFlush bincode clock payload).1.core := by
  obtain ⟨hs₁, hs₂⟩ := processNoFlush_core bincode clock payload s
  obtain ⟨ht₁, ht₂⟩ := processNoFlush_core bincode clock payload t
  rw [hst] at hs₁ hs₂
  exact ⟨hs₁.symm.trans ht₁, hs₂.symm.trans ht₂⟩

variable (bincode) in
lemma processNoFlush_sends (clock : UInt64) (payload : Bytes) (h : UbsCoreHandler) :
    (h.processNoFlush bincode clock payload).1.sends =
      h.sends.map (· ++ cancelRecords payload) := by
  -- every message but a whole cancel sends nothing
  have hnone : ∀ payload, cancelOf payload = none →
      h.sends = h.sends.map (· ++ cancelRecords payload) := by
    intro payload hcancel
    simp [cancelRecords, hcancel]
  unfold processNoFlush
  cases hparse : parseMessage payload with
  | none => exact hnone payload (by simp [cancelOf, hparse])
  | some msg =>
      obtain ⟨msgType, body⟩ := msg
      cases msgType with
      | query | response => exact hnone payload (by simp [cancelOf, hparse])
      | order =>
          rw [← hnone payload (by simp [cancelOf, hparse])]
          simp only [handleOrderNoFlush]
          split
          · rfl
          split
          · rfl
          split
          · rfl
          split <;> rfl
      | deposit =>
          rw [← hnone payload (by simp [cancelOf, hparse])]
          simp only [handleOther, handleDeposit]
          split <;> rfl
      | withdraw =>
          rw [← hnone payload (by simp [cancelOf, hparse])]
          simp only [handleOther, handleWithdraw]
          split <;> rfl
      | cancel =>
          simp only [handleOther, handleCancel]
          by_cases hlen : body.length < 16
          · rw [if_pos hlen]
            exact hnone payload (by simp [cancelOf, hparse, hlen])
          · rw [if_neg hlen]
            cases hp : h.sends with
            | none => simp [hp]
            | some records => simp [send, hp, cancelRecords, cancelOf, hparse, hlen]

/-! ## The two runs -/

/-- The response of a result. -/
def respond : ProcessResult → ResponseMessage
  | .pending _ response => response
  | .immediate response => response

/-- What is sent one by one, in the order the messages arrive. -/
def arrivals (bincode : Bincode) (h : UbsCoreHandler) : List Item → List ValidatedRecord
  | [] => []
  | item :: items =>
      let r := h.processNoFlush bincode item.clock item.payload
      cancelRecords item.payload ++ (orderRecords r.2 ++ arrivals bincode r.1 items)

variable (bincode) in
lemma onMessage_spec (item : Item) (h : UbsCoreHandler) :
    (h.onMessage bincode item.clock item.flushOk item.payload).1.core =
        (h.processNoFlush bincode item.clock item.payload).1.core ∧
      (h.onMessage bincode item.clock item.flushOk item.payload).2 =
        respond (h.processNoFlush bincode item.clock item.payload).2 ∧
      (h.onMessage bincode item.clock item.flushOk item.payload).1.sends =
        h.sends.map (· ++ (cancelRecords item.payload ++
          orderRecords (h.processNoFlush bincode item.clock item.payload).2)) := by
  have hpub := processNoFlush_sends bincode item.clock item.payload h
  rw [onMessage_eq]
  rcases hrun : h.processNoFlush bincode item.clock item.payload with ⟨h', result⟩
  rw [hrun] at hpub
  cases result with
  | immediate response =>
      refine ⟨rfl, rfl, ?_⟩
      simpa [orderRecords] using hpub
  | pending order response =>
      refine ⟨?_, rfl, ?_⟩
      · have hwal : ∀ ok, ({ h'.wal.flush ok with flushed := 0, flushed_le := Nat.zero_le _ } :
            MmapWal) = { h'.wal with flushed := 0, flushed_le := Nat.zero_le _ } := by
          intro ok
          cases ok <;> rfl
        simp only [core, send, hwal]
        cases h'.sends <;> rfl
      · show Option.map _ h'.sends = _
        rw [hpub]
        simp [orderRecords, Function.comp_def]

/-- **The runs agree** up to what is flushed and sent. -/
lemma collect_eq_singles {s t : UbsCoreHandler} (hst : s.core = t.core) (items : List Item) :
    (s.collect bincode items).1.core = (t.singles bincode items).1.core ∧
      (s.collect bincode items).2.map (fun r => (r.1, respond r.2)) =
        (t.singles bincode items).2 := by
  induction items generalizing s t with
  | nil => exact ⟨hst, rfl⟩
  | cons item items ih =>
      obtain ⟨hresult, hcore⟩ := processNoFlush_congr bincode hst item.clock item.payload
      obtain ⟨hcore', hresponse, -⟩ := onMessage_spec bincode item t
      obtain ⟨ihcore, ihresponses⟩ := ih (hcore.trans hcore'.symm)
      refine ⟨ihcore, ?_⟩
      simp only [collect, singles, List.map_cons, ihresponses, hresult, hresponse]

lemma arrivals_congr {s t : UbsCoreHandler} (hst : s.core = t.core) (items : List Item) :
    s.arrivals bincode items = t.arrivals bincode items := by
  induction items generalizing s t with
  | nil => rfl
  | cons item items ih =>
      obtain ⟨hresult, hcore⟩ := processNoFlush_congr bincode hst item.clock item.payload
      simp only [arrivals, hresult, ih hcore]

lemma singles_sends (items : List Item) (h : UbsCoreHandler) :
    (h.singles bincode items).1.sends =
      h.sends.map (· ++ h.arrivals bincode items) := by
  induction items generalizing h with
  | nil => simp [singles, arrivals]
  | cons item items ih =>
      obtain ⟨hcore, -, hpub⟩ := onMessage_spec bincode item h
      simp only [singles, arrivals, ih, hpub, arrivals_congr hcore, Option.map_map]
      congr 1
      funext records
      simp

lemma collect_sends (items : List Item) (h : UbsCoreHandler) :
    (h.collect bincode items).1.sends =
      h.sends.map (· ++ items.flatMap (fun item => cancelRecords item.payload)) := by
  induction items generalizing h with
  | nil => simp [collect]
  | cons item items ih =>
      simp only [collect, ih, processNoFlush_sends, Option.map_map]
      congr 1
      funext records
      simp

lemma forwardBatch_spec (results : List (UInt64 × ProcessResult)) (h : UbsCoreHandler) :
    (h.forwardBatch results).1 = { h with
        sends := h.sends.map (· ++ results.flatMap (fun r => orderRecords r.2)) } ∧
      (h.forwardBatch results).2 = results.map (fun r => (r.1, respond r.2)) := by
  induction results generalizing h with
  | nil => simp [forwardBatch]
  | cons result results ih =>
      obtain ⟨correlationId, result⟩ := result
      cases result with
      | immediate response =>
          obtain ⟨hstate, hresponses⟩ := ih h
          simp [forwardBatch, hstate, hresponses, orderRecords, respond]
      | pending order response =>
          obtain ⟨hstate, hresponses⟩ := ih (h.send (.order order))
          simp only [forwardBatch, hstate, hresponses, List.flatMap_cons, List.map_cons]
          refine ⟨?_, rfl⟩
          simp [send, orderRecords, Function.comp_def]

lemma flushBatch_spec (flushOk : Bool) (results : List (UInt64 × ProcessResult))
    (h : UbsCoreHandler) :
    (flushBatch flushOk results h).ubsCore = h.ubsCore ∧
      (flushBatch flushOk results h).sends = h.sends ∧
      (flushBatch flushOk results h).wal =
        if results.any (fun r => ProcessResult.isPending r.2) then h.wal.flush flushOk
        else h.wal := by
  unfold flushBatch
  split <;> exact ⟨rfl, rfl, rfl⟩

variable (bincode) in
lemma processBatch_sends (flushOk : Bool) (items : List Item) (h : UbsCoreHandler) :
    (h.processBatch bincode flushOk items).1.sends =
      h.sends.map (· ++ (items.flatMap (fun item => cancelRecords item.payload) ++
        (h.collect bincode items).2.flatMap (fun r => orderRecords r.2))) := by
  obtain ⟨-, hpub, -⟩ := flushBatch_spec flushOk (h.collect bincode items).2
    (h.collect bincode items).1
  obtain ⟨hstate, -⟩ := forwardBatch_spec (h.collect bincode items).2
    (flushBatch flushOk (h.collect bincode items).2 (h.collect bincode items).1)
  simp only [processBatch, hstate, hpub, collect_sends, Option.map_map]
  congr 1
  funext records
  simp

/-- Flushing and sending leave the core alone. -/
lemma processBatch_core (flushOk : Bool) (items : List Item) (h : UbsCoreHandler) :
    (h.processBatch bincode flushOk items).1.core = (h.collect bincode items).1.core := by
  obtain ⟨hubs, hpub, hwal⟩ := flushBatch_spec flushOk (h.collect bincode items).2
    (h.collect bincode items).1
  obtain ⟨hstate, -⟩ := forwardBatch_spec (h.collect bincode items).2
    (flushBatch flushOk (h.collect bincode items).2 (h.collect bincode items).1)
  have hlog : ({ (h.processBatch bincode flushOk items).1.wal with
      flushed := 0, flushed_le := Nat.zero_le _ } : MmapWal) =
      { (h.collect bincode items).1.wal with flushed := 0, flushed_le := Nat.zero_le _ } := by
    simp only [processBatch, hstate, hwal]
    split
    · cases flushOk <;> rfl
    · rfl
  have hblank : blank (h.processBatch bincode flushOk items).1.sends =
      blank (h.collect bincode items).1.sends := by
    simp only [processBatch, hstate, hpub]
    cases (h.collect bincode items).1.sends <;> rfl
  have hcore : (h.processBatch bincode flushOk items).1.ubsCore =
      (h.collect bincode items).1.ubsCore := by
    simp only [processBatch, hstate, hubs]
  simp only [core, hcore, hlog, hblank]

variable (bincode) in
lemma processBatch_responses (flushOk : Bool) (items : List Item) (h : UbsCoreHandler) :
    (h.processBatch bincode flushOk items).2 = (h.singles bincode items).2 :=
  (forwardBatch_spec _ _).2.trans (collect_eq_singles (rfl : h.core = h.core) items).2

/-! ## When the calls agree -/

/-- No cancel comes after an order that is accepted where it arrives. -/
def CancelsFirst (bincode : Bincode) : UbsCoreHandler → List Item → Prop
  | _, [] => True
  | h, item :: items =>
      (h.Admits bincode item → ∀ later ∈ items, cancelOf later.payload = none) ∧
        CancelsFirst bincode (h.onMessage bincode item.clock item.flushOk item.payload).1 items

lemma admits_congr {s t : UbsCoreHandler} (hst : s.core = t.core) (item : Item) :
    s.Admits bincode item ↔ t.Admits bincode item := by
  rw [← isPending_processNoFlush_iff, ← isPending_processNoFlush_iff,
    (processNoFlush_congr bincode hst item.clock item.payload).1]

lemma flatMap_cancelRecords_eq_nil {items : List Item} :
    items.flatMap (fun item => cancelRecords item.payload) = [] ↔
      ∀ item ∈ items, cancelOf item.payload = none := by
  simp [List.flatMap_eq_nil_iff, cancelRecords]

lemma order_cons_ne {items : List Item} {order : InternalOrder} {l l' : List ValidatedRecord}
    (h : ValidatedRecord.order order :: l =
      items.flatMap (fun item => cancelRecords item.payload) ++ l') :
    items.flatMap (fun item => cancelRecords item.payload) = [] := by
  cases hc : items.flatMap (fun item => cancelRecords item.payload) with
  | nil => rfl
  | cons c cs =>
      rw [hc, List.cons_append] at h
      have hmem : c ∈ items.flatMap (fun item => cancelRecords item.payload) := by simp [hc]
      obtain ⟨item, -, hitem⟩ := List.mem_flatMap.mp hmem
      rw [← (List.cons.inj h).1] at hitem
      simp [cancelRecords] at hitem

variable (bincode) in
lemma arrivals_eq_iff {s t : UbsCoreHandler} (hst : s.core = t.core) (items : List Item) :
    s.arrivals bincode items = items.flatMap (fun item => cancelRecords item.payload) ++
        (s.collect bincode items).2.flatMap (fun r => orderRecords r.2) ↔
      CancelsFirst bincode t items := by
  induction items generalizing s t with
  | nil => simp [arrivals, collect, CancelsFirst]
  | cons item items ih =>
      obtain ⟨-, hcore⟩ := processNoFlush_congr bincode hst item.clock item.payload
      obtain ⟨hcore', -, -⟩ := onMessage_spec bincode item t
      have ih := ih (hcore.trans hcore'.symm)
      have hadmits := (isPending_processNoFlush_iff bincode s item).trans
        (admits_congr hst item)
      simp only [arrivals, collect, CancelsFirst, List.flatMap_cons, List.append_assoc,
        List.append_cancel_left_eq, ← ih, ← hadmits]
      cases (s.processNoFlush bincode item.clock item.payload).2 with
      | immediate response => simp [orderRecords, ProcessResult.isPending]
      | pending order response =>
          simp only [orderRecords, ProcessResult.isPending, List.cons_append, List.nil_append,
            true_implies]
          rw [← flatMap_cancelRecords_eq_nil]
          constructor
          · intro heq
            have hnil := order_cons_ne heq
            rw [hnil, List.nil_append] at heq
            rw [hnil, List.nil_append]
            exact ⟨rfl, (List.cons.inj heq).2⟩
          · rintro ⟨hnil, heq⟩
            rw [hnil, List.nil_append] at heq ⊢
            rw [heq]

/-- **The calls of `send`** of a batch and of its messages one by one are the same exactly if there
is no producer or no cancel comes after an order that is accepted. -/
theorem processBatch_sends_eq_singles_iff (bincode : Bincode) (flushOk : Bool) (items : List Item)
    (h : UbsCoreHandler) :
    (h.processBatch bincode flushOk items).1.sends = (h.singles bincode items).1.sends ↔
      (h.sends.isSome = true → CancelsFirst bincode h items) := by
  rw [processBatch_sends, singles_sends, ← arrivals_eq_iff bincode (rfl : h.core = h.core)]
  cases h.sends with
  | none => simp
  | some records =>
      simp only [Option.map_some, Option.some.injEq, List.append_cancel_left_eq,
        Option.isSome_some, true_implies]
      exact eq_comm

/-- **A batch is its messages one by one**: the same responses, the same UBSCore, the same log
entries and, if a dropped future sends nothing, the same messages on the topic. -/
theorem processBatch_eq_singles {delivers : DroppedSend} (hlazy : delivers.Lazy)
    (bincode : Bincode) (flushOk : Bool) (items : List Item) (h : UbsCoreHandler) :
    (h.processBatch bincode flushOk items).2 = (h.singles bincode items).2 ∧
      (h.processBatch bincode flushOk items).1.ubsCore = (h.singles bincode items).1.ubsCore ∧
      (h.processBatch bincode flushOk items).1.wal.entries =
        (h.singles bincode items).1.wal.entries ∧
      (h.processBatch bincode flushOk items).1.topic delivers =
        (h.singles bincode items).1.topic delivers := by
  have hcore : (h.processBatch bincode flushOk items).1.core = (h.singles bincode items).1.core :=
    (processBatch_core flushOk items h).trans (collect_eq_singles (rfl : h.core = h.core) items).1
  refine ⟨processBatch_responses bincode flushOk items h, congrArg (fun c => c.ubsCore) hcore,
    congrArg (fun c => c.wal.entries) hcore, ?_⟩
  rw [topic_of_lazy hlazy, topic_of_lazy hlazy]

lemma nothing_flushed : 0 ≤ ([] : List WalEntry).length := Nat.le_refl 0

/-- A handler with a producer whose user 1 has 1000 units of asset 2 and can buy asset 1 with it. -/
def funded : UbsCoreHandler where
  ubsCore := (UBSCore.new.registerSymbol 1 (1, 2)).onDeposit 1 2 1000 1
  wal := ⟨4096, 0, [], 0, nothing_flushed⟩
  sends := some []

/-- An Order message: user 1 buys 4 units at 50. -/
def buyPayload : Bytes :=
  [1] ++ Bytes.ofU64 7 ++ Bytes.ofU64 1 ++ Bytes.ofU32 1 ++ [0, 0, 0, 0] ++ Bytes.ofU64 50 ++
    Bytes.ofU64 4

/-- A Cancel message for that order. -/
def cancelPayload : Bytes := [2] ++ Bytes.ofU64 1 ++ Bytes.ofU64 7

-- in a batch, the cancel of an order is sent before the order
example :
    (funded.processBatch Bincode.fixint true
        [⟨10, buyPayload, 0, true⟩, ⟨11, cancelPayload, 0, true⟩]).1.sends =
      some [.cancel 1 7, .order ⟨7, 1, 1, .buy, 50, 4, .limit⟩] := by
  decide

theorem processBatch_eq_singles_buyAndCancel :
    (funded.processBatch Bincode.fixint true
        [⟨10, buyPayload, 0, true⟩, ⟨11, cancelPayload, 0, true⟩]).1.topic (fun _ => false) =
      (funded.singles Bincode.fixint
        [⟨10, buyPayload, 0, true⟩, ⟨11, cancelPayload, 0, true⟩]).1.topic (fun _ => false) :=
  (processBatch_eq_singles (fun _ => rfl) Bincode.fixint true _ funded).2.2.2

end UbsCoreHandler

end ExchangeCore

import ExchangeCore.System.Exchange

/-!
# Fund safety

`fund_safety`: along every run of the two components in which the orders fed to the engine have
distinct ids and less than `2 ^ 63` of every asset is ever deposited, no settlement and no
unlocking fails, and after every operation each user's frozen funds are what the user's resting
orders hold.

The invariant `Safe` carries it.  Locking happens at the limit price, before the engine sees the
order, and the releases come trade by trade at the makers' prices; between the two the frozen
funds are the obligations plus what the trades not yet settled will release, which
`obligation_accepted` makes an equation and `settleAll_moves` an induction over the trades.  That
no addition overflows follows from the total of each asset never exceeding what was deposited.

All this is as long as the engine's order WAL, if there is one, can be written: an order that is
refused for the sake of its log keeps its funds frozen (`unlogged_order_strands`).
-/

namespace ExchangeCore

open OrderBook (Added mem_restingOrders)
open Reference MatchingEngine UBSCore

namespace Exchange

/-! ## Settling the trades of an output -/

section Settle

variable {ubs : UBSCore}

lemma settlement_release (fees : TradeOutput → UInt64 × UInt64) {t : TradeOutput}
    (h : t.price.toNat * t.quantity.toNat < 2 ^ 64) : (settlement fees t).release = released t := by
  funext u a
  simp only [Settlement.release, settlement, released, Word.toNat_mul_of_lt h]

/-- **Settling every trade succeeds** if the parties have accounts and have frozen what the
trades release in total. -/
lemma settleAll_moves (fees : TradeOutput → UInt64 × UInt64) (ts : List TradeOutput) :
    ∀ {ubs : UBSCore},
      (∀ t ∈ ts, t.buyerUserId ∈ ubs.accounts.keys ∧ t.sellerUserId ∈ ubs.accounts.keys) →
      (∀ u a, (ts.map (fun t => released t u a)).sum ≤ ubs.frozen u a) →
      (∀ a, ubs.total a < 2 ^ 63) →
      (∀ r ∈ (settleAll fees ts ubs).1, r = .ok ()) ∧
        Moves ubs (settleAll fees ts ubs).2 (fun u a => (ts.map (fun t => released t u a)).sum)
          0 0 0 := by
  induction ts with
  | nil => exact fun _ _ _ => ⟨by simp [settleAll], Moves.refl _⟩
  | cons t ts ih =>
      intro ubs hacc hfrozen htotal
      simp only [List.map_cons, List.sum_cons] at hfrozen ⊢
      -- the buyer has the cost frozen, so it is a word
      have hcost : t.price.toNat * t.quantity.toNat < 2 ^ 64 := by
        have h₁ := hfrozen t.buyerUserId t.quoteAssetId
        have h₂ := ubs.frozen_le_total t.buyerUserId t.quoteAssetId
        have h₃ := htotal t.quoteAssetId
        simp only [released, posting_self] at h₁
        omega
      obtain ⟨hbuyer, hseller⟩ := hacc t (List.mem_cons_self ..)
      have hrelease := settlement_release fees hcost
      obtain ⟨_, ubs₁, hok, m₁⟩ := @settleTrade_moves ubs (settlement fees t) hbuyer hseller
        (fun u a => by rw [hrelease]; exact (Nat.le_add_right _ _).trans (hfrozen u a)) htotal
      rw [hrelease] at m₁
      have hacc₁ : ∀ t' ∈ ts, t'.buyerUserId ∈ ubs₁.accounts.keys ∧
          t'.sellerUserId ∈ ubs₁.accounts.keys := by
        intro t' ht'
        obtain ⟨h₁, h₂⟩ := hacc t' (List.mem_cons_of_mem _ ht')
        exact ⟨m₁.accounts h₁, m₁.accounts h₂⟩
      have hfrozen₁ : ∀ u a, (ts.map (fun t => released t u a)).sum ≤ ubs₁.frozen u a := by
        intro u a
        have h₁ := m₁.frozen u a
        have h₂ := hfrozen u a
        simp only [Pi.zero_apply] at h₁
        omega
      have htotal₁ : ∀ a, ubs₁.total a < 2 ^ 63 := by
        intro a
        have h₁ := m₁.total a
        have h₂ := htotal a
        simp only [Pi.zero_apply] at h₁
        omega
      obtain ⟨hrest, m₂⟩ := ih hacc₁ hfrozen₁ htotal₁
      have m₁₂ := m₁.trans m₂
      simp only [add_zero] at m₁₂
      simp only [settleAll, hok]
      refine ⟨?_, m₁₂⟩
      rintro r (_ | ⟨_, hr⟩)
      · rfl
      · exact hrest r hr

lemma settleAll_tables (fees : TradeOutput → UInt64 × UInt64) (ts : List TradeOutput)
    (ubs : UBSCore) : (settleAll fees ts ubs).2.tables = ubs.tables := by
  induction ts generalizing ubs with
  | nil => rfl
  | cons t ts ih => exact (ih _).trans (settleTrade_keeps beside_tables _ _)

lemma unlockAll_tables (orderId : UInt64) (commands : List LedgerCommand) (ubs : UBSCore) :
    (unlockAll orderId commands ubs).2.tables = ubs.tables := by
  induction commands generalizing ubs with
  | nil => rfl
  | cons c cs ih =>
      cases c with
      | unlock userId assetId amount balanceAfter version =>
          exact (ih _).trans (unlockFunds_keeps beside_tables _ _ _ _ _)
      | _ => exact ih ubs

end Settle

/-! ## The invariant -/

/-- **The invariant**, with the ids fed and the totals deposited so far. -/
structure Safe (x : Exchange) (fed : List UInt64) (dep : UInt32 → ℕ) : Prop where
  engine : EngineInv x.me
  frozen : x.FrozenMatches
  total : ∀ a, x.ubs.total a ≤ dep a
  /-- The users of resting orders have accounts. -/
  accounts : EachBook x.me (fun b => ∀ o ∈ b.restingOrders, o.userId ∈ x.ubs.accounts.keys)
  /-- The books know no ids but those fed. -/
  ids : EachBook x.me (fun b => ∀ id ∈ b.activeOrderIds, id ∈ fed)
  debts : x.ubs.debtLedger = DebtLedger.new

namespace Safe

variable {x : Exchange} {fed : List UInt64} {dep : UInt32 → ℕ}

lemma new (enableLocalWal : Bool) : Safe (Exchange.new enableLocalWal) [] 0 where
  engine := EngineInv.new enableLocalWal
  frozen _ _ := rfl
  total _ := Nat.le_refl 0
  accounts := EachBook.new enableLocalWal
  ids := EachBook.new enableLocalWal
  debts := rfl

/-- Operations of the balance authority alone: nothing frozen or released, and no more gained
than deposited. -/
lemma ofMoves (h : Safe x fed dep) {ubs' : UBSCore} {spend gain : UInt32 → ℕ}
    (hm : Moves x.ubs ubs' 0 0 spend gain) (htables : ubs'.tables = x.ubs.tables) :
    Safe { x with ubs := ubs' } fed (dep + gain) where
  engine := h.engine
  frozen u a := by
    have := hm.frozen u a
    have := h.frozen u a
    simp only [Pi.zero_apply] at *
    omega
  total a := by
    have := hm.total a
    have := h.total a
    simp only [Pi.add_apply]
    show ubs'.total a ≤ _
    omega
  accounts s b hb o ho := hm.accounts (h.accounts s b hb o ho)
  ids := h.ids
  debts := (congrArg Prod.snd htables).trans h.debts

/-- Operations that replace one book of the engine: what is to be checked of the new book and
the new funds. -/
lemma withBook (h : Safe x fed dep) {s : UInt32} {book book' : OrderBook} {ubs' : UBSCore}
    {me' : MatchingEngine} (new : List UInt64)
    (hbook : bookAt x.me.orderBooks s = some book)
    (hbooks : me'.orderBooks = setBook x.me.orderBooks s book') (hengine : EngineInv me')
    {release hold : UInt64 → UInt32 → ℕ} (hm : Moves x.ubs ubs' release hold 0 0)
    (hfrozen : ∀ u a, ubs'.frozen u a = obligation me' u a)
    (hresting : ∀ o ∈ book'.restingOrders, o.userId ∈ ubs'.accounts.keys)
    (hids : ∀ id ∈ book'.activeOrderIds, id ∈ fed ++ new) (htables : ubs'.tables = x.ubs.tables) :
    Safe ⟨ubs', me'⟩ (fed ++ new) dep where
  engine := hengine
  frozen := hfrozen
  total a := by
    have h₁ := hm.total a
    have h₂ := h.total a
    simp only [Pi.zero_apply] at h₁
    show ubs'.total a ≤ dep a
    omega
  accounts :=
    EachBook.withBook
      (fun t b hb o ho => hm.accounts (h.accounts t b hb o ho)) hbook hresting hbooks
  ids := EachBook.withBook (fun t b hb id hid => List.mem_append_left _ (h.ids t b hb id hid))
    hbook hids hbooks
  debts := (congrArg Prod.snd htables).trans h.debts

/-- What `validate_order` freezes is what the engine's order holds. -/
lemma lockedByValidation (order : InternalOrder) (timestamp : UInt64) (assets : UInt32 × UInt32) :
    posting order.userId (order.lockAsset assets) order.cost = fun u a =>
      held assets u a (request order timestamp).order (request order timestamp).quantity.toNat := by
  funext u a
  -- the two sides differ in which amount is locked in which asset
  obtain ⟨orderId, userId, symbolId, side, price, qty, orderType⟩ := order
  cases side <;> rfl

lemma worth_lt_of_frozen {ubs : UBSCore} {assets : UInt32 × UInt32} {o : Order} {q : ℕ}
    (hheld : held assets o.userId (heldAsset assets o.side) o q ≤
      ubs.frozen o.userId (heldAsset assets o.side))
    (htotal : ∀ a, ubs.total a < 2 ^ 63) : o.worth q < 2 ^ 64 := by
  have h₁ := ubs.frozen_le_total o.userId (heldAsset assets o.side)
  have h₂ := htotal (heldAsset assets o.side)
  rw [held, posting_self] at hheld
  omega

section Accepted

variable {req : OrderRequest} {assets : UInt32 × UInt32} {book book' : OrderBook}

lemma exists_accounts (env : Externals) (inputSeq : UInt64) (clientOrderId : String)
    (assets : UInt32 × UInt32) (h : Safe x fed dep) (hu : req.userId ∈ x.ubs.accounts.keys)
    (hbook : bookAt x.me.orderBooks req.symbolId = some book) :
    ∀ t ∈ (x.me.outputOf env inputSeq req clientOrderId assets book).trades,
      t.buyerUserId ∈ x.ubs.accounts.keys ∧ t.sellerUserId ∈ x.ubs.accounts.keys := by
  rw [outputOf, acceptedOutput_trades, List.forall_mem_map]
  intro t ht
  obtain ⟨f, hf, -, -, hbuyer, hseller⟩ := mem_trades ht
  have hmaker : f.1.userId ∈ x.ubs.accounts.keys :=
    h.accounts _ _ hbook _ (mem_restingOrders.mpr ⟨_, (mem_fills hf).1⟩)
  simp only [tradeOutput, hbuyer, hseller, buyer, seller]
  split
  · exact ⟨hu, hmaker⟩
  · exact ⟨hmaker, hu⟩

/-- **An accepted order.**  With what the order holds frozen, its trades settle, and the
invariant holds again afterwards. -/
lemma accepted (env : Externals) (inputSeq : UInt64) (clientOrderId : String)
    (fees : TradeOutput → UInt64 × UInt64) (gen : FastUlidHalfGen) (wal : Option Wal)
    (h : Safe x fed dep) (hdep : ∀ a, dep a < 2 ^ 63) {ubs' : UBSCore}
    (hm : Moves x.ubs ubs' 0 (fun u a => held assets u a req.order req.quantity.toNat) 0 0)
    (htables : ubs'.tables = x.ubs.tables) (hu : req.userId ∈ x.ubs.accounts.keys)
    (hassets : x.me.assetMap.get? req.symbolId = some assets)
    (hbook : bookAt x.me.orderBooks req.symbolId = some book)
    (hnew : req.orderId ∉ book.activeOrderIds)
    (hadded : Added book req.order (book.walkOf req.order) book') :
    (∀ r ∈ (settleAll fees
        (x.me.outputOf env inputSeq req clientOrderId assets book).trades ubs').1, r = .ok ()) ∧
      Safe ⟨(settleAll fees (x.me.outputOf env inputSeq req clientOrderId assets book).trades
          ubs').2, x.me.placed req.symbolId book' gen
            (x.me.outputOf env inputSeq req clientOrderId assets book) wal⟩
        (fed ++ [req.orderId]) dep := by
  have htotal : ∀ a, ubs'.total a < 2 ^ 63 := fun a => by
    have h₁ := hm.total a
    have h₂ := h.total a
    have h₃ := hdep a
    simp only [Pi.zero_apply] at h₁
    omega
  have hfits : req.order.worth req.quantity.toNat < 2 ^ 64 := by
    refine @worth_lt_of_frozen ubs' assets req.order _ ?_ htotal
    have hhold : ubs'.frozen req.userId (heldAsset assets req.side) =
      x.ubs.frozen req.userId (heldAsset assets req.side) +
        held assets req.userId (heldAsset assets req.side) req.order req.quantity.toNat :=
      hm.frozen req.userId (heldAsset assets req.side)
    exact hhold ▸ Nat.le_add_left _ _
  have hparties := h.exists_accounts env inputSeq clientOrderId assets hu hbook
  have hsum := obligation_accepted env inputSeq clientOrderId h.engine hassets hbook hadded
    (rfl : (x.me.placed req.symbolId book' gen
      (x.me.outputOf env inputSeq req clientOrderId assets book) wal).orderBooks = _) rfl hfits
  generalize x.me.outputOf env inputSeq req clientOrderId assets book = output at hparties hsum ⊢
  -- the frozen funds are the new obligations and what the trades will release
  have hfrozen : ∀ u a, ubs'.frozen u a =
      obligation (x.me.placed req.symbolId book' gen output wal) u a +
        (output.trades.map (fun t => released t u a)).sum := fun u a => by
    have h₁ := hm.frozen u a
    have h₂ := h.frozen u a
    have h₃ := hsum u a
    simp only [Pi.zero_apply] at h₁
    omega
  obtain ⟨hok, hm'⟩ := settleAll_moves fees output.trades
    (fun t ht => ⟨hm.accounts (hparties t ht).1, hm.accounts (hparties t ht).2⟩)
    (fun u a => by rw [hfrozen u a]; exact Nat.le_add_left _ _) htotal
  have htables' := (settleAll_tables fees output.trades ubs').trans htables
  refine ⟨hok, ?_⟩
  generalize (settleAll fees output.trades ubs').2 = settled at hm' htables' ⊢
  refine h.withBook [req.orderId] hbook rfl
    (h.engine.withBook hbook ((h.engine.books _ _ hbook).added hadded hnew) rfl rfl)
    (by simpa using hm.trans hm') (fun u a => ?_) ?_ (fun id hid => ?_) htables'
  · have h₁ := hm'.frozen u a
    have h₂ := hfrozen u a
    simp only [Pi.zero_apply] at h₁
    omega
  · have haccounts := hm.accounts.trans hm'.accounts
    exact hadded.forall_resting (fun o q _ ho => ho) (haccounts hu)
      (fun o ho => haccounts (h.accounts _ _ hbook o ho))
  · rw [hadded.activeOrderIds] at hid
    rcases Finset.mem_insert.mp (Finset.mem_sdiff.mp hid).1 with rfl | hid
    · exact List.mem_append_right _ (List.mem_singleton_self _)
    · exact List.mem_append_left _ (h.ids _ _ hbook id hid)

end Accepted

/-- An order fed for the first time is accepted, and its trades settle. -/
lemma place (env : Externals) {order : InternalOrder} {clock : UInt64} {io : WalIo}
    {inputSeq timestamp : UInt64} {clientOrderId : String} {fees : TradeOutput → UInt64 × UInt64}
    (h : Safe x fed dep)
    (hadm : x.Admissible (.place order clock io inputSeq timestamp clientOrderId fees))
    (hdep : ∀ a, dep a < 2 ^ 63)
    (hid : ∀ id,
      (x.place env order clock io inputSeq timestamp clientOrderId fees).2.fedId = some id →
        id ∉ fed) :
    Safe (x.place env order clock io inputSeq timestamp clientOrderId fees).1
        (fed ++ (x.place env order clock io inputSeq timestamp clientOrderId fees).2.fedId.toList)
        dep ∧
      (x.place env order clock io inputSeq timestamp clientOrderId fees).2.Succeeded := by
  have htotal : ∀ a, x.ubs.total a < 2 ^ 63 := fun a => (h.total a).trans_lt (hdep a)
  have hkeeps := validateOrder_keeps order clock x.ubs
  rcases validateOrder_cases order clock (fun a => (htotal a).trans (by decide)) with
    ⟨e, ubs', hv, hm⟩ | ⟨assets, ubs', hv, hassets, hu, hm⟩
  · -- rejected by the balance authority
    rw [hv] at hkeeps
    simp only [Exchange.place, hv]
    simpa [Answer.fedId, Answer.Succeeded] using h.ofMoves hm hkeeps
  · rw [hv] at hkeeps
    obtain ⟨r, me', hr⟩ : ∃ r me', x.me.addOrderAndBuildOutput env io inputSeq
        (request order timestamp) clientOrderId = (r, me') := ⟨_, _, rfl⟩
    have hp := placement_addOrderAndBuildOutput h.engine env io inputSeq (request order timestamp)
      clientOrderId
    have hengine := h.engine.placement hp
    rw [hr] at hp hengine
    have hagree : x.ubs.assetMap.get? order.symbolId = x.me.assetMap.get? order.symbolId := hadm.1
    have hwal : x.me.orderWal = none ∨ io.log = .ok () ∧ io.flush = .ok () := hadm.2
    rw [hassets] at hagree
    simp only [Exchange.place, hv, hr] at hid ⊢
    cases hp with
    | refused e hrefused =>
        -- the symbol is registered and the log can be written
        exfalso
        rcases hrefused with hnone | hlog
        · rw [show x.me.assetMap.get? order.symbolId = none from hnone] at hagree
          cases hagree
        · unfold logWal at hlog
          rcases hwal with hnone | ⟨hok, -⟩
          · rw [hnone] at hlog
            cases hlog
          · rw [hok] at hlog
            split at hlog <;> cases hlog
    | duplicate e _ book _ _ hbook hdup =>
        exact absurd (h.ids _ _ hbook _ hdup) (hid _ rfl)
    | accepted assets' book book' gen wal _ _ hassets' hbook hnew hadded hret _ _ =>
        obtain rfl := Option.some.inj (hagree.trans hassets')
        have hr' := hret (hwal.imp_right And.right)
        subst hr'
        obtain ⟨hok, hsafe⟩ := h.accepted env inputSeq clientOrderId fees gen wal hdep
          (lockedByValidation order timestamp assets ▸ hm) hkeeps hu hassets' hbook hnew hadded
        exact ⟨hsafe, hok⟩

/-- A cancelled order's funds are unlocked. -/
lemma cancel (env : Externals) (io : WalIo) (symbolId : UInt32) (orderId : UInt64)
    (h : Safe x fed dep) (hdep : ∀ a, dep a < 2 ^ 63) :
    Safe (x.cancel env io symbolId orderId).1 fed dep ∧
      (x.cancel env io symbolId orderId).2.fedId = none ∧
      (x.cancel env io symbolId orderId).2.Succeeded := by
  obtain ⟨r, me', hr⟩ : ∃ r me', x.me.cancelOrder env io symbolId orderId = (r, me') :=
    ⟨_, _, rfl⟩
  have hc := cancellation_cancelOrder h.engine env io symbolId orderId
  have hengine := h.engine.cancellation hc
  rw [hr] at hc hengine
  simp only [Exchange.cancel, hr]
  cases hc with
  | refused e => exact ⟨h, rfl, trivial⟩
  | notFound e s book hbook hid =>
      have hsame := obligation_forget h.engine hbook
        (rfl : (x.me.replaced s (book.forget orderId) x.me.stateHash).orderBooks = _) rfl
      refine ⟨?_, rfl, trivial⟩
      have hsafe := h.withBook [] hbook
        (rfl : (x.me.replaced s (book.forget orderId) x.me.stateHash).orderBooks = _) hengine
        (Moves.refl x.ubs) (fun u a => (h.frozen u a).trans (hsame u a).symm)
        (fun o ho => h.accounts s book hbook o ho)
        (fun id hid => List.mem_append_left _
          (h.ids s book hbook id (Finset.mem_of_mem_erase hid))) rfl
      rwa [List.append_nil] at hsafe
  | cancelled s assets book book' o balanceAfter version stateHash update hbook hassets ho hid
      hremoved =>
      have hsum := obligation_cancelled hassets hbook hremoved
        (rfl : (x.me.replaced s book' stateHash).orderBooks = _) rfl
      have htotal : ∀ a, x.ubs.total a < 2 ^ 63 := fun a => (h.total a).trans_lt (hdep a)
      -- what the order holds is frozen, so that it fits and can be unlocked
      have hheld : ∀ u a, held assets u a o o.quantity.toNat ≤ x.ubs.frozen u a := fun u a => by
        have h₁ := h.frozen u a
        have h₂ := hsum u a
        omega
      have hfits := worth_lt_of_frozen (hheld o.userId (heldAsset assets o.side)) htotal
      have hamount := lockTarget_snd o assets hfits
      have hu : o.userId ∈ x.ubs.accounts.keys := h.accounts s book hbook o ho
      obtain ⟨avail, ubs', hunlock, hm⟩ := @unlockFunds_moves x.ubs o.userId
        (lockTarget o.side assets o.price o.quantity).1
        (lockTarget o.side assets o.price o.quantity).2 orderId hu
        (by
          have h₁ := hheld o.userId (heldAsset assets o.side)
          rw [held, posting_self] at h₁
          rw [hamount, lockTarget_fst]
          exact h₁)
        ((htotal _).trans (by decide))
      -- the symbols stay registered as they were
      have htables := unlockFunds_keeps beside_tables o.userId
        (lockTarget o.side assets o.price o.quantity).1
        (lockTarget o.side assets o.price o.quantity).2 orderId x.ubs
      rw [hunlock] at htables
      simp only [unlockAll, hunlock]
      rw [hamount, lockTarget_fst] at hm
      refine ⟨?_, rfl, ?_⟩
      · have hsafe := h.withBook [] hbook (rfl : (x.me.replaced s book' stateHash).orderBooks = _)
          hengine hm (fun u a => ?_) (fun o' ho' => ?_) (fun id hid => ?_) htables
        · rwa [List.append_nil] at hsafe
        · have h₁ := hm.frozen u a
          have h₂ := h.frozen u a
          have h₃ := hsum u a
          simp only [held, Pi.zero_apply] at h₁ h₃
          omega
        · exact hm.accounts (h.accounts s book hbook o'
            (hremoved.perm.mem_iff.mpr (List.mem_cons_of_mem _ ho')))
        · rw [hremoved.activeOrderIds] at hid
          exact List.mem_append_left _ (h.ids s book hbook id (Finset.mem_of_mem_erase hid))
      · intro r hr
        exact ⟨avail, List.mem_singleton.mp hr⟩

/-- **One operation.** -/
lemma step (env : Externals) {op : Op} (h : Safe x fed dep) (hadm : x.Admissible op)
    (hid : ∀ id, ((machine env).step x op).2.fedId = some id → id ∉ fed)
    (hdep : ∀ a, dep a + op.deposited a < 2 ^ 63) :
    Safe ((machine env).step x op).1 (fed ++ ((machine env).step x op).2.fedId.toList)
        (fun a => dep a + op.deposited a) ∧
      ((machine env).step x op).2.Succeeded := by
  cases op with
  | registerUbs s assets =>
      rw [show ((machine env).step x (.registerUbs s assets)).2.fedId.toList = [] from rfl,
        List.append_nil]
      exact ⟨⟨h.engine, h.frozen, h.total, h.accounts, h.ids, h.debts⟩, trivial⟩
  | registerEngine s assets =>
      rw [show ((machine env).step x (.registerEngine s assets)).2.fedId.toList = [] from rfl,
        List.append_nil]
      refine ⟨⟨h.engine.registerSymbol s assets, fun u a => ?_, h.total,
        h.accounts.registerSymbol assets (by simp), h.ids.registerSymbol assets ?_, h.debts⟩,
        trivial⟩
      · exact (h.frozen u a).trans (obligation_registerSymbol h.engine s assets u a).symm
      · intro id hid
        simp [OrderBook.new] at hid
  | deposit u a amount txId =>
      rw [show ((machine env).step x (.deposit u a amount txId)).2.fedId.toList = [] from rfl,
        List.append_nil]
      have hfits : x.ubs.avail u a + amount.toNat < 2 ^ 64 := by
        have h₁ := h.total a
        have h₂ := hdep a
        have h₃ := x.ubs.avail_le_total u a
        simp only [Op.deposited, if_true] at h₂
        omega
      -- nobody owes anything, so that the deposit arrives in full
      have hpaid : x.ubs.debtLedger.payDebt u a amount = (amount, x.ubs.debtLedger) := by
        rw [h.debts]
        rfl
      have hm := @onDeposit_moves x.ubs u a amount txId (by rw [hpaid]; exact hfits)
      rw [hpaid] at hm
      refine ⟨h.ofMoves hm ?_, trivial⟩
      rw [onDeposit_keeps beside_tables, hpaid]
  | withdraw u a amount txId =>
      rw [show ((machine env).step x (.withdraw u a amount txId)).2.fedId.toList = [] from rfl,
        List.append_nil]
      obtain ⟨spend, hm⟩ := onWithdraw_moves u a amount txId x.ubs
      exact ⟨h.ofMoves hm (onWithdraw_keeps beside_tables u a amount txId x.ubs), trivial⟩
  | place order clock io inputSeq timestamp clientOrderId fees =>
      exact h.place env hadm (fun a => (Nat.le_add_right _ _).trans_lt (hdep a)) hid
  | cancel io symbolId orderId =>
      obtain ⟨hsafe, hnone, hok⟩ := h.cancel env io symbolId orderId
        (fun a => (Nat.le_add_right _ _).trans_lt (hdep a))
      have hfed : ((machine env).step x (.cancel io symbolId orderId)).2.fedId = none := hnone
      rw [hfed, Option.toList_none, List.append_nil]
      exact ⟨hsafe, hok⟩


end Safe

/-! ## Whole runs -/

lemma fedIds_cons (answer : Answer) (answers : List Answer) :
    fedIds (answer :: answers) = answer.fedId.toList ++ fedIds answers := by
  unfold fedIds
  cases h : answer.fedId <;> simp [h]

lemma safe_run (env : Externals) (ops : List Op) :
    ∀ {x : Exchange} {fed : List UInt64} {dep : UInt32 → ℕ}, Safe x fed dep →
      (machine env).AllSteps Admissible x ops →
      (fed ++ fedIds ((machine env).answers x ops)).Nodup →
      (∀ a, dep a + deposited a ops < 2 ^ 63) →
      (∀ answer ∈ (machine env).answers x ops, answer.Succeeded) ∧
        (machine env).Throughout FrozenMatches x ops := by
  induction ops with
  | nil => exact fun h _ _ _ => ⟨by simp, h.frozen⟩
  | cons op ops ih =>
      rintro x fed dep h ⟨hadm, hrest⟩ hids hdep
      rw [Machine.answers_cons, fedIds_cons, ← List.append_assoc] at hids
      have hnew : ∀ id, ((machine env).step x op).2.fedId = some id → id ∉ fed := by
        intro id hid hmem
        have hdisjoint := List.disjoint_of_nodup_append (List.Nodup.of_append_left hids)
        exact hdisjoint hmem (by simp [hid])
      have hcons : ∀ a, deposited a (op :: ops) = op.deposited a + deposited a ops := fun a => rfl
      obtain ⟨hsafe, hok⟩ := h.step env hadm hnew (fun a => by
        have h₁ := hdep a
        rw [hcons] at h₁
        omega)
      obtain ⟨hoks, hthrough⟩ := ih hsafe hrest hids (fun a => by
        have h₁ := hdep a
        rw [hcons] at h₁
        omega)
      refine ⟨?_, h.frozen, hthrough⟩
      rw [Machine.answers_cons, List.forall_mem_cons]
      exact ⟨hok, hoks⟩

/-- The order an operation offers. -/
def Op.offeredId : Op → Option UInt64
  | .place order _ _ _ _ _ _ => some order.orderId
  | _ => none

lemma fedId_step (env : Externals) (x : Exchange) (op : Op) :
    ((machine env).step x op).2.fedId = none ∨
      ((machine env).step x op).2.fedId = op.offeredId := by
  cases op with
  | place order clock io inputSeq timestamp clientOrderId fees =>
      simp only [machine, place]
      split
      · exact Or.inl rfl
      · split <;> exact Or.inr rfl
  | cancel io symbolId orderId =>
      simp only [machine, cancel]
      split <;> exact Or.inl rfl
  | _ => exact Or.inl rfl

/-- Distinct ids of the orders offered are enough: the orders fed are some of them. -/
lemma fedIds_sublist (env : Externals) (ops : List Op) (x : Exchange) :
    (fedIds ((machine env).answers x ops)).Sublist (ops.filterMap Op.offeredId) := by
  induction ops generalizing x with
  | nil => exact List.Sublist.refl _
  | cons op ops ih =>
      rw [Machine.answers_cons, fedIds_cons]
      have hcons : (op :: ops).filterMap Op.offeredId =
          op.offeredId.toList ++ ops.filterMap Op.offeredId := by
        cases h : op.offeredId <;> simp [h]
      rw [hcons]
      refine List.Sublist.append ?_ (ih _)
      rcases fedId_step env x op with h | h <;> rw [h]
      exact List.nil_sublist _

/-- **Fund safety.**  Take any run of admissible operations of two fresh components in which the
orders fed to the engine have pairwise distinct ids and less than `2 ^ 63` of each asset is ever
deposited.  No settlement and no unlocking fails, and after every operation each user's frozen
funds of each asset are what the user's resting orders hold. -/
theorem fund_safety (env : Externals) (enableLocalWal : Bool) (ops : List Op)
    (hadm : (machine env).AllSteps Admissible (new enableLocalWal) ops)
    (hids : (fedIds ((machine env).answers (new enableLocalWal) ops)).Nodup)
    (hdep : ∀ a, deposited a ops < 2 ^ 63) :
    (∀ answer ∈ (machine env).answers (new enableLocalWal) ops, answer.Succeeded) ∧
      (machine env).Throughout FrozenMatches (new enableLocalWal) ops := by
  refine safe_run env ops (Safe.new enableLocalWal) hadm hids (fun a => ?_)
  simpa using hdep a

/-! ## Runs on a registered symbol -/

/-- The symbol is registered with the same assets on both sides, and there is no order WAL. -/
structure Ready (x : Exchange) (s : UInt32) (assets : UInt32 × UInt32) : Prop where
  engine : EngineInv x.me
  ubs : x.ubs.assetMap.get? s = some assets
  me : x.me.assetMap.get? s = some assets
  wal : x.me.orderWal = none

/-- The operation is no registration, and an order it places is for this symbol. -/
def Op.Trades (s : UInt32) : Op → Prop
  | .registerUbs _ _ => False
  | .registerEngine _ _ => False
  | .place order _ _ _ _ _ _ => order.symbolId = s
  | _ => True

namespace Ready

variable {x : Exchange} {s : UInt32} {assets : UInt32 × UInt32}

/-- Calls that leave the symbol tables and the WAL alone. -/
lemma next (h : Ready x s assets) {ubs' : UBSCore} {me' : MatchingEngine} (hengine : EngineInv me')
    (hubs : ubs'.assetMap = x.ubs.assetMap) (hme : me'.assetMap = x.me.assetMap)
    (hwal : me'.orderWal = none) : Ready ⟨ubs', me'⟩ s assets :=
  ⟨hengine, by rw [hubs]; exact h.ubs, by rw [hme]; exact h.me, hwal⟩

/-- Registrations stay. -/
lemma step (env : Externals) (h : Ready x s assets) {op : Op} (hop : op.Trades s) :
    Ready ((machine env).step x op).1 s assets := by
  cases op with
  | registerUbs _ _ => exact absurd hop id
  | registerEngine _ _ => exact absurd hop id
  | deposit u a amount txId =>
      exact h.next h.engine
        (congrArg Prod.fst (onDeposit_keeps beside_tables u a amount txId x.ubs)) rfl h.wal
  | withdraw u a amount txId =>
      exact h.next h.engine
        (congrArg Prod.fst (onWithdraw_keeps beside_tables u a amount txId x.ubs)) rfl h.wal
  | place order clock io inputSeq timestamp clientOrderId fees =>
      have hkeeps := congrArg Prod.fst (validateOrder_keeps order clock x.ubs)
      have hp := placement_addOrderAndBuildOutput h.engine env io inputSeq
        (request order timestamp) clientOrderId
      have hengine := h.engine.placement hp
      -- the engine keeps its symbols, and comes to no WAL
      have htables : (x.me.addOrderAndBuildOutput env io inputSeq (request order timestamp)
          clientOrderId).2.assetMap = x.me.assetMap ∧ (x.me.addOrderAndBuildOutput env io inputSeq
            (request order timestamp) clientOrderId).2.orderWal = none := by
        generalize (x.me.addOrderAndBuildOutput env io inputSeq (request order timestamp)
          clientOrderId).1 = r at hp
        generalize (x.me.addOrderAndBuildOutput env io inputSeq (request order timestamp)
          clientOrderId).2 = me' at hp
        cases hp with
        | refused _ _ => exact ⟨rfl, h.wal⟩
        | duplicate _ _ _ _ _ _ _ => exact ⟨rfl, h.wal⟩
        | accepted _ _ _ _ wal _ _ _ _ _ _ _ _ hwal => exact ⟨rfl, hwal.mpr h.wal⟩
      simp only [machine, Exchange.place]
      split
      · rename_i heq
        rw [heq] at hkeeps
        exact h.next h.engine hkeeps rfl h.wal
      · rename_i heq
        rw [heq] at hkeeps
        split <;> rename_i heq' <;> rw [heq'] at hengine htables
        · exact h.next hengine hkeeps htables.1 htables.2
        · exact h.next hengine ((congrArg Prod.fst (settleAll_tables fees _ _)).trans hkeeps)
            htables.1 htables.2
  | cancel io symbolId orderId =>
      have hc := cancellation_cancelOrder h.engine env io symbolId orderId
      have hengine := h.engine.cancellation hc
      have htables : (x.me.cancelOrder env io symbolId orderId).2.assetMap = x.me.assetMap ∧
          (x.me.cancelOrder env io symbolId orderId).2.orderWal = none := by
        generalize (x.me.cancelOrder env io symbolId orderId).1 = r at hc
        generalize (x.me.cancelOrder env io symbolId orderId).2 = me' at hc
        cases hc <;> exact ⟨rfl, h.wal⟩
      simp only [machine, Exchange.cancel]
      split <;> rename_i heq <;> rw [heq] at hengine htables
      · exact h.next hengine rfl htables.1 htables.2
      · exact h.next hengine (congrArg Prod.fst (unlockAll_tables orderId _ _)) htables.1 htables.2

/-- Every run on a symbol registered with the same assets on both sides is admissible. -/
lemma allSteps (env : Externals) (ops : List Op) (hops : ∀ op ∈ ops, op.Trades s) :
    ∀ {x : Exchange}, Ready x s assets → (machine env).AllSteps Admissible x ops := by
  induction ops with
  | nil => exact fun _ => trivial
  | cons op ops ih =>
      intro x h
      have hop := hops op (List.mem_cons_self ..)
      refine ⟨?_, ih (fun op' hop' => hops op' (List.mem_cons_of_mem _ hop')) (h.step env hop)⟩
      cases op with
      | place order clock io inputSeq timestamp clientOrderId fees =>
          obtain rfl : order.symbolId = s := hop
          exact ⟨h.ubs.trans h.me.symm, Or.inl h.wal⟩
      | _ => exact ⟨trivial, trivial⟩

end Ready

/-- Two users fund their accounts; one sells 2 units, the other buys 7, above the price asked,
and cancels the rest. -/
def refundedRun : List Op :=
  [.deposit 7 10 5 1, .deposit 8 20 1000 2,
    .place ⟨1, 7, 1, .sell, 100, 2, .limit⟩ 0 .healthy 1 0 "a" (fun _ => (1, 1)),
    .place ⟨2, 8, 1, .buy, 110, 7, .limit⟩ 0 .healthy 2 0 "b" (fun _ => (1, 1)),
    .cancel .healthy 1 2]

/-- The run, after the registrations, meets the conditions. -/
theorem fund_safety_refund :
    ¬∃ env : Externals, ¬((∀ answer ∈ (machine env).answers (new false)
        (.registerUbs 1 (10, 20) :: .registerEngine 1 (10, 20) :: refundedRun),
          answer.Succeeded) ∧
      (machine env).Throughout FrozenMatches (new false)
        (.registerUbs 1 (10, 20) :: .registerEngine 1 (10, 20) :: refundedRun)) := by
  rintro ⟨env, hnot⟩
  have hready : Ready ⟨UBSCore.new.registerSymbol 1 (10, 20),
      ((MatchingEngine.new false).registerSymbol 1 (10, 20)).2⟩ 1 (10, 20) :=
    ⟨(EngineInv.new false).registerSymbol 1 (10, 20), rfl, rfl, rfl⟩
  have htrades : ∀ op ∈ refundedRun, op.Trades 1 := by
    simp [refundedRun, Op.Trades]
  have hoffered : (refundedRun.filterMap Op.offeredId).Nodup := by decide
  refine hnot (fund_safety env false _
    ⟨⟨trivial, trivial⟩, ⟨trivial, trivial⟩, hready.allSteps env _ htrades⟩
    (hoffered.sublist (fedIds_sublist env _ (new false))) (fun a => ?_))
  simp only [deposited, refundedRun, Op.deposited, List.map_cons, List.map_nil, List.sum_cons,
    List.sum_nil]
  split_ifs <;> decide

/-- User 7 has 5 units and sells 2, but the disk of the engine's order WAL is full. -/
def strandedRun : List Op :=
  [.registerUbs 1 (10, 20), .registerEngine 1 (10, 20), .deposit 7 10 5 1,
    .place ⟨1, 7, 1, .sell, 100, 2, .limit⟩ 0 ⟨.error "disk full", .ok ()⟩ 1 0 "a"
      (fun _ => (1, 1))]

/-- **Stranded funds.**  An order that cannot be logged is refused after its funds have been frozen,
and nothing releases them. -/
theorem unlogged_order_strands :
    ¬∀ (env : Externals) (enableLocalWal : Bool) (ops : List Op),
      (machine env).AllSteps KnownAlike (new enableLocalWal) ops →
      (fedIds ((machine env).answers (new enableLocalWal) ops)).Nodup →
      (∀ a, deposited a ops < 2 ^ 63) →
        (∀ answer ∈ (machine env).answers (new enableLocalWal) ops, answer.Succeeded) ∧
          (machine env).Throughout FrozenMatches (new enableLocalWal) ops := by
  intro h
  let env : Externals := ⟨fun _ => 0, fun _ _ => 0, fun _ => 0, fun _ => []⟩
  have hoffered : (strandedRun.filterMap Op.offeredId).Nodup := by decide
  obtain ⟨-, -, -, -, -, hlast⟩ := h env true strandedRun ⟨trivial, trivial, trivial, rfl, trivial⟩
    (hoffered.sublist (fedIds_sublist env _ (new true))) (fun a => by
      simp only [deposited, strandedRun, Op.deposited, List.map_cons, List.map_nil, List.sum_cons,
        List.sum_nil]
      split_ifs <;> decide)
  exact absurd (hlast 7 10) (by decide +kernel)

end Exchange

end ExchangeCore

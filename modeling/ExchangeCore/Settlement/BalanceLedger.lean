import ExchangeCore.Engine.Ledger
import ExchangeCore.Framework.Fallible
import ExchangeCore.Framework.Machine
import ExchangeCore.Framework.Table
import ExchangeCore.Framework.Word

/-!
# The balance ledger of the settlement database

The append-only table `balance_ledger` and its writers in `settlement_db.rs`: `deposit`, `lock`,
`unlock`, `withdraw` and `settle_trade_atomically`.  A row carries the change of the available and
the frozen balance and, beside it, the balances after it.  Every writer reads the newest row of the
user and asset and computes both; an insert of a sequence number that is taken does nothing.

`settle_trade_atomically` takes what the buyer pays and the seller delivers from the frozen balance,
but writes them off the available balance as well.  So the rows add up exactly as long as no trade
of a positive quantity is settled (`ledger_consistent_iff`).

The statements are assumed to be executed.  Times are left out.
-/

namespace ExchangeCore

/-- `BalanceLedgerEntry`, a row of `balance_ledger`. -/
structure BalanceLedgerEntry where
  userId : Int64
  assetId : Int32
  seq : Int64
  deltaAvail : Int64
  deltaFrozen : Int64
  avail : Int64
  frozen : Int64
  eventType : String
  refId : Int64
  deriving DecidableEq, Repr

/-- The partition of a user and asset. -/
def ledgerAccount (userId : UInt64) (assetId : UInt32) : Int64 × Int32 :=
  (userId.toInt64, assetId.toInt32)

namespace BalanceLedgerEntry

/-- The user and asset of a row. -/
def account (entry : BalanceLedgerEntry) : Int64 × Int32 := (entry.userId, entry.assetId)

/-- The primary key of a row. -/
def key (entry : BalanceLedgerEntry) : (Int64 × Int32) × ℤ := (entry.account, entry.seq.toInt)

end BalanceLedgerEntry

/-- A row that has been inserted, and the newest one of its user and asset before. -/
structure LedgerAppend where
  previous : Option BalanceLedgerEntry
  entry : BalanceLedgerEntry
  deriving DecidableEq

structure CurrentBalance where
  seq : Int64
  avail : Int64
  frozen : Int64
  deriving DecidableEq, Repr

/-- The tables `balance_ledger` and `settled_trades`, of the latter the keys `trade_date` and
`trade_id`, and the rows appended to the former, in order. -/
structure SettlementTables where
  balanceLedger : Table (Int64 × Int32) ℤ BalanceLedgerEntry
  /-- Rows are where their columns say. -/
  keyed : ∀ key entry, balanceLedger.rowAt key = some entry → entry.key = key
  settledTrades : Finset (Int32 × Int64)
  appends : List LedgerAppend

namespace SettlementTables

lemma keyed_empty (key : (Int64 × Int32) × ℤ) (entry : BalanceLedgerEntry)
    (h : (Table.empty : Table (Int64 × Int32) ℤ BalanceLedgerEntry).rowAt key = some entry) :
    entry.key = key := by
  rw [Table.rowAt_empty] at h
  exact absurd h (by simp)

lemma keyed_insert (t : SettlementTables) (entry : BalanceLedgerEntry)
    (key : (Int64 × Int32) × ℤ) (found : BalanceLedgerEntry)
    (h : (t.balanceLedger.insertRow entry.key entry).rowAt key = some found) :
    found.key = key := by
  rw [Table.rowAt_insertRow] at h
  split at h
  · rename_i hkey
    rw [← Option.some.inj h, hkey]
  · exact t.keyed key found h

/-- No rows. -/
def empty : SettlementTables := ⟨.empty, keyed_empty, ∅, []⟩

/-- The newest row of a user and asset. -/
def latest (t : SettlementTables) (account : Int64 × Int32) : Option BalanceLedgerEntry :=
  (t.balanceLedger.newest account).map Prod.snd

def getCurrentBalance (t : SettlementTables) (userId : UInt64) (assetId : UInt32) :
    Option CurrentBalance :=
  (t.latest (ledgerAccount userId assetId)).map (fun entry =>
    ⟨entry.seq, entry.avail, entry.frozen⟩)

/-- `append_balance_event`, on the values it inserts: `INSERT … IF NOT EXISTS`. -/
def appendBalanceEvent (entry : BalanceLedgerEntry) (t : SettlementTables) : SettlementTables :=
  if (t.balanceLedger.rowAt entry.key).isSome then t
  else { t with
    balanceLedger := t.balanceLedger.insertRow entry.key entry
    keyed := t.keyed_insert entry
    appends := t.appends ++ [⟨t.latest entry.account, entry⟩] }

end SettlementTables

/-- The values `append_balance_event` inserts. -/
def balanceEvent (userId : UInt64) (assetId : UInt32) (seq : UInt64)
    (deltaAvail deltaFrozen avail frozen : Int64) (eventType : String) (refId : UInt64) :
    BalanceLedgerEntry where
  userId := userId.toInt64
  assetId := assetId.toInt32
  seq := seq.toInt64
  deltaAvail := deltaAvail
  deltaFrozen := deltaFrozen
  avail := avail
  frozen := frozen
  eventType := eventType
  refId := refId.toInt64

/-! ## Deposits, locks and withdrawals -/

/-- The arguments of `deposit`, `lock`, `unlock` and `withdraw`. -/
structure ChangeRequest where
  userId : UInt64
  assetId : UInt32
  amount : UInt64
  newSeq : UInt64
  refId : UInt64
  deriving DecidableEq, Repr

namespace SettlementDb

/-- What the four have in common once they have the current balance: nothing for a sequence number
that is not new, and else a row with the changes. -/
def appendChange (deltaAvail deltaFrozen : Int64) (eventType : String) (r : ChangeRequest)
    (current : CurrentBalance) : Fallible SettlementTables String CurrentBalance := fun t =>
  if r.newSeq ≤ current.seq.toUInt64 then (.ok current, t)
  else
    let newAvail := current.avail + deltaAvail
    let newFrozen := current.frozen + deltaFrozen
    (.ok ⟨r.newSeq.toInt64, newAvail, newFrozen⟩,
      t.appendBalanceEvent (balanceEvent r.userId r.assetId r.newSeq deltaAvail deltaFrozen newAvail
        newFrozen eventType r.refId))

/-- A change of a balance that must exist. -/
def changeExisting (deltaAvail deltaFrozen : Int64) (eventType : String) (r : ChangeRequest) :
    Fallible SettlementTables String CurrentBalance := fun t =>
  match t.getCurrentBalance r.userId r.assetId with
  | none =>
      let user := r.userId
      let asset := r.assetId
      (.error s!"No balance for user {user} asset {asset} - deposit required first", t)
  | some current => appendChange deltaAvail deltaFrozen eventType r current t

def deposit (r : ChangeRequest) : Fallible SettlementTables String CurrentBalance := fun t =>
  appendChange r.amount.toInt64 0 "deposit" r
    ((t.getCurrentBalance r.userId r.assetId).getD ⟨0, 0, 0⟩) t

def lock (r : ChangeRequest) : Fallible SettlementTables String CurrentBalance :=
  changeExisting (-r.amount.toInt64) r.amount.toInt64 "lock" r

def unlock (r : ChangeRequest) : Fallible SettlementTables String CurrentBalance :=
  changeExisting r.amount.toInt64 (-r.amount.toInt64) "unlock" r

def withdraw (r : ChangeRequest) : Fallible SettlementTables String CurrentBalance :=
  changeExisting (-r.amount.toInt64) 0 "withdraw" r

/-! ## Trades -/

/-- `get_consistent_balance`.  It reads again while the version is older than expected; in a
sequence of calls it finds the same row again. -/
def getConsistentBalance (t : SettlementTables) (userId : UInt64) (assetId : UInt32) :
    Except String CurrentBalance :=
  match t.getCurrentBalance userId assetId with
  | none => .error s!"Balance not found for user {userId} asset {assetId} - deposit required first"
  | some current => .ok current

/-- The balances `settle_trade_atomically` reads. -/
structure TradeBalances where
  buyerBase : CurrentBalance
  buyerQuote : CurrentBalance
  sellerBase : CurrentBalance
  sellerQuote : CurrentBalance

/-- The reads of `settle_trade_atomically`. -/
def readBalances (trade : MatchExecData) (t : SettlementTables) : Except String TradeBalances := do
  let buyerBase ← getConsistentBalance t trade.buyerUserId trade.baseAssetId
  let buyerQuote ← getConsistentBalance t trade.buyerUserId trade.quoteAssetId
  let sellerBase ← getConsistentBalance t trade.sellerUserId trade.baseAssetId
  let sellerQuote ← getConsistentBalance t trade.sellerUserId trade.quoteAssetId
  pure ⟨buyerBase, buyerQuote, sellerBase, sellerQuote⟩

/-- The check of one version: that of the engine, or the one before. -/
def checkVersion (label : String) (ver : Int64) (version : UInt64) : Except String Unit :=
  if ver ≥ version.toInt64 then
    if ver = version.toInt64 then .ok ()
    else .error s!"Version mismatch {label} (DB ahead?): DB={ver} ME={version}"
  else if ver ≠ version.toInt64 - 1 then .error s!"Version gap {label}: DB={ver} ME={version}"
  else .ok ()

/-- The checks of the four versions. -/
def checkVersions (trade : MatchExecData) (b : TradeBalances) : Except String Unit := do
  checkVersion "Buyer Base" b.buyerBase.seq trade.buyerBaseVersion
  checkVersion "Buyer Quote" b.buyerQuote.seq trade.buyerQuoteVersion
  checkVersion "Seller Base" b.sellerBase.seq trade.sellerBaseVersion
  checkVersion "Seller Quote" b.sellerQuote.seq trade.sellerQuoteVersion

/-- The buyer receives the base asset. -/
def buyerBaseEntry (trade : MatchExecData) (b : TradeBalances) : BalanceLedgerEntry :=
  let quantity := trade.quantity.toInt64
  let newBuyerBase := b.buyerBase.avail + quantity
  let newBuyerBaseVer := b.buyerBase.seq + 1
  balanceEvent trade.buyerUserId trade.baseAssetId newBuyerBaseVer.toUInt64 quantity 0 newBuyerBase
    b.buyerBase.frozen "trade_credit" trade.tradeId

/-- The buyer spends the quote asset. -/
def buyerQuoteEntry (trade : MatchExecData) (b : TradeBalances) : BalanceLedgerEntry :=
  let quoteAmount := (trade.price * trade.quantity).toInt64
  let newBuyerQuote := b.buyerQuote.avail - quoteAmount
  let buyerQuoteInc : Int64 := if trade.buyerRefund > 0 then 2 else 1
  let newBuyerQuoteVer := b.buyerQuote.seq + buyerQuoteInc
  balanceEvent trade.buyerUserId trade.quoteAssetId newBuyerQuoteVer.toUInt64 0 (-quoteAmount)
    newBuyerQuote (b.buyerQuote.frozen - quoteAmount) "trade_debit" trade.tradeId

/-- The seller spends the base asset. -/
def sellerBaseEntry (trade : MatchExecData) (b : TradeBalances) : BalanceLedgerEntry :=
  let quantity := trade.quantity.toInt64
  let newSellerBase := b.sellerBase.avail - quantity
  let sellerBaseInc : Int64 := if trade.sellerRefund > 0 then 2 else 1
  let newSellerBaseVer := b.sellerBase.seq + sellerBaseInc
  balanceEvent trade.sellerUserId trade.baseAssetId newSellerBaseVer.toUInt64 0 (-quantity)
    newSellerBase (b.sellerBase.frozen - quantity) "trade_debit" trade.tradeId

/-- The seller receives the quote asset. -/
def sellerQuoteEntry (trade : MatchExecData) (b : TradeBalances) : BalanceLedgerEntry :=
  let quoteAmount := (trade.price * trade.quantity).toInt64
  let newSellerQuote := b.sellerQuote.avail + quoteAmount
  let newSellerQuoteVer := b.sellerQuote.seq + 1
  balanceEvent trade.sellerUserId trade.quoteAssetId newSellerQuoteVer.toUInt64 quoteAmount 0
    newSellerQuote b.sellerQuote.frozen "trade_credit" trade.tradeId

/-- The rows of a trade, in the order they are appended. -/
def tradeEntries (trade : MatchExecData) (b : TradeBalances) : List BalanceLedgerEntry :=
  [buyerBaseEntry trade b, buyerQuoteEntry trade b, sellerBaseEntry trade b,
    sellerQuoteEntry trade b]

/-- `settle_trade_atomically`; the date is asked for twice. -/
def settleTradeAtomically (trade : MatchExecData) (checkedOn insertedOn : UInt32) :
    Fallible SettlementTables String Unit := fun t =>
  if (checkedOn.toInt32, trade.tradeId.toInt64) ∈ t.settledTrades then (.ok (), t)
  else
    match readBalances trade t with
    | .error e => (.error e, t)
    | .ok b =>
        match checkVersions trade b with
        | .error e => (.error e, t)
        | .ok _ =>
            let t := { t with
              settledTrades := insert (insertedOn.toInt32, trade.tradeId.toInt64) t.settledTrades }
            (.ok (), (tradeEntries trade b).foldl (fun t entry => t.appendBalanceEvent entry) t)

end SettlementDb

/-- A call of the settlement database. -/
inductive SettlementCall
  | deposit (r : ChangeRequest)
  | lock (r : ChangeRequest)
  | unlock (r : ChangeRequest)
  | withdraw (r : ChangeRequest)
  | settleTradeAtomically (trade : MatchExecData) (checkedOn insertedOn : UInt32)

/-- The database as a machine: it answers `Ok` or the error. -/
def settlementDb : Machine SettlementTables SettlementCall (Except String Unit) where
  step t
    | .deposit r => ((SettlementDb.deposit r t).2, (SettlementDb.deposit r t).1.map (fun _ => ()))
    | .lock r => ((SettlementDb.lock r t).2, (SettlementDb.lock r t).1.map (fun _ => ()))
    | .unlock r => ((SettlementDb.unlock r t).2, (SettlementDb.unlock r t).1.map (fun _ => ()))
    | .withdraw r =>
        ((SettlementDb.withdraw r t).2, (SettlementDb.withdraw r t).1.map (fun _ => ()))
    | .settleTradeAtomically trade checkedOn insertedOn =>
        ((SettlementDb.settleTradeAtomically trade checkedOn insertedOn t).2,
          (SettlementDb.settleTradeAtomically trade checkedOn insertedOn t).1)

/-! ## What is asked of the rows -/

namespace LedgerAppend

/-- The balances of a row are those of the newest row before it and the changes. -/
def Consistent (a : LedgerAppend) : Prop :=
  a.entry.avail.toInt =
      (a.previous.elim 0 BalanceLedgerEntry.avail).toInt + a.entry.deltaAvail.toInt ∧
    a.entry.frozen.toInt =
      (a.previous.elim 0 BalanceLedgerEntry.frozen).toInt + a.entry.deltaFrozen.toInt

instance (a : LedgerAppend) : Decidable a.Consistent := inferInstanceAs (Decidable (_ ∧ _))

end LedgerAppend

/-- The total change of an asset. -/
def deltaSum (asset : Int32) (appends : List LedgerAppend) : ℤ :=
  ((appends.filter (fun a => a.entry.assetId = asset)).map
    (fun a => a.entry.deltaAvail.toInt + a.entry.deltaFrozen.toInt)).sum

namespace SettlementTables

/-- The rows a call appends. -/
def newAppends (t : SettlementTables) (call : SettlementCall) : List LedgerAppend :=
  (settlementDb.step t call).1.appends.drop t.appends.length

/-- Every row the call appends is consistent, and the changes of a trade add up to zero in each
asset. -/
def AddsUp (t : SettlementTables) (call : SettlementCall) : Prop :=
  (∀ a ∈ t.newAppends call, a.Consistent) ∧
    ∀ trade checkedOn insertedOn, call = .settleTradeAtomically trade checkedOn insertedOn →
      ∀ asset, deltaSum asset (t.newAppends call) = 0

/-- The call settles a trade of a positive quantity: it is not settled yet, the balances exist and
their versions pass the checks. -/
def SettlesQuantity (t : SettlementTables) : SettlementCall → Prop
  | .settleTradeAtomically trade checkedOn _ =>
      0 < trade.quantity ∧ (checkedOn.toInt32, trade.tradeId.toInt64) ∉ t.settledTrades ∧
        ∃ b, SettlementDb.readBalances trade t = .ok b ∧
          SettlementDb.checkVersions trade b = .ok ()
  | _ => False

end SettlementTables

/-- The integer is an `i64`. -/
def FitsI64 (x : ℤ) : Prop := -2 ^ 63 ≤ x ∧ x < 2 ^ 63

instance (x : ℤ) : Decidable (FitsI64 x) := inferInstanceAs (Decidable (_ ∧ _))

namespace SettlementTables

/-- The amount of a change, and the balances after it, are below `2 ^ 63`. -/
def ChangeInRange (t : SettlementTables) (r : ChangeRequest) (deltaAvail deltaFrozen : ℤ) : Prop :=
  r.amount.toNat < 2 ^ 63 ∧
    let current := (t.getCurrentBalance r.userId r.assetId).getD ⟨0, 0, 0⟩
    FitsI64 (current.avail.toInt + deltaAvail) ∧ FitsI64 (current.frozen.toInt + deltaFrozen)

/-- The version of a balance can be advanced. -/
def VersionInRange (t : SettlementTables) (userId : UInt64) (assetId : UInt32) : Prop :=
  ∀ current ∈ t.getCurrentBalance userId assetId, current.seq.toInt + 1 < 2 ^ 63

/-- Amounts and sums are below `2 ^ 63`. -/
def InRange (t : SettlementTables) : SettlementCall → Prop
  | .deposit r => t.ChangeInRange r r.amount.toNat 0
  | .lock r => t.ChangeInRange r (-r.amount.toNat) r.amount.toNat
  | .unlock r => t.ChangeInRange r r.amount.toNat (-r.amount.toNat)
  | .withdraw r => t.ChangeInRange r (-r.amount.toNat) 0
  | .settleTradeAtomically trade _ _ =>
      trade.quantity.toNat < 2 ^ 63 ∧ trade.price.toNat * trade.quantity.toNat < 2 ^ 63 ∧
        t.VersionInRange trade.buyerUserId trade.baseAssetId

instance (t : SettlementTables) (r : ChangeRequest) (deltaAvail deltaFrozen : ℤ) :
    Decidable (t.ChangeInRange r deltaAvail deltaFrozen) := inferInstanceAs (Decidable (_ ∧ _))

instance (t : SettlementTables) (userId : UInt64) (assetId : UInt32) :
    Decidable (t.VersionInRange userId assetId) :=
  inferInstanceAs (Decidable (∀ current ∈ t.getCurrentBalance userId assetId, _ < _))

instance (t : SettlementTables) : (call : SettlementCall) → Decidable (t.InRange call)
  | .deposit r => inferInstanceAs (Decidable (t.ChangeInRange r r.amount.toNat 0))
  | .lock r => inferInstanceAs (Decidable (t.ChangeInRange r (-r.amount.toNat) r.amount.toNat))
  | .unlock r => inferInstanceAs (Decidable (t.ChangeInRange r r.amount.toNat (-r.amount.toNat)))
  | .withdraw r => inferInstanceAs (Decidable (t.ChangeInRange r (-r.amount.toNat) 0))
  | .settleTradeAtomically _ _ _ => inferInstanceAs (Decidable (_ ∧ _ ∧ _))

end SettlementTables

/-! ## Appending -/

/-- What one append adds. -/
def appended (entry : BalanceLedgerEntry) (t : SettlementTables) : List LedgerAppend :=
  if (t.balanceLedger.rowAt entry.key).isSome then [] else [⟨t.latest entry.account, entry⟩]

/-- What appends add, one after the other. -/
def appendedAll : List BalanceLedgerEntry → SettlementTables → List LedgerAppend
  | [], _ => []
  | entry :: entries, t => appended entry t ++ appendedAll entries (t.appendBalanceEvent entry)

section Appending

open SettlementTables

variable {t : SettlementTables} {entry : BalanceLedgerEntry} {account : Int64 × Int32}

lemma appends_appendBalanceEvent (entry : BalanceLedgerEntry) (t : SettlementTables) :
    (t.appendBalanceEvent entry).appends = t.appends ++ appended entry t := by
  unfold appendBalanceEvent appended
  split
  · rw [List.append_nil]
  · rfl

lemma appends_foldl (entries : List BalanceLedgerEntry) (t : SettlementTables) :
    (entries.foldl (fun t entry => t.appendBalanceEvent entry) t).appends =
      t.appends ++ appendedAll entries t := by
  induction entries generalizing t with
  | nil => rw [appendedAll, List.append_nil]; rfl
  | cons entry entries ih =>
      rw [List.foldl_cons, ih, appends_appendBalanceEvent, appendedAll, List.append_assoc]

lemma mem_appended {a : LedgerAppend} (h : a ∈ appended entry t) :
    a = ⟨t.latest entry.account, entry⟩ := by
  unfold appended at h
  split at h
  · exact absurd h List.not_mem_nil
  · exact List.mem_singleton.mp h

lemma appended_of_absent (h : t.balanceLedger.rowAt entry.key = none) :
    appended entry t = [⟨t.latest entry.account, entry⟩] := by
  rw [appended, h]
  rfl

lemma balanceLedger_appendBalanceEvent (entry : BalanceLedgerEntry) (t : SettlementTables) :
    (t.appendBalanceEvent entry).balanceLedger = t.balanceLedger ∨
      t.balanceLedger.rowAt entry.key = none ∧
        (t.appendBalanceEvent entry).balanceLedger =
          t.balanceLedger.insertRow entry.key entry := by
  rcases hrow : t.balanceLedger.rowAt entry.key with _ | row
  · refine .inr ⟨rfl, ?_⟩
    rw [appendBalanceEvent, hrow]
    rfl
  · left
    rw [appendBalanceEvent, hrow]
    rfl

lemma latest_appendBalanceEvent (entry : BalanceLedgerEntry) (t : SettlementTables)
    (account : Int64 × Int32) :
    (t.appendBalanceEvent entry).latest account = t.latest account ∨
      account = entry.account ∧ (t.appendBalanceEvent entry).latest account = some entry := by
  rcases balanceLedger_appendBalanceEvent entry t with hsame | ⟨hrow, htable⟩
  · exact .inl (by rw [latest, hsame, latest])
  · rcases Table.newest_insertRow t.balanceLedger hrow entry account with hsame | ⟨hwhich, hnew⟩
    · exact .inl (by rw [latest, htable, hsame, latest])
    · refine .inr ⟨hwhich, ?_⟩
      rw [latest, htable, hnew]
      rfl

end Appending

/-! ## Changes -/

section Changes

open SettlementTables SettlementDb

variable {t : SettlementTables} {r : ChangeRequest}

/-- A row of the changes, with the balances read before it and the changes added, is consistent. -/
lemma appendChange_consistent {deltaAvail deltaFrozen : Int64} {eventType : String}
    {current : CurrentBalance}
    (havail : current.avail =
      (t.latest (ledgerAccount r.userId r.assetId)).elim 0 BalanceLedgerEntry.avail)
    (hfrozen : current.frozen =
      (t.latest (ledgerAccount r.userId r.assetId)).elim 0 BalanceLedgerEntry.frozen)
    (hfitsAvail : FitsI64 (current.avail.toInt + deltaAvail.toInt))
    (hfitsFrozen : FitsI64 (current.frozen.toInt + deltaFrozen.toInt)) :
    ∀ a ∈ (appendChange deltaAvail deltaFrozen eventType r current t).2.appends.drop
      t.appends.length, a.Consistent := by
  intro a ha
  unfold appendChange at ha
  split at ha
  · rw [List.drop_length] at ha
    exact absurd ha List.not_mem_nil
  · dsimp only at ha
    rw [appends_appendBalanceEvent, List.drop_left] at ha
    obtain rfl := mem_appended ha
    constructor
    · show (current.avail + deltaAvail).toInt = _ + deltaAvail.toInt
      rw [Word.toInt_add_of_fits hfitsAvail.1 hfitsAvail.2, havail]
      rfl
    · show (current.frozen + deltaFrozen).toInt = _ + deltaFrozen.toInt
      rw [Word.toInt_add_of_fits hfitsFrozen.1 hfitsFrozen.2, hfrozen]
      rfl

lemma avail_current (t : SettlementTables) (userId : UInt64) (assetId : UInt32) :
    ((t.getCurrentBalance userId assetId).getD ⟨0, 0, 0⟩).avail =
      (t.latest (ledgerAccount userId assetId)).elim 0 BalanceLedgerEntry.avail := by
  rw [getCurrentBalance]
  cases t.latest (ledgerAccount userId assetId) with
  | none => rfl
  | some entry => rfl

lemma frozen_current (t : SettlementTables) (userId : UInt64) (assetId : UInt32) :
    ((t.getCurrentBalance userId assetId).getD ⟨0, 0, 0⟩).frozen =
      (t.latest (ledgerAccount userId assetId)).elim 0 BalanceLedgerEntry.frozen := by
  rw [getCurrentBalance]
  cases t.latest (ledgerAccount userId assetId) with
  | none => rfl
  | some entry => rfl

lemma deposit_consistent (h : t.ChangeInRange r r.amount.toNat 0) :
    ∀ a ∈ (deposit r t).2.appends.drop t.appends.length, a.Consistent := by
  obtain ⟨hamount, havail, hfrozen⟩ := h
  refine appendChange_consistent (avail_current t _ _) (frozen_current t _ _) ?_ ?_
  · rw [Word.toInt_toInt64 hamount]
    exact havail
  · exact hfrozen

lemma changeExisting_consistent {deltaAvail deltaFrozen : Int64} {eventType : String}
    (h : t.ChangeInRange r deltaAvail.toInt deltaFrozen.toInt) :
    ∀ a ∈ (changeExisting deltaAvail deltaFrozen eventType r t).2.appends.drop t.appends.length,
      a.Consistent := by
  obtain ⟨-, havail, hfrozen⟩ := h
  intro a ha
  have hcurrentAvail := avail_current t r.userId r.assetId
  have hcurrentFrozen := frozen_current t r.userId r.assetId
  unfold changeExisting at ha
  rcases hread : t.getCurrentBalance r.userId r.assetId with _ | current
  · rw [hread] at ha
    dsimp only at ha
    rw [List.drop_length] at ha
    exact absurd ha List.not_mem_nil
  · rw [hread] at ha hcurrentAvail hcurrentFrozen havail hfrozen
    exact appendChange_consistent hcurrentAvail hcurrentFrozen havail hfrozen a ha

end Changes

/-! ## Trades -/

section Trades

open SettlementTables SettlementDb

variable {t : SettlementTables} {trade : MatchExecData} {b : TradeBalances}

lemma LedgerAppend.Consistent.words {a : LedgerAppend} (h : a.Consistent) :
    a.entry.avail = a.previous.elim 0 BalanceLedgerEntry.avail + a.entry.deltaAvail ∧
      a.entry.frozen = a.previous.elim 0 BalanceLedgerEntry.frozen + a.entry.deltaFrozen :=
  ⟨Word.eq_add_of_toInt_eq h.1, Word.eq_add_of_toInt_eq h.2⟩

/-- A balance read is that of the newest row, and behind it there is no other. -/
lemma latest_of_getCurrentBalance {userId : UInt64} {assetId : UInt32} {current : CurrentBalance}
    (h : t.getCurrentBalance userId assetId = some current) :
    ∃ entry, t.latest (ledgerAccount userId assetId) = some entry ∧
      entry.avail = current.avail ∧ entry.frozen = current.frozen ∧
      ∀ k, current.seq.toInt < k →
        t.balanceLedger.rowAt (ledgerAccount userId assetId, k) = none := by
  rw [getCurrentBalance, latest] at h
  rcases hnewest : t.balanceLedger.newest (ledgerAccount userId assetId) with _ | ⟨k, entry⟩
  · rw [hnewest] at h
    exact absurd h (by simp)
  · rw [hnewest] at h
    obtain rfl := Option.some.inj h
    refine ⟨entry, by rw [latest, hnewest]; rfl, rfl, rfl, fun k' hlt => ?_⟩
    have hkey := t.keyed _ _ (Table.newest_eq_some_iff.mp hnewest).1
    obtain rfl : entry.seq.toInt = k := (Prod.mk.inj hkey).2
    exact Table.rowAt_eq_none_of_newest_lt hnewest hlt

lemma getConsistentBalance_eq_ok {userId : UInt64} {assetId : UInt32} {current : CurrentBalance}
    (h : getConsistentBalance t userId assetId = .ok current) :
    t.getCurrentBalance userId assetId = some current := by
  rw [getConsistentBalance] at h
  split at h
  · exact absurd h (by simp)
  · rename_i found hfound
    rw [hfound, Except.ok.inj h]

/-- The balances a trade is settled with are the current ones. -/
structure ReadFrom (trade : MatchExecData) (t : SettlementTables) (b : TradeBalances) : Prop where
  buyerBase : t.getCurrentBalance trade.buyerUserId trade.baseAssetId = some b.buyerBase
  buyerQuote : t.getCurrentBalance trade.buyerUserId trade.quoteAssetId = some b.buyerQuote
  sellerBase : t.getCurrentBalance trade.sellerUserId trade.baseAssetId = some b.sellerBase
  sellerQuote : t.getCurrentBalance trade.sellerUserId trade.quoteAssetId = some b.sellerQuote

lemma readBalances_eq_ok (h : readBalances trade t = .ok b) : ReadFrom trade t b := by
  rw [readBalances] at h
  obtain ⟨buyerBase, hbuyerBase, h⟩ := Except.exists_of_bind_eq_ok h
  obtain ⟨buyerQuote, hbuyerQuote, h⟩ := Except.exists_of_bind_eq_ok h
  obtain ⟨sellerBase, hsellerBase, h⟩ := Except.exists_of_bind_eq_ok h
  obtain ⟨sellerQuote, hsellerQuote, h⟩ := Except.exists_of_bind_eq_ok h
  obtain rfl := Except.ok.inj h
  exact ⟨getConsistentBalance_eq_ok hbuyerBase, getConsistentBalance_eq_ok hbuyerQuote,
    getConsistentBalance_eq_ok hsellerBase, getConsistentBalance_eq_ok hsellerQuote⟩

lemma eq_of_account_eq {userId userId' : UInt64} {assetId assetId' : UInt32}
    {current current' : CurrentBalance} (h : t.getCurrentBalance userId assetId = some current)
    (h' : t.getCurrentBalance userId' assetId' = some current')
    (heq : ledgerAccount userId assetId = ledgerAccount userId' assetId') : current = current' := by
  rw [getCurrentBalance, heq] at h
  exact Option.some.inj (h.symm.trans h')

/-! ### Without a quantity -/

/-- A row that repeats the balances of the newest one. -/
def Repeats (t : SettlementTables) (entry : BalanceLedgerEntry) : Prop :=
  entry.deltaAvail = 0 ∧ entry.deltaFrozen = 0 ∧ ∃ last, t.latest entry.account = some last ∧
    entry.avail = last.avail ∧ entry.frozen = last.frozen

lemma Repeats.append {entry other : BalanceLedgerEntry} (hentry : Repeats t entry)
    (hother : Repeats t other) : Repeats (t.appendBalanceEvent entry) other := by
  obtain ⟨hdeltaAvail, hdeltaFrozen, last, hlast, havail, hfrozen⟩ := hother
  refine ⟨hdeltaAvail, hdeltaFrozen, ?_⟩
  rcases latest_appendBalanceEvent entry t other.account with hsame | ⟨haccount, hnew⟩
  · exact ⟨last, hsame.trans hlast, havail, hfrozen⟩
  · obtain ⟨-, -, last', hlast', havail', hfrozen'⟩ := hentry
    rw [← haccount, hlast] at hlast'
    obtain rfl := Option.some.inj hlast'
    exact ⟨entry, hnew, havail.trans havail'.symm, hfrozen.trans hfrozen'.symm⟩

/-- Rows that repeat balances are consistent, one after the other, and change nothing. -/
lemma appendedAll_of_repeats {entries : List BalanceLedgerEntry}
    (h : ∀ entry ∈ entries, Repeats t entry) : ∀ a ∈ appendedAll entries t,
      a.Consistent ∧ a.entry.deltaAvail = 0 ∧ a.entry.deltaFrozen = 0 := by
  induction entries generalizing t with
  | nil => exact fun a ha => absurd ha List.not_mem_nil
  | cons entry entries ih =>
      rw [List.forall_mem_cons] at h
      obtain ⟨hentry, hrest⟩ := h
      intro a ha
      rcases List.mem_append.mp ha with ha | ha
      · obtain rfl := mem_appended ha
        obtain ⟨hdeltaAvail, hdeltaFrozen, last, hlast, havail, hfrozen⟩ := hentry
        refine ⟨⟨?_, ?_⟩, hdeltaAvail, hdeltaFrozen⟩
        · show entry.avail.toInt = ((t.latest entry.account).elim 0
            BalanceLedgerEntry.avail).toInt + entry.deltaAvail.toInt
          rw [hlast, hdeltaAvail, havail]
          exact (Int.add_zero _).symm
        · show entry.frozen.toInt = ((t.latest entry.account).elim 0
            BalanceLedgerEntry.frozen).toInt + entry.deltaFrozen.toInt
          rw [hlast, hdeltaFrozen, hfrozen]
          exact (Int.add_zero _).symm
      · exact ih (fun other hother => hentry.append (hrest other hother)) a ha

lemma deltaSum_eq_zero {appends : List LedgerAppend} (asset : Int32)
    (h : ∀ a ∈ appends, a.entry.deltaAvail = 0 ∧ a.entry.deltaFrozen = 0) :
    deltaSum asset appends = 0 := by
  refine List.sum_eq_zero (fun x hx => ?_)
  obtain ⟨a, ha, rfl⟩ := List.mem_map.mp hx
  obtain ⟨hdeltaAvail, hdeltaFrozen⟩ := h a (List.mem_of_mem_filter ha)
  rw [hdeltaAvail, hdeltaFrozen]
  rfl

lemma tradeEntries_repeat (hread : ReadFrom trade t b) (hquantity : trade.quantity = 0) :
    ∀ entry ∈ tradeEntries trade b, Repeats t entry := by
  have hzero : trade.quantity.toInt64 = 0 := by rw [hquantity]; rfl
  have hquote : (trade.price * trade.quantity).toInt64 = 0 := by
    rw [hquantity, UInt64.mul_zero]
    rfl
  obtain ⟨buyerBase, hbuyerBase, hbbAvail, hbbFrozen, -⟩ :=
    latest_of_getCurrentBalance hread.buyerBase
  obtain ⟨buyerQuote, hbuyerQuote, hbqAvail, hbqFrozen, -⟩ :=
    latest_of_getCurrentBalance hread.buyerQuote
  obtain ⟨sellerBase, hsellerBase, hsbAvail, hsbFrozen, -⟩ :=
    latest_of_getCurrentBalance hread.sellerBase
  obtain ⟨sellerQuote, hsellerQuote, hsqAvail, hsqFrozen, -⟩ :=
    latest_of_getCurrentBalance hread.sellerQuote
  intro entry hentry
  rw [tradeEntries] at hentry
  simp only [List.mem_cons, List.not_mem_nil, or_false] at hentry
  -- one case a row: buyer and seller, base and quote
  rcases hentry with rfl | rfl | rfl | rfl
  · refine ⟨hzero, rfl, buyerBase, hbuyerBase, ?_, hbbFrozen.symm⟩
    show b.buyerBase.avail + trade.quantity.toInt64 = _
    rw [hzero, Int64.add_zero, hbbAvail]
  · refine ⟨rfl, ?_, buyerQuote, hbuyerQuote, ?_, ?_⟩
    · show -(trade.price * trade.quantity).toInt64 = 0
      rw [hquote]
      rfl
    · show b.buyerQuote.avail - (trade.price * trade.quantity).toInt64 = _
      rw [hquote, Int64.sub_zero, hbqAvail]
    · show b.buyerQuote.frozen - (trade.price * trade.quantity).toInt64 = _
      rw [hquote, Int64.sub_zero, hbqFrozen]
  · refine ⟨rfl, ?_, sellerBase, hsellerBase, ?_, ?_⟩
    · show -trade.quantity.toInt64 = 0
      rw [hzero]
      rfl
    · show b.sellerBase.avail - trade.quantity.toInt64 = _
      rw [hzero, Int64.sub_zero, hsbAvail]
    · show b.sellerBase.frozen - trade.quantity.toInt64 = _
      rw [hzero, Int64.sub_zero, hsbFrozen]
  · refine ⟨hquote, rfl, sellerQuote, hsellerQuote, ?_, hsqFrozen.symm⟩
    show b.sellerQuote.avail + (trade.price * trade.quantity).toInt64 = _
    rw [hquote, Int64.add_zero, hsqAvail]

/-! ### With a quantity -/

lemma deltaSum_append (asset : Int32) (xs ys : List LedgerAppend) :
    deltaSum asset (xs ++ ys) = deltaSum asset xs + deltaSum asset ys := by
  rw [deltaSum, List.filter_append, List.map_append, List.sum_append, deltaSum, deltaSum]

lemma deltaSum_singleton {asset : Int32} {a : LedgerAppend} (h : a.entry.assetId = asset) :
    deltaSum asset [a] = a.entry.deltaAvail.toInt + a.entry.deltaFrozen.toInt := by
  rw [deltaSum, List.filter_cons_of_pos (by simpa using h), List.filter_nil, List.map_cons,
    List.map_nil, List.sum_singleton]

/-- What one append contributes: nothing, or the changes of its row. -/
lemma deltaSum_appended (asset : Int32) (entry : BalanceLedgerEntry) (t : SettlementTables) :
    deltaSum asset (appended entry t) = 0 ∨
      entry.assetId = asset ∧ appended entry t = [⟨t.latest entry.account, entry⟩] ∧
        deltaSum asset (appended entry t) = entry.deltaAvail.toInt + entry.deltaFrozen.toInt := by
  rcases hrow : t.balanceLedger.rowAt entry.key with _ | row
  · rw [appended_of_absent hrow]
    by_cases hasset : entry.assetId = asset
    · exact .inr ⟨hasset, rfl, deltaSum_singleton hasset⟩
    · left
      rw [deltaSum, List.filter_cons_of_neg (by simpa using hasset)]
      rfl
  · left
    rw [appended, hrow]
    rfl

/-- The row of the seller's base asset takes the quantity from the available balance as well, which
no newest row before it makes up for. -/
lemma sellerBase_not_consistent (hread : ReadFrom trade t b) (hpos : 0 < trade.quantity.toNat)
    (hquantity : trade.quantity.toNat < 2 ^ 63) {previous : Option BalanceLedgerEntry}
    (hprevious : previous = t.latest (ledgerAccount trade.sellerUserId trade.baseAssetId) ∨
      ledgerAccount trade.sellerUserId trade.baseAssetId =
          ledgerAccount trade.buyerUserId trade.baseAssetId ∧
        previous = some (buyerBaseEntry trade b) ∨
      ledgerAccount trade.sellerUserId trade.baseAssetId =
          ledgerAccount trade.buyerUserId trade.quoteAssetId ∧
        previous = some (buyerQuoteEntry trade b)) :
    ¬LedgerAppend.Consistent ⟨previous, sellerBaseEntry trade b⟩ := by
  intro hconsistent
  obtain ⟨havail, hfrozen⟩ := hconsistent.words
  have hq : trade.quantity.toInt64.toInt = trade.quantity.toNat := Word.toInt_toInt64 hquantity
  have hnonneg : 0 ≤ trade.quantity.toInt64.toInt := by omega
  change b.sellerBase.avail - trade.quantity.toInt64 =
    previous.elim 0 BalanceLedgerEntry.avail + 0 at havail
  change b.sellerBase.frozen - trade.quantity.toInt64 =
    previous.elim 0 BalanceLedgerEntry.frozen + -trade.quantity.toInt64 at hfrozen
  have hne : trade.quantity.toInt64 ≠ 0 := by
    intro hzero
    rw [hzero] at hq
    have hcast : ((0 : Int64).toInt) = 0 := rfl
    omega
  rcases hprevious with rfl | ⟨haccount, rfl⟩ | ⟨haccount, rfl⟩
  · obtain ⟨last, hlast, hlastAvail, -, -⟩ := latest_of_getCurrentBalance hread.sellerBase
    rw [hlast] at havail
    change _ = last.avail + 0 at havail
    rw [hlastAvail] at havail
    exact hne (by grind)
  · obtain hsame := eq_of_account_eq hread.sellerBase hread.buyerBase haccount
    change _ = b.buyerBase.avail + trade.quantity.toInt64 + 0 at havail
    rw [hsame] at havail
    have hdouble : trade.quantity.toInt64 + trade.quantity.toInt64 = 0 := by grind
    have hzero := (Word.toInt_eq_zero_of_add hnonneg hnonneg hdouble).1
    omega
  · obtain hsame := eq_of_account_eq hread.sellerBase hread.buyerQuote haccount
    change _ = b.buyerQuote.avail - (trade.price * trade.quantity).toInt64 + 0 at havail
    change _ = b.buyerQuote.frozen - (trade.price * trade.quantity).toInt64 +
      -trade.quantity.toInt64 at hfrozen
    rw [hsame] at havail hfrozen
    have hquote : (trade.price * trade.quantity).toInt64 = 0 := by grind
    exact hne (by grind)

lemma rowAt_of_advanced {userId : UInt64} {assetId : UInt32} {current : CurrentBalance}
    (hcurrent : t.getCurrentBalance userId assetId = some current)
    (hrange : t.VersionInRange userId assetId) {entry : BalanceLedgerEntry}
    (haccount : entry.account = ledgerAccount userId assetId)
    (hseq : entry.seq = (current.seq + 1).toUInt64.toInt64) :
    t.balanceLedger.rowAt entry.key = none := by
  obtain ⟨-, -, -, -, hbehind⟩ := latest_of_getCurrentBalance hcurrent
  have hmin := current.seq.le_toInt
  have hmax := hrange current hcurrent
  have hone : (1 : Int64).toInt = 1 := rfl
  have hnext : entry.seq.toInt = current.seq.toInt + 1 := by
    rw [hseq, Int64.toInt64_toUInt64, Word.toInt_add_of_fits (by omega) (by omega), hone]
  rw [BalanceLedgerEntry.key, haccount]
  exact hbehind _ (by omega)

lemma trade_not_addsUp (hread : ReadFrom trade t b) (hpos : 0 < trade.quantity.toNat)
    (hquantity : trade.quantity.toNat < 2 ^ 63)
    (hproduct : trade.price.toNat * trade.quantity.toNat < 2 ^ 63)
    (hbuyerBase : t.VersionInRange trade.buyerUserId trade.baseAssetId) :
    ¬((∀ a ∈ appendedAll (tradeEntries trade b) t, a.Consistent) ∧
      ∀ asset, deltaSum asset (appendedAll (tradeEntries trade b) t) = 0) := by
  rintro ⟨hall, hsum⟩
  have hsplit : appendedAll (tradeEntries trade b) t =
      appended (buyerBaseEntry trade b) t ++
        (appended (buyerQuoteEntry trade b) (t.appendBalanceEvent (buyerBaseEntry trade b)) ++
          (appended (sellerBaseEntry trade b) ((t.appendBalanceEvent
            (buyerBaseEntry trade b)).appendBalanceEvent (buyerQuoteEntry trade b)) ++
            (appended (sellerQuoteEntry trade b) (((t.appendBalanceEvent
              (buyerBaseEntry trade b)).appendBalanceEvent
                (buyerQuoteEntry trade b)).appendBalanceEvent (sellerBaseEntry trade b)) ++
              []))) := rfl
  rw [hsplit] at hall hsum
  set t₁ := t.appendBalanceEvent (buyerBaseEntry trade b) with ht₁
  set t₂ := t₁.appendBalanceEvent (buyerQuoteEntry trade b) with ht₂
  have hq : trade.quantity.toInt64.toInt = trade.quantity.toNat := Word.toInt_toInt64 hquantity
  have hqa : (trade.price * trade.quantity).toInt64.toInt =
      (trade.price.toNat * trade.quantity.toNat : ℕ) := by
    have hmul := Word.toNat_mul_of_lt (a := trade.price) (b := trade.quantity) (by omega)
    rw [Word.toInt_toInt64 (by omega), hmul]
  have hqaNonneg : 0 ≤ (trade.price * trade.quantity).toInt64.toInt := by omega
  -- The buyer's base asset is credited.
  have hfirst : t.balanceLedger.rowAt (buyerBaseEntry trade b).key = none :=
    rowAt_of_advanced hread.buyerBase hbuyerBase rfl rfl
  have hcredit : deltaSum trade.baseAssetId.toInt32 (appended (buyerBaseEntry trade b) t) =
      trade.quantity.toNat := by
    rw [appended_of_absent hfirst,
      @deltaSum_singleton trade.baseAssetId.toInt32 ⟨_, buyerBaseEntry trade b⟩ rfl]
    show trade.quantity.toInt64.toInt + 0 = _
    rw [hq, Int.add_zero]
  rcases hrow : t₂.balanceLedger.rowAt (sellerBaseEntry trade b).key with _ | row
  · -- The seller's row is appended, and not consistent.
    have hmem : (⟨t₂.latest (sellerBaseEntry trade b).account, sellerBaseEntry trade b⟩ :
        LedgerAppend) ∈ appended (sellerBaseEntry trade b) t₂ := by
      rw [appended_of_absent hrow]
      exact List.mem_cons_self
    refine sellerBase_not_consistent hread hpos hquantity ?_ (hall _ (List.mem_append_right _
      (List.mem_append_right _ (List.mem_append_left _ hmem))))
    rcases latest_appendBalanceEvent (buyerQuoteEntry trade b) t₁
      (sellerBaseEntry trade b).account with hsame | ⟨haccount, hnew⟩
    · rcases latest_appendBalanceEvent (buyerBaseEntry trade b) t
        (sellerBaseEntry trade b).account with hsame' | ⟨haccount, hnew⟩
      · exact .inl (hsame.trans hsame')
      · exact .inr (.inl ⟨haccount, hsame.trans hnew⟩)
    · exact .inr (.inr ⟨haccount, hnew⟩)
  · -- It is not appended, and the credit is left alone.
    have hthird : appended (sellerBaseEntry trade b) t₂ = [] := by
      rw [appended, hrow]
      rfl
    have htotal := hsum trade.baseAssetId.toInt32
    rw [hthird, List.nil_append, List.append_nil, deltaSum_append, deltaSum_append, hcredit]
      at htotal
    have hfourth : 0 ≤ deltaSum trade.baseAssetId.toInt32 (appended (sellerQuoteEntry trade b)
        (t₂.appendBalanceEvent (sellerBaseEntry trade b))) := by
      rcases deltaSum_appended trade.baseAssetId.toInt32 (sellerQuoteEntry trade b)
        (t₂.appendBalanceEvent (sellerBaseEntry trade b)) with hnone | ⟨-, -, hsome⟩
      · rw [hnone]
      · rw [hsome]
        show 0 ≤ (trade.price * trade.quantity).toInt64.toInt + 0
        omega
    rcases deltaSum_appended trade.baseAssetId.toInt32 (buyerQuoteEntry trade b) t₁ with
      hnone | ⟨-, hsecond, hdebit⟩
    · rw [hnone] at htotal
      omega
    · -- The buyer's quote asset is debited from the same account: consistent only if it is nothing.
      have hconsistent := hall ⟨t₁.latest (buyerQuoteEntry trade b).account,
        buyerQuoteEntry trade b⟩ (by rw [hsecond]; simp)
      have havail := hconsistent.words.1
      change b.buyerQuote.avail - (trade.price * trade.quantity).toInt64 =
        (t₁.latest (buyerQuoteEntry trade b).account).elim 0 BalanceLedgerEntry.avail + 0 at havail
      have hnothing : (trade.price * trade.quantity).toInt64 = 0 := by
        rcases latest_appendBalanceEvent (buyerBaseEntry trade b) t
          (buyerQuoteEntry trade b).account with hsame | ⟨haccount, hnew⟩
        · obtain ⟨last, hlast, hlastAvail, -, -⟩ := latest_of_getCurrentBalance hread.buyerQuote
          have hlatest : t₁.latest (buyerQuoteEntry trade b).account = some last :=
            hsame.trans hlast
          rw [hlatest] at havail
          change _ = last.avail + 0 at havail
          rw [hlastAvail] at havail
          grind
        · have hsame := eq_of_account_eq hread.buyerQuote hread.buyerBase haccount
          rw [hnew] at havail
          change _ = b.buyerBase.avail + trade.quantity.toInt64 + 0 at havail
          rw [hsame] at havail
          have hcancel : (trade.price * trade.quantity).toInt64 + trade.quantity.toInt64 = 0 := by
            grind
          have hzero := (Word.toInt_eq_zero_of_add hqaNonneg (by omega) hcancel).2
          omega
      have hdebit' : deltaSum trade.baseAssetId.toInt32 (appended (buyerQuoteEntry trade b) t₁) =
          0 := by
        rw [hdebit]
        show 0 + (-(trade.price * trade.quantity).toInt64).toInt = 0
        rw [hnothing]
        rfl
      rw [hdebit'] at htotal
      omega

/-! ## Runs -/

/-- The rows a settlement appends. -/
lemma newAppends_settle {checkedOn insertedOn : UInt32}
    (hnew : (checkedOn.toInt32, trade.tradeId.toInt64) ∉ t.settledTrades)
    (hread : readBalances trade t = .ok b) (hversions : checkVersions trade b = .ok ()) :
    t.newAppends (.settleTradeAtomically trade checkedOn insertedOn) =
      appendedAll (tradeEntries trade b) { t with
        settledTrades := insert (insertedOn.toInt32, trade.tradeId.toInt64) t.settledTrades } := by
  show (settleTradeAtomically trade checkedOn insertedOn t).2.appends.drop t.appends.length = _
  rw [settleTradeAtomically, if_neg hnew, hread]
  dsimp only
  rw [hversions]
  dsimp only
  rw [appends_foldl, List.drop_left]

/-- A settlement that does not come to its rows appends none. -/
lemma newAppends_settle_eq_nil {checkedOn insertedOn : UInt32}
    (hnot : ¬((checkedOn.toInt32, trade.tradeId.toInt64) ∉ t.settledTrades ∧
      ∃ b, readBalances trade t = .ok b ∧ checkVersions trade b = .ok ())) :
    t.newAppends (.settleTradeAtomically trade checkedOn insertedOn) = [] := by
  have hsame : (settleTradeAtomically trade checkedOn insertedOn t).2 = t := by
    rw [settleTradeAtomically]
    split
    · rfl
    · rename_i hnew
      rcases hread : readBalances trade t with e | b
      · rfl
      · dsimp only
        rcases hversions : checkVersions trade b with e | u
        · rfl
        · exact absurd ⟨hnew, b, hread, hversions⟩ hnot
  show (settleTradeAtomically trade checkedOn insertedOn t).2.appends.drop t.appends.length = []
  rw [hsame, List.drop_length]

/-- A settlement adds up exactly if it is not one of a positive quantity. -/
lemma settle_addsUp_iff {checkedOn insertedOn : UInt32}
    (hrange : t.InRange (.settleTradeAtomically trade checkedOn insertedOn)) :
    t.AddsUp (.settleTradeAtomically trade checkedOn insertedOn) ↔
      ¬t.SettlesQuantity (.settleTradeAtomically trade checkedOn insertedOn) := by
  obtain ⟨hquantity, hproduct, hversion⟩ := hrange
  by_cases hcomes : (checkedOn.toInt32, trade.tradeId.toInt64) ∉ t.settledTrades ∧
      ∃ b, readBalances trade t = .ok b ∧ checkVersions trade b = .ok ()
  · obtain ⟨hnew, b, hread, hversions⟩ := hcomes
    have hrows := @newAppends_settle t trade b checkedOn insertedOn hnew hread hversions
    have hreadFrom := readBalances_eq_ok hread
    -- The table of settled trades has nothing to do with the balances.
    have hreadFrom' : ReadFrom trade { t with
        settledTrades := insert (insertedOn.toInt32, trade.tradeId.toInt64) t.settledTrades } b :=
      ⟨hreadFrom.buyerBase, hreadFrom.buyerQuote, hreadFrom.sellerBase, hreadFrom.sellerQuote⟩
    by_cases hpos : 0 < trade.quantity
    · refine iff_of_false ?_ (not_not.mpr ⟨hpos, hnew, b, hread, hversions⟩)
      rintro ⟨hall, hsum⟩
      rw [hrows] at hall hsum
      exact trade_not_addsUp hreadFrom' ((Word.pos_iff _).mp hpos) hquantity hproduct hversion
        ⟨hall, hsum trade checkedOn insertedOn rfl⟩
    · refine iff_of_true ?_ (fun hsettles => hpos hsettles.1)
      have hzero : trade.quantity = 0 := by
        rw [Word.pos_iff] at hpos
        exact UInt64.toNat.inj (Nat.eq_zero_of_not_pos hpos)
      have hrepeats := appendedAll_of_repeats (tradeEntries_repeat hreadFrom' hzero)
      rw [AddsUp, hrows]
      refine ⟨fun a ha => (hrepeats a ha).1, fun _ _ _ _ asset => ?_⟩
      exact deltaSum_eq_zero asset (fun a ha => (hrepeats a ha).2)
  · refine iff_of_true ?_ (fun hsettles => hcomes hsettles.2)
    rw [AddsUp, newAppends_settle_eq_nil hcomes]
    exact ⟨fun a ha => absurd ha List.not_mem_nil, fun _ _ _ _ _ => rfl⟩

/-- In range, a call adds up exactly if it does not settle a trade of a positive quantity. -/
lemma addsUp_iff {call : SettlementCall} (hrange : t.InRange call) :
    t.AddsUp call ↔ ¬t.SettlesQuantity call := by
  have hchange : ∀ r : ChangeRequest, r.amount.toNat < 2 ^ 63 →
      r.amount.toInt64.toInt = r.amount.toNat ∧ (-r.amount.toInt64).toInt = -r.amount.toNat :=
    fun r hamount => ⟨Word.toInt_toInt64 hamount, Word.toInt_neg_toInt64 hamount⟩
  cases call with
  | deposit r =>
      refine iff_of_true ⟨deposit_consistent hrange, fun _ _ _ h => ?_⟩ not_false
      exact absurd h (by simp)
  | lock r =>
      obtain ⟨hplus, hminus⟩ := hchange r hrange.1
      refine iff_of_true ⟨changeExisting_consistent ?_, fun _ _ _ h => absurd h (by simp)⟩ not_false
      rw [hplus, hminus]
      exact hrange
  | unlock r =>
      obtain ⟨hplus, hminus⟩ := hchange r hrange.1
      refine iff_of_true ⟨changeExisting_consistent ?_, fun _ _ _ h => absurd h (by simp)⟩ not_false
      rw [hplus, hminus]
      exact hrange
  | withdraw r =>
      obtain ⟨-, hminus⟩ := hchange r hrange.1
      refine iff_of_true ⟨changeExisting_consistent ?_, fun _ _ _ h => absurd h (by simp)⟩ not_false
      rw [hminus]
      exact hrange
  | settleTradeAtomically trade checkedOn insertedOn => exact settle_addsUp_iff hrange

end Trades

/-- **Running balances.**  Along every run with amounts and sums in range, each row appended adds up
from the newest one before it, and the changes of each trade sum to zero in each asset, exactly if
no trade of a positive quantity is settled. -/
theorem ledger_consistent_iff (t : SettlementTables) {calls : List SettlementCall}
    (hrange : settlementDb.AllSteps SettlementTables.InRange t calls) :
    settlementDb.AllSteps SettlementTables.AddsUp t calls ↔
      settlementDb.AllSteps (fun t call => ¬t.SettlesQuantity call) t calls :=
  Machine.allSteps_congr (fun _ _ (h : True) => h) (fun _ _ _ h => addsUp_iff h) trivial hrange

/-- A deposit of which a part is locked, unlocked and withdrawn. -/
def lockAndWithdraw : List SettlementCall :=
  [.deposit ⟨1, 2, 1000, 1, 1⟩, .lock ⟨1, 2, 200, 2, 2⟩, .unlock ⟨1, 2, 200, 3, 3⟩,
    .withdraw ⟨1, 2, 300, 4, 4⟩]

theorem ledger_consistent_iff_lockAndWithdraw :
    settlementDb.AllSteps SettlementTables.AddsUp .empty lockAndWithdraw :=
  (ledger_consistent_iff .empty (by decide +kernel)).mpr
    ⟨not_false, not_false, not_false, not_false, trivial⟩

/-- Two units at 100 of user 2, who has deposited and locked them, for user 1, who has locked the
price. -/
def lockAndTrade : List SettlementCall :=
  [.deposit ⟨1, 1, 10, 1, 1⟩, .deposit ⟨1, 2, 1000, 1, 2⟩, .deposit ⟨2, 1, 10, 1, 3⟩,
    .deposit ⟨2, 2, 1000, 1, 4⟩, .lock ⟨1, 2, 200, 2, 5⟩, .lock ⟨2, 1, 2, 2, 6⟩,
    .settleTradeAtomically ⟨1, 1, 2, 1, 2, 100, 2, 1, 2, 0, 0, 1, 1, 0, 3, 2, 3, 2, 0, 0, 0, 0⟩ 0 0]

/-- What the buyer has locked is written off the available balance again. -/
theorem lockAndTrade_not_addsUp :
    settlementDb.AllSteps SettlementTables.InRange .empty lockAndTrade ∧
      ¬settlementDb.AllSteps SettlementTables.AddsUp .empty lockAndTrade := by
  refine ⟨by decide +kernel, ?_⟩
  rintro ⟨-, -, -, -, -, -, ⟨hall, -⟩, -⟩
  exact absurd hall (by decide +kernel)

end ExchangeCore

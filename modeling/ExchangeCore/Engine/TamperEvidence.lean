import ExchangeCore.Engine.Output

/-!
# What the output hash covers

`verify` compares the stored hash with the hash of the pre-image, so a modification of an output
goes unnoticed, without any collision of xxh3, exactly when it leaves the pre-image as it was.
The pre-image is a function of `hashed`, the output with the data erased that `compute_hash` does
not read: the placements, the completions, the symbol of each trade, and the difference between
an untracked balance and a balance of 0.  Conversely it determines `hashed` among the outputs of
one layout; the two strings it contains are written without their lengths, so that outputs of
different layouts may share it as well.
-/

namespace ExchangeCore

/-! ## The hashed part of an output -/

/-- A trade without its symbol, which `compute_hash` does not write. -/
def TradeOutput.hashed (t : TradeOutput) : TradeOutput := { t with symbolId := 0 }

/-- A balance event with untracked balances read as 0. -/
def EOBalanceEvent.hashed (e : EOBalanceEvent) : EOBalanceEvent :=
  { e with avail := some (e.avail.getD 0), frozen := some (e.frozen.getD 0) }

/-- The client order id of a placement; the other inputs have no string. -/
def InputData.cid : InputData → String
  | .placeOrder o => o.cid
  | _ => ""

namespace EngineOutput

/-- The whole content of an output except its own hash. -/
def content (o : EngineOutput) : EngineOutput := { o with hash := 0 }

/-- The part of an output that `compute_hash` reads. -/
def hashed (o : EngineOutput) : EngineOutput :=
  { o with
    trades := o.trades.map TradeOutput.hashed
    balanceEvents := o.balanceEvents.map EOBalanceEvent.hashed
    orderPlacements := []
    orderCompletions := []
    hash := 0 }

/-- Every output of another content has another pre-image. -/
def TamperEvident (o : EngineOutput) : Prop :=
  ∀ o' : EngineOutput, o'.content ≠ o.content → o'.preimage ≠ o.preimage

/-- Two outputs whose variable-length parts have the same lengths: as many trades and balance
events, and strings of the same number of bytes. -/
structure SameLayout (o o' : EngineOutput) : Prop where
  cid : o.input.data.cid.utf8ByteSize = o'.input.data.cid.utf8ByteSize
  trades : o.trades.length = o'.trades.length
  eventTypes : o.balanceEvents.map (fun e => e.eventType.utf8ByteSize) =
    o'.balanceEvents.map (fun e => e.eventType.utf8ByteSize)

end EngineOutput

/-! ## The parts of the pre-image -/

lemma TradeOutput.bytes_eq_iff {t t' : TradeOutput} :
    t.bytes = t'.bytes ↔ t.hashed = t'.hashed := by
  simp [TradeOutput.bytes, TradeOutput.hashed, Bytes.append_eq_append_iff_of_length]

lemma TradeOutput.length_bytes (t : TradeOutput) : t.bytes.length = 96 := by
  simp [TradeOutput.bytes]

/-- An event's bytes say all of it but the absence of a balance, once the length of its type is
known. -/
lemma EOBalanceEvent.bytes_eq_iff {e e' : EOBalanceEvent}
    (h : e.eventType.utf8ByteSize = e'.eventType.utf8ByteSize) :
    e.bytes = e'.bytes ↔ e.hashed = e'.hashed := by
  have htype : (Bytes.ofStr e.eventType).length = (Bytes.ofStr e'.eventType).length := by
    simpa using h
  simp [EOBalanceEvent.bytes, EOBalanceEvent.hashed, Bytes.append_eq_append_iff_of_length, htype]

lemma EOBalanceEvent.length_bytes (e : EOBalanceEvent) :
    e.bytes.length = 60 + e.eventType.utf8ByteSize := by
  simp only [EOBalanceEvent.bytes, List.length_append, Bytes.length_ofU64, Bytes.length_ofU32,
    Bytes.length_ofI64, Bytes.length_ofStr]
  omega

/-- The input's bytes can be told from what follows them: the type marker says which fields to
expect, and only the client order id has no fixed width. -/
lemma InputData.bytes_append_eq_iff {d d' : InputData} {r r' : Bytes}
    (h : d.cid.utf8ByteSize = d'.cid.utf8ByteSize) :
    d.bytes ++ r = d'.bytes ++ r' ↔ d = d' ∧ r = r' := by
  cases d with
  | placeOrder o =>
      cases d' with
      | placeOrder o' =>
          have hcid : (Bytes.ofStr o.cid).length = (Bytes.ofStr o'.cid).length := by
            simpa [InputData.cid] using h
          cases o
          cases o'
          simp_all [InputData.bytes, Bytes.append_eq_append_iff_of_length, and_assoc]
      | _ => simp [InputData.bytes]
  | cancelOrder c =>
      cases d' with
      | cancelOrder c' =>
          cases c
          cases c'
          simp [InputData.bytes, Bytes.append_eq_append_iff_of_length, and_assoc]
      | _ => simp [InputData.bytes]
  | deposit d =>
      cases d' with
      | deposit d' =>
          cases d
          cases d'
          simp [InputData.bytes, Bytes.append_eq_append_iff_of_length, and_assoc]
      | _ => simp [InputData.bytes]
  | withdraw w =>
      cases d' with
      | withdraw w' =>
          cases w
          cases w'
          simp [InputData.bytes, Bytes.append_eq_append_iff_of_length, and_assoc]
      | _ => simp [InputData.bytes]

lemma orderUpdateBytes_append_eq_iff {u u' : Option EOOrderUpdate} {r r' : Bytes} :
    orderUpdateBytes u ++ r = orderUpdateBytes u' ++ r' ↔ u = u' ∧ r = r' := by
  cases u with
  | none => cases u' <;> simp [orderUpdateBytes]
  | some u =>
      cases u' with
      | none => simp [orderUpdateBytes]
      | some u' =>
          cases u
          cases u'
          simp [orderUpdateBytes, Bytes.append_eq_append_iff_of_length, and_assoc]

/-! ## Which modifications are noticed -/

namespace EngineOutput

/-- Erasing what is not hashed leaves the pre-image as it is. -/
lemma preimage_hashed (o : EngineOutput) : o.hashed.preimage = o.preimage := by
  have htrades : (o.trades.map TradeOutput.hashed).flatMap TradeOutput.bytes =
      o.trades.flatMap TradeOutput.bytes := by
    rw [List.flatMap_map]
    rfl
  have hevents : (o.balanceEvents.map EOBalanceEvent.hashed).flatMap EOBalanceEvent.bytes =
      o.balanceEvents.flatMap EOBalanceEvent.bytes := by
    rw [List.flatMap_map]
    rfl
  simp only [preimage, hashed, htrades, hevents, List.length_map]

/-- The pre-image is a function of the hashed part. -/
lemma preimage_eq_of_hashed_eq {o o' : EngineOutput} (h : o.hashed = o'.hashed) :
    o.preimage = o'.preimage := by
  rw [← o.preimage_hashed, h, o'.preimage_hashed]

/-- Among outputs of one layout the pre-image determines the hashed part. -/
theorem preimage_eq_iff {o o' : EngineOutput} (h : SameLayout o o') :
    o.preimage = o'.preimage ↔ o.hashed = o'.hashed := by
  have htrades : o.trades.map (fun t => t.bytes.length) =
      o'.trades.map (fun t => t.bytes.length) := by
    simp only [TradeOutput.length_bytes, List.map_const', h.trades]
  have hevents : o.balanceEvents.map (fun e => e.bytes.length) =
      o'.balanceEvents.map (fun e => e.bytes.length) := by
    have hlens := congrArg (List.map (60 + ·)) h.eventTypes
    simpa only [EOBalanceEvent.length_bytes, List.map_map, Function.comp_def] using hlens
  have hcount : o.balanceEvents.length = o'.balanceEvents.length := by
    simpa using congrArg List.length hevents
  have htradeBytes := Bytes.flatMap_eq_flatMap_iff htrades
    (fun _ _ _ => TradeOutput.bytes_eq_iff)
  have heventBytes := Bytes.flatMap_eq_flatMap_iff hevents fun e e' hlen =>
    EOBalanceEvent.bytes_eq_iff (by simpa [EOBalanceEvent.length_bytes] using hlen)
  -- Everything up to the input is of fixed width; then one variable part after the other.
  simp only [preimage, Bytes.append_eq_append_iff_of_length, Bytes.length_ofU64, Bytes.length_ofU32,
    Bytes.ofU64_inj, Bytes.ofU32_inj, InputData.bytes_append_eq_iff h.cid,
    orderUpdateBytes_append_eq_iff, h.trades, hcount, Bytes.length_flatMap_congr htrades,
    htradeBytes, heventBytes, true_and]
  cases o with
  | mk _ _ _ input _ _ _ _ _ _ =>
      cases input
      cases o' with
      | mk _ _ _ input' _ _ _ _ _ _ =>
          cases input'
          simp [hashed, and_assoc]

/-- A made-up placement. -/
def forgedPlacement : OrderPlacement where
  orderId := 0
  userId := 0
  symbolId := 0
  side := 1
  orderType := 1
  price := 0
  quantity := 0
  createdAt := 0

/-- A placement added to an output is not noticed, whatever the hash function. -/
lemma exists_unnoticed (o : EngineOutput) :
    ∃ o' : EngineOutput, o'.content ≠ o.content ∧ o'.preimage = o.preimage ∧
      ∀ env, o'.verify env = o.verify env := by
  let o' : EngineOutput := { o with orderPlacements := forgedPlacement :: o.orderPlacements }
  have hpre : o'.preimage = o.preimage := preimage_eq_of_hashed_eq rfl
  refine ⟨o', fun heq => ?_, hpre, fun env => ?_⟩
  · have hlists : forgedPlacement :: o.orderPlacements = o.orderPlacements :=
      congrArg orderPlacements heq
    exact List.cons_ne_self _ _ hlists
  · rw [verify, verify, computeHash, computeHash, hpre]

/-- No output is tamper-evident.  Of its modifications, those that keep the layout change the
pre-image exactly when they change the hashed part. -/
theorem preimage_tamperEvidence (o : EngineOutput) :
    ¬TamperEvident o ∧
      ∀ o', SameLayout o' o → (o'.preimage ≠ o.preimage ↔ o'.hashed ≠ o.hashed) := by
  refine ⟨fun h => ?_, fun o' hlayout => not_congr (preimage_eq_iff hlayout)⟩
  obtain ⟨o', hcontent, hpre, -⟩ := exists_unnoticed o
  exact h o' hcontent hpre

/-- An output with one trade of 5 units, its symbol and price left open, and one balance event. -/
def oneTrade (symbolId : UInt32) (price : UInt64) : EngineOutput where
  outputSeq := 1
  prevHash := GENESIS_HASH
  symbolId := 1
  input := ⟨1, 0, .placeOrder ⟨2, 7, 1, 1, 1, 100, 5, "c2", 0⟩⟩
  orderUpdate := none
  trades := [⟨1, 1, symbolId, 2, 1, 7, 8, price, 5, 10, 20, 0, 0, 0⟩]
  balanceEvents := [⟨7, 20, 0, -500, 500, none, none, "lock", 2⟩]
  orderPlacements := []
  orderCompletions := []
  hash := 0

theorem preimage_tamperEvidence_price : (oneTrade 1 99).preimage ≠ (oneTrade 1 100).preimage := by
  refine ((preimage_tamperEvidence (oneTrade 1 100)).2 (oneTrade 1 99) ⟨rfl, rfl, rfl⟩).mpr ?_
  decide

theorem trade_symbol_unnoticed :
    ¬∀ o o' : EngineOutput, o.content ≠ o'.content → o.preimage ≠ o'.preimage := by
  intro h
  exact h (oneTrade 1 100) (oneTrade 2 100) (by decide) (preimage_eq_of_hashed_eq rfl)

/-- An output with two balance events of types `k` and `l` and every other field 0. -/
def zeroEvents (k l : String) : EngineOutput where
  outputSeq := 0
  prevHash := GENESIS_HASH
  symbolId := 0
  input := ⟨0, 0, .cancelOrder ⟨0, 0, 0⟩⟩
  orderUpdate := none
  trades := []
  balanceEvents := [⟨0, 0, 0, 0, 0, none, none, k, 0⟩, ⟨0, 0, 0, 0, 0, none, none, l, 0⟩]
  orderPlacements := []
  orderCompletions := []
  hash := 0

-- The layout matters: a string's end is not marked, so a byte can move to the next event's.
example : (zeroEvents "\x00" "").preimage = (zeroEvents "" "\x00").preimage := rfl

end EngineOutput

end ExchangeCore

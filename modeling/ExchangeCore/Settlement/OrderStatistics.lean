import ExchangeCore.Engine.Ledger
import ExchangeCore.Engine.Output
import ExchangeCore.Framework.HashMap
import ExchangeCore.Framework.Interleaving

/-!
# Order statistics

The table `order_statistics` and what the order-history writer of the settlement service does with
it: `process_engine_order_update_fast` for every output of a batch at once, and within each the
statements of `process_order_update_parallel` at once.  `init_user_statistics` is one conditional
insert; `update_order_statistics` reads the row in one statement and writes it in another.

So two updates of one user can both read the row before either writes it, and the first order of a
user can find the row that has been initialised for it.  A batch counts right for a user in every
interleaving exactly if at most one of its updates is to be counted, and that one comes with the
order's placement, finds the row in place if it is a new order, and has room in its counter
(`statistics_counted_iff`).

The statements are assumed to be executed.  The total volume and the times are left out, and so are
the statements on the other tables.
-/

namespace ExchangeCore

/-- The counters of a row of `order_statistics`. -/
structure OrderStatisticsRow where
  totalOrders : Int32
  filledOrders : Int32
  cancelledOrders : Int32
  rejectedOrders : Int32
  deriving DecidableEq, Repr

namespace OrderStatisticsRow

/-- What `update_order_statistics` starts from without a row. -/
def zero : OrderStatisticsRow := ⟨0, 0, 0, 0⟩

/-- What `init_user_statistics` inserts. -/
def initial : OrderStatisticsRow := ⟨1, 0, 0, 0⟩

/-- The counters after `update_order_statistics`. -/
def count (row : OrderStatisticsRow) : OrderStatus → OrderStatisticsRow
  | .new => { row with totalOrders := row.totalOrders + 1 }
  | .filled => { row with filledOrders := row.filledOrders + 1 }
  | .cancelled => { row with cancelledOrders := row.cancelledOrders + 1 }
  | .rejected => { row with rejectedOrders := row.rejectedOrders + 1 }
  | .expired => { row with cancelledOrders := row.cancelledOrders + 1 }
  | .partiallyFilled => row

end OrderStatisticsRow

/-- `order_statistics`, by user. -/
abbrev OrderStatistics : Type := HashMap UInt64 OrderStatisticsRow

/-- The counters of a user, 0 without a row. -/
def OrderStatistics.rowOf (table : OrderStatistics) (userId : UInt64) : OrderStatisticsRow :=
  (table.get? userId).getD .zero

/-- The two calls on `order_statistics`, and how far one of them has got. -/
inductive StatisticsCall
  | initUserStatistics (userId : UInt64)
  | updateOrderStatistics (userId : UInt64) (status : OrderStatus)
  /-- `update_order_statistics` between its `SELECT` and its `UPDATE`. -/
  | upsert (userId : UInt64) (row : OrderStatisticsRow)
  | returned (userId : UInt64)
  deriving DecidableEq

namespace StatisticsCall

/-- The user a call is about. -/
def userId : StatisticsCall → UInt64
  | initUserStatistics userId => userId
  | updateOrderStatistics userId _ => userId
  | upsert userId _ => userId
  | returned userId => userId

/-- The next statement of a call. -/
def execute (table : OrderStatistics) : StatisticsCall → Option (OrderStatistics × StatisticsCall)
  | initUserStatistics userId =>
      some (if (table.get? userId).isSome then table else table.insert userId .initial,
        returned userId)
  | updateOrderStatistics userId status =>
      some (table, upsert userId ((table.rowOf userId).count status))
  | upsert userId row => some (table.insert userId row, returned userId)
  | returned _ => none

end StatisticsCall

/-- The status `process_engine_order_update_fast` reads from an engine output. -/
def engineOrderStatus (status : UInt8) : OrderStatus :=
  if status = 1 then .new
  else if status = 2 then .partiallyFilled
  else if status = 3 then .filled
  else if status = 4 then .cancelled
  else .rejected

/-- `process_order_update_parallel`: the calls on `order_statistics` it joins. -/
def processOrderUpdateParallel (update : OrderUpdate) : List StatisticsCall :=
  match update.status with
  | .new =>
      [.initUserStatistics update.userId, .updateOrderStatistics update.userId update.status]
  | .partiallyFilled => []
  | .filled | .cancelled | .expired => [.updateOrderStatistics update.userId update.status]
  | .rejected => [.updateOrderStatistics update.userId update.status]

def processEngineOrderUpdateFast (output : EngineOutput) : List StatisticsCall :=
  match output.input.data, output.orderUpdate with
  | .placeOrder placeOrder, some update =>
      processOrderUpdateParallel {
        orderId := update.orderId
        clientOrderId := some placeOrder.cid
        userId := update.userId
        symbolId := placeOrder.symbolId
        side := placeOrder.side
        orderType := placeOrder.orderType
        status := engineOrderStatus update.status
        price := placeOrder.price
        qty := placeOrder.quantity
        filledQty := update.filledQty
        avgFillPrice := if 0 < update.avgPrice then some update.avgPrice else none
        rejectionReason := none
        timestamp := update.updatedAt
        matchId := none }
  | _, _ => []

/-- The calls the order-history writer makes for a batch, none of them begun. -/
def orderHistoryBatch (table : OrderStatistics) (outputs : List EngineOutput) :
    Interleaved OrderStatistics StatisticsCall :=
  ⟨table, outputs.flatMap processEngineOrderUpdateFast⟩

/-! ## What is to be counted -/

namespace EngineOutput

/-- The status of the output's update, if it is one of this user's orders. -/
def statusFor (userId : UInt64) (output : EngineOutput) : Option OrderStatus :=
  output.orderUpdate.bind (fun update =>
    if update.userId = userId then some (engineOrderStatus update.status) else none)

/-- The output has an update of the user that a counter is kept of. -/
def IsCounted (userId : UInt64) (output : EngineOutput) : Prop :=
  output.statusFor userId ≠ none ∧ output.statusFor userId ≠ some .partiallyFilled

instance decidableIsCounted (userId : UInt64) (output : EngineOutput) :
    Decidable (output.IsCounted userId) :=
  inferInstanceAs (Decidable (_ ∧ _))

end EngineOutput

/-- The number of updates of a user with a status. -/
def updatesWith (userId : UInt64) (status : OrderStatus) (outputs : List EngineOutput) : ℕ :=
  outputs.countP (fun output => output.statusFor userId = some status)

/-- The counters have increased by the numbers of the user's updates in a batch. -/
structure Counted (userId : UInt64) (outputs : List EngineOutput)
    (before after : OrderStatisticsRow) : Prop where
  totalOrders : after.totalOrders.toInt =
    before.totalOrders.toInt + updatesWith userId .new outputs
  filledOrders : after.filledOrders.toInt =
    before.filledOrders.toInt + updatesWith userId .filled outputs
  cancelledOrders : after.cancelledOrders.toInt =
    before.cancelledOrders.toInt +
      (updatesWith userId .cancelled outputs + updatesWith userId .expired outputs)
  rejectedOrders : after.rejectedOrders.toInt =
    before.rejectedOrders.toInt + updatesWith userId .rejected outputs

/-- The counter for a status is not at its greatest value. -/
def OrderStatisticsRow.HasRoom (row : OrderStatisticsRow) : OrderStatus → Prop
  | .new => row.totalOrders ≠ Int32.maxValue
  | .filled => row.filledOrders ≠ Int32.maxValue
  | .cancelled | .expired => row.cancelledOrders ≠ Int32.maxValue
  | .rejected => row.rejectedOrders ≠ Int32.maxValue
  | .partiallyFilled => True

/-- At most one update of the user is to be counted, and that one comes with the placement of the
order, finds the user's row if the order is new, and has room in its counter. -/
structure Uncontended (table : OrderStatistics) (userId : UInt64) (outputs : List EngineOutput) :
    Prop where
  single : outputs.countP (fun output => output.IsCounted userId) ≤ 1
  placed : ∀ output ∈ outputs, output.IsCounted userId →
    ∃ placeOrder, output.input.data = .placeOrder placeOrder
  known : ∀ output ∈ outputs, output.statusFor userId = some .new → (table.get? userId).isSome
  hasRoom : ∀ output ∈ outputs, ∀ status, output.statusFor userId = some status →
    (table.rowOf userId).HasRoom status

namespace OrderStatisticsRow

/-- All counters together. -/
def sum (row : OrderStatisticsRow) : ℤ :=
  row.totalOrders.toInt + row.filledOrders.toInt + row.cancelledOrders.toInt +
    row.rejectedOrders.toInt

lemma toInt_succ_le (x : Int32) : (x + 1).toInt ≤ x.toInt + 1 := by
  have hlow := x.le_toInt
  rw [Int32.toInt_add, Int32.toInt_one]
  rcases lt_or_ge (x.toInt + 1) (2 ^ 31) with hlt | hge
  · exact (Int.bmod_eq_of_le (by omega) (by omega)).le
  · have hupper := @Int.bmod_lt (x.toInt + 1) (2 ^ 32) (by decide)
    omega

lemma toInt_succ_eq_iff (x : Int32) : (x + 1).toInt = x.toInt + 1 ↔ x ≠ Int32.maxValue := by
  constructor
  · rintro h rfl
    exact absurd h (by decide)
  · intro hne
    have hlow := x.le_toInt
    have hupper := x.toInt_le
    have hmax : x.toInt ≠ Int32.maxValue.toInt := fun h => hne (Int32.toInt.inj h)
    have hvalue : Int32.maxValue.toInt = 2 ^ 31 - 1 := by decide
    rw [Int32.toInt_add, Int32.toInt_one]
    exact Int.bmod_eq_of_le (by omega) (by omega)

lemma sum_count_le (row : OrderStatisticsRow) (status : OrderStatus) :
    (row.count status).sum ≤ row.sum + 1 := by
  have htotal := toInt_succ_le row.totalOrders
  have hfilled := toInt_succ_le row.filledOrders
  have hcancelled := toInt_succ_le row.cancelledOrders
  have hrejected := toInt_succ_le row.rejectedOrders
  cases status <;> simp only [count, sum] <;> omega

end OrderStatisticsRow

open OrderStatisticsRow

lemma Counted.sum_eq {userId : UInt64} {outputs : List EngineOutput}
    {before after : OrderStatisticsRow} (h : Counted userId outputs before after) :
    after.sum = before.sum + outputs.countP (fun output => output.IsCounted userId) := by
  have hcount : outputs.countP (fun output => output.IsCounted userId) =
      updatesWith userId .new outputs + updatesWith userId .filled outputs +
        (updatesWith userId .cancelled outputs + updatesWith userId .expired outputs) +
          updatesWith userId .rejected outputs := by
    clear h
    induction outputs with
    | nil => rfl
    | cons output outputs ih =>
        simp only [updatesWith, List.countP_cons] at ih ⊢
        rw [ih]
        rcases hstatus : output.statusFor userId with _ | status
        · simp [EngineOutput.IsCounted, hstatus]
        · cases status <;> simp [EngineOutput.IsCounted, hstatus] <;> omega
  rw [OrderStatisticsRow.sum, OrderStatisticsRow.sum, h.totalOrders, h.filledOrders,
    h.cancelledOrders, h.rejectedOrders, hcount]
  push_cast
  ring

/-! ## What one user sees of a run -/

namespace StatisticsCall

variable {table table' : OrderStatistics} {call call' : StatisticsCall}

/-- A statement touches the row of its user only. -/
lemma execute_frame (h : call.execute table = some (table', call')) :
    call'.userId = call.userId ∧
      ∀ userId, userId ≠ call.userId → table'.get? userId = table.get? userId := by
  rcases call with userId | ⟨userId, status⟩ | ⟨userId, row⟩ | userId
  · obtain ⟨rfl, rfl⟩ := Prod.mk.inj (Option.some.inj h)
    refine ⟨rfl, fun other hne => ?_⟩
    split
    · rfl
    · rw [HashMap.get?_insert]
      exact if_neg hne
  · obtain ⟨rfl, rfl⟩ := Prod.mk.inj (Option.some.inj h)
    exact ⟨rfl, fun _ _ => rfl⟩
  · obtain ⟨rfl, rfl⟩ := Prod.mk.inj (Option.some.inj h)
    refine ⟨rfl, fun other hne => ?_⟩
    rw [HashMap.get?_insert]
    exact if_neg hne
  · exact absurd h (by simp [execute])

/-- The statements a call has left. -/
def rank : StatisticsCall → ℕ
  | initUserStatistics _ => 1
  | updateOrderStatistics _ _ => 2
  | upsert _ _ => 1
  | returned _ => 0

lemma rank_execute (h : call.execute table = some (table', call')) : call'.rank < call.rank := by
  rcases call with userId | ⟨userId, status⟩ | ⟨userId, row⟩ | userId
  · rw [← (Prod.mk.inj (Option.some.inj h)).2]
    exact Nat.zero_lt_one
  · rw [← (Prod.mk.inj (Option.some.inj h)).2]
    exact Nat.one_lt_two
  · rw [← (Prod.mk.inj (Option.some.inj h)).2]
    exact Nat.zero_lt_one
  · exact absurd h (by simp [execute])

end StatisticsCall

/-- A state of the table and of the calls on it. -/
abbrev StatisticsState : Type := Interleaved OrderStatistics StatisticsCall

/-- A table that a batch can leave: every call has returned. -/
def Leaves (outputs : List EngineOutput) (table table' : OrderStatistics) : Prop :=
  ∃ calls, Interleaved.RunsToEnd (fun table call => StatisticsCall.execute table call)
    (orderHistoryBatch table outputs) ⟨table', calls⟩

namespace StatisticsState

/-- Every call is run to its end. -/
abbrev RunsToEnd (c c' : StatisticsState) : Prop :=
  Interleaved.RunsToEnd (fun table call => StatisticsCall.execute table call) c c'

/-- The calls about a user. -/
def callsOf (userId : UInt64) (calls : List StatisticsCall) : List StatisticsCall :=
  calls.filter (fun call => call.userId = userId)

lemma callsOf_own {userId : UInt64} {call : StatisticsCall} (before after : List StatisticsCall)
    (h : call.userId = userId) : callsOf userId (before ++ call :: after) =
      callsOf userId before ++ call :: callsOf userId after := by
  simp only [callsOf, List.filter_append, List.filter_cons, h, decide_true, if_true]

lemma callsOf_other {userId : UInt64} {call : StatisticsCall} (before after : List StatisticsCall)
    (h : call.userId ≠ userId) : callsOf userId (before ++ call :: after) =
      callsOf userId before ++ callsOf userId after := by
  simp only [callsOf, List.filter_append, List.filter_cons, h, decide_false, Bool.false_eq_true,
    if_false]

/-- The state as far as it is a user's: the row and the calls about the user. -/
def view (userId : UInt64) (c : StatisticsState) :
    Option OrderStatisticsRow × List StatisticsCall :=
  (c.shared.get? userId, callsOf userId c.threads)

variable {userId : UInt64} {c c' : StatisticsState}

/-- What holds of a user's view stays true in a run if it does when one of the user's own calls
takes a step. -/
lemma view_invariant {P : Option OrderStatisticsRow × List StatisticsCall → Prop}
    (hstep : ∀ {table table' : OrderStatistics} {call call' : StatisticsCall}
      (before after : List StatisticsCall), call.userId = userId →
      call.execute table = some (table', call') →
      P (table.get? userId, before ++ call :: after) →
      P (table'.get? userId, before ++ call' :: after))
    (hrun : c.RunsToEnd c') (hinit : P (view userId c)) : P (view userId c') := by
  refine Interleaved.Runs.invariant (P := fun c => P (view userId c)) ?_ hrun.1 hinit
  intro table table' call call' before after hact h
  obtain ⟨huser, hframe⟩ := StatisticsCall.execute_frame hact
  rw [view] at h ⊢
  by_cases hown : call.userId = userId
  · rw [callsOf_own before after hown] at h
    rw [callsOf_own before after (huser.trans hown)]
    exact hstep _ _ hown hact h
  · rw [callsOf_other before after hown] at h
    rw [callsOf_other before after (huser.trans_ne hown), hframe userId (Ne.symm hown)]
    exact h

lemma returned_of_runsToEnd (hrun : c.RunsToEnd c') {call : StatisticsCall}
    (hcall : call ∈ callsOf userId c'.threads) : call = .returned userId := by
  obtain ⟨hmem, huser⟩ := List.mem_filter.mp hcall
  have hend := hrun.2 call hmem
  rcases call with user | ⟨user, status⟩ | ⟨user, row⟩ | user
  · exact absurd hend (by simp [StatisticsCall.execute])
  · exact absurd hend (by simp [StatisticsCall.execute])
  · exact absurd hend (by simp [StatisticsCall.execute])
  · rw [← of_decide_eq_true huser]
    rfl

lemma untouched (hrun : c.RunsToEnd c') (hnone : callsOf userId c.threads = []) :
    c'.shared.get? userId = c.shared.get? userId := by
  have hview := @view_invariant userId _ _
    (fun v => v.1 = c.shared.get? userId ∧ v.2 = [])
    (fun before after _ _ h => absurd h.2 (by simp)) hrun ⟨rfl, hnone⟩
  exact hview.1

/-- A user's calls while the only update among them goes on, the row having been `row` before: calls
that do nothing, and the update. -/
structure Updating (userId : UInt64) (row : Option OrderStatisticsRow) (status : OrderStatus)
    (v : Option OrderStatisticsRow × List StatisticsCall) (idle : List StatisticsCall)
    (update : StatisticsCall) : Prop where
  calls : v.2 = idle ++ [update]
  idle : ∀ call ∈ idle, call = .returned userId ∨
    call = .initUserStatistics userId ∧ row.isSome
  progress : update = .updateOrderStatistics userId status ∧ v.1 = row ∨
    update = .upsert userId ((row.getD .zero).count status) ∧ v.1 = row ∨
      update = .returned userId ∧ v.1 = some ((row.getD .zero).count status)

lemma Updating.step {row : Option OrderStatisticsRow} {status : OrderStatus}
    {table table' : OrderStatistics} {call call' : StatisticsCall}
    {before after idle : List StatisticsCall} {update : StatisticsCall}
    (hact : call.execute table = some (table', call'))
    (h : Updating userId row status (table.get? userId, before ++ call :: after) idle update) :
    ∃ idle' update',
      Updating userId row status (table'.get? userId, before ++ call' :: after) idle' update' := by
  obtain ⟨hcalls, hidle, hprogress⟩ := h
  rcases List.eq_nil_or_concat after with rfl | ⟨between, last, rfl⟩
  · -- the update itself
    obtain ⟨rfl, hlast⟩ := List.append_inj' hcalls rfl
    obtain rfl : call = update := (List.cons.inj hlast).1
    refine ⟨before, call', rfl, hidle, ?_⟩
    rcases hprogress with ⟨rfl, hrow⟩ | ⟨rfl, hrow⟩ | ⟨rfl, -⟩
    · obtain ⟨rfl, rfl⟩ := Prod.mk.inj (Option.some.inj hact)
      refine .inr (.inl ⟨?_, hrow⟩)
      rw [OrderStatistics.rowOf, show table.get? userId = row from hrow]
    · obtain ⟨rfl, rfl⟩ := Prod.mk.inj (Option.some.inj hact)
      refine .inr (.inr ⟨rfl, ?_⟩)
      exact (HashMap.get?_insert _ _ _ _).trans (if_pos rfl)
    · exact absurd hact (by simp [StatisticsCall.execute])
  · -- one of the others: an initialisation that finds the row
    have hsplit : (before ++ call :: between) ++ [last] = idle ++ [update] := by
      rw [← hcalls]
      simp
    obtain ⟨rfl, hlast⟩ := List.append_inj' hsplit rfl
    obtain rfl : last = update := (List.cons.inj hlast).1
    rcases hidle call (by simp) with rfl | ⟨rfl, hsome⟩
    · exact absurd hact (by simp [StatisticsCall.execute])
    · have hfound : (table.get? userId).isSome := by
        rcases hprogress with ⟨-, hrow⟩ | ⟨-, hrow⟩ | ⟨-, hrow⟩
        · exact (congrArg Option.isSome hrow).trans hsome
        · exact (congrArg Option.isSome hrow).trans hsome
        · exact congrArg Option.isSome hrow
      simp only [StatisticsCall.execute, hfound, if_true, Option.some.injEq,
        Prod.mk.injEq] at hact
      obtain ⟨rfl, rfl⟩ := hact
      refine ⟨before ++ .returned userId :: between, last, by simp, fun other hother => ?_,
        hprogress⟩
      rcases List.mem_append.mp hother with hbefore | hafter
      · exact hidle other (List.mem_append.mpr (.inl hbefore))
      · rcases List.mem_cons.mp hafter with rfl | hbetween
        · exact .inl rfl
        · exact hidle other (by simp [hbetween])

lemma updated {status : OrderStatus} {idle : List StatisticsCall}
    (hrun : c.RunsToEnd c')
    (hcalls : callsOf userId c.threads = idle ++ [.updateOrderStatistics userId status])
    (hidle : ∀ call ∈ idle, call = .returned userId ∨
      call = .initUserStatistics userId ∧ (c.shared.get? userId).isSome) :
    c'.shared.rowOf userId = (c.shared.rowOf userId).count status := by
  obtain ⟨idle', update, hview⟩ := @view_invariant userId _ _
    (fun v => ∃ idle update,
      Updating userId (c.shared.get? userId) status v idle update)
    (fun before after _ hact h => by
      obtain ⟨idle, update, h⟩ := h
      exact h.step hact)
    hrun ⟨idle, _, hcalls, hidle, .inl ⟨rfl, rfl⟩⟩
  have hmem : update ∈ callsOf userId c'.threads := by
    rw [show callsOf userId c'.threads = idle' ++ [update] from hview.calls]
    exact List.mem_append_right _ List.mem_cons_self
  have hreturned : update = .returned userId := returned_of_runsToEnd hrun hmem
  rcases hview.progress with ⟨rfl, -⟩ | ⟨rfl, -⟩ | ⟨-, hrow⟩
  · exact absurd hreturned (by simp)
  · exact absurd hreturned (by simp)
  · rw [OrderStatistics.rowOf, show c'.shared.get? userId = _ from hrow]
    rfl

/-- A user's calls after all updates have read the same row. -/
structure Racing (userId : UInt64) (row : OrderStatisticsRow)
    (v : Option OrderStatisticsRow × List StatisticsCall) : Prop where
  noReads : ∀ status, .updateOrderStatistics userId status ∉ v.2
  writes : ∀ row', .upsert userId row' ∈ v.2 → ∃ status, row' = row.count status
  written : (∃ row', .upsert userId row' ∈ v.2) ∨ ∃ status, v.1 = some (row.count status)

lemma Racing.step {row : OrderStatisticsRow} {table table' : OrderStatistics}
    {call call' : StatisticsCall} {before after : List StatisticsCall}
    (huser : call.userId = userId) (hact : call.execute table = some (table', call'))
    (h : Racing userId row (table.get? userId, before ++ call :: after)) :
    Racing userId row (table'.get? userId, before ++ call' :: after) := by
  have hcall : call ∈ before ++ call :: after := by simp
  -- a call that has returned adds nothing to what is still to be read and written
  have hold : ∀ {other : StatisticsCall}, other ≠ .returned userId →
      other ∈ before ++ .returned userId :: after → other ∈ before ++ call :: after := by
    intro other hne hmem
    simp only [List.mem_append, List.mem_cons] at hmem ⊢
    rcases hmem with hbefore | heq | hafter
    · exact .inl hbefore
    · exact absurd heq hne
    · exact .inr (.inr hafter)
  rcases call with user | ⟨user, status⟩ | ⟨user, row'⟩ | user
  · obtain rfl : user = userId := huser
    obtain ⟨rfl, rfl⟩ := Prod.mk.inj (Option.some.inj hact)
    refine ⟨fun status hmem => h.noReads status (hold (by simp) hmem),
      fun row' hmem => h.writes row' (hold (by simp) hmem), ?_⟩
    rcases h.written with ⟨row', hmem⟩ | ⟨status, hrow⟩
    · refine .inl ⟨row', ?_⟩
      simpa using hmem
    · refine .inr ⟨status, ?_⟩
      have hsome : (table.get? user).isSome := congrArg Option.isSome hrow
      rw [if_pos hsome]
      exact hrow
  · obtain rfl : user = userId := huser
    exact absurd hcall (h.noReads status)
  · obtain rfl : user = userId := huser
    obtain ⟨rfl, rfl⟩ := Prod.mk.inj (Option.some.inj hact)
    refine ⟨fun status hmem => h.noReads status (hold (by simp) hmem),
      fun row' hmem => h.writes row' (hold (by simp) hmem), .inr ?_⟩
    obtain ⟨status, rfl⟩ := h.writes row' hcall
    exact ⟨status, (HashMap.get?_insert _ _ _ _).trans (if_pos rfl)⟩
  · exact absurd hact (by simp [StatisticsCall.execute])

/-- The state of a call after its reads. -/
def afterReads (table : OrderStatistics) : StatisticsCall → StatisticsCall
  | .updateOrderStatistics userId status => .upsert userId ((table.rowOf userId).count status)
  | call => call

/-- Of several updates of a user, all but one can be lost. -/
lemma exists_racing {status : OrderStatus}
    (hupdate : .updateOrderStatistics userId status ∈ c.threads)
    (hfresh : ∀ row, .upsert userId row ∉ c.threads) :
    ∃ c', c.RunsToEnd c' ∧
      ∃ status', c'.shared.rowOf userId = (c.shared.rowOf userId).count status' := by
  -- first every read, then the rest in any order
  have hreads := @Interleaved.runs_reads _ _ (fun table call => StatisticsCall.execute table call)
    afterReads (fun table call => by
      rcases call with user | ⟨user, status⟩ | ⟨user, row⟩ | user
      · exact .inl rfl
      · exact .inr rfl
      · exact .inl rfl
      · exact .inl rfl) c
  obtain ⟨c', hruns, hend⟩ := Interleaved.exists_finished StatisticsCall.rank
    (fun h => StatisticsCall.rank_execute h)
    (⟨c.shared, c.threads.map (afterReads c.shared)⟩ : StatisticsState)
  have hmem : ∀ call, call ∈ callsOf userId (c.threads.map (afterReads c.shared)) ↔
      call.userId = userId ∧ ∃ call' ∈ c.threads, afterReads c.shared call' = call := by
    intro call
    rw [callsOf, List.mem_filter, List.mem_map, and_comm, decide_eq_true_iff]
  have hview := view_invariant (P := Racing userId (c.shared.rowOf userId))
    (fun before after huser hact h => h.step huser hact) ⟨hruns, hend⟩ (by
      refine ⟨fun status hread => ?_, fun row hwrite => ?_, .inl ⟨_, (hmem _).mpr
        ⟨rfl, _, hupdate, rfl⟩⟩⟩
      · obtain ⟨-, call', -, heq⟩ := (hmem _).mp hread
        cases call' <;> exact absurd heq (by simp [afterReads])
      · obtain ⟨-, call', hcall', heq⟩ := (hmem _).mp hwrite
        rcases call' with user | ⟨user, status'⟩ | ⟨user, row'⟩ | user
        · exact absurd heq (by simp [afterReads])
        · obtain ⟨rfl, rfl⟩ := StatisticsCall.upsert.inj heq
          exact ⟨status', rfl⟩
        · obtain ⟨rfl, rfl⟩ := StatisticsCall.upsert.inj heq
          exact absurd hcall' (hfresh row')
        · exact absurd heq (by simp [afterReads]))
  refine ⟨c', ⟨hreads.trans hruns, hend⟩, ?_⟩
  rcases hview.written with ⟨row, hwrite⟩ | ⟨status', hrow⟩
  · exact absurd (returned_of_runsToEnd ⟨hruns, hend⟩ hwrite) (by simp)
  · exact ⟨status', by rw [OrderStatistics.rowOf, show c'.shared.get? userId = _ from hrow]; rfl⟩

end StatisticsState

/-! ## The calls of a batch -/

open StatisticsState

/-- The calls for an update of the user with a status. -/
def callsFor (userId : UInt64) : OrderStatus → List StatisticsCall
  | .new => [.initUserStatistics userId, .updateOrderStatistics userId .new]
  | .partiallyFilled => []
  | status => [.updateOrderStatistics userId status]

lemma processOrderUpdateParallel_eq (update : OrderUpdate) :
    processOrderUpdateParallel update = callsFor update.userId update.status := by
  rw [processOrderUpdateParallel]
  cases update.status <;> rfl

lemma userId_of_mem_callsFor {userId : UInt64} {status : OrderStatus} {call : StatisticsCall}
    (h : call ∈ callsFor userId status) : call.userId = userId := by
  cases status <;> simp only [callsFor, List.mem_cons, List.not_mem_nil, or_false] at h
  · rcases h with rfl | rfl <;> rfl
  all_goals rw [h]; rfl

lemma callsOf_output (userId : UInt64) (output : EngineOutput) :
    callsOf userId (processEngineOrderUpdateFast output) = [] ∧
        (output.IsCounted userId → ¬∃ placeOrder, output.input.data = .placeOrder placeOrder) ∨
      (∃ placeOrder, output.input.data = .placeOrder placeOrder) ∧
        ∃ status, output.statusFor userId = some status ∧ output.IsCounted userId ∧
          callsOf userId (processEngineOrderUpdateFast output) = callsFor userId status := by
  rw [processEngineOrderUpdateFast]
  split
  · rename_i placeOrder update hdata hupdate
    rw [processOrderUpdateParallel_eq]
    by_cases huser : update.userId = userId
    · have hstatus : output.statusFor userId = some (engineOrderStatus update.status) := by
        rw [EngineOutput.statusFor, hupdate, Option.bind_some, if_pos huser]
      have hcalls : callsOf userId (callsFor update.userId (engineOrderStatus update.status)) =
          callsFor userId (engineOrderStatus update.status) := by
        rw [huser]
        exact List.filter_eq_self.mpr (fun call hcall =>
          decide_eq_true (userId_of_mem_callsFor hcall))
      by_cases hpartly : engineOrderStatus update.status = .partiallyFilled
      · refine .inl ⟨hcalls.trans (by rw [hpartly]; rfl), fun hcounted => ?_⟩
        exact absurd (hstatus.trans (congrArg some hpartly)) hcounted.2
      · refine .inr ⟨⟨placeOrder, hdata⟩, _, hstatus, ⟨?_, ?_⟩, hcalls⟩
        · exact fun h => absurd (hstatus.symm.trans h) (by simp)
        · exact fun h => hpartly (Option.some.inj (hstatus.symm.trans h))
    · have hnone : output.statusFor userId = none := by
        rw [EngineOutput.statusFor, hupdate, Option.bind_some, if_neg huser]
      refine .inl ⟨List.filter_eq_nil_iff.mpr (fun call hcall => ?_),
        fun hcounted => absurd hnone hcounted.1⟩
      rw [decide_eq_true_iff, userId_of_mem_callsFor hcall]
      exact huser
  · rename_i hother
    refine .inl ⟨rfl, fun hcounted hplaced => ?_⟩
    obtain ⟨placeOrder, hdata⟩ := hplaced
    rcases hupdate : output.orderUpdate with _ | update
    · exact hcounted.1 (by rw [EngineOutput.statusFor, hupdate]; rfl)
    · exact hother placeOrder update hdata hupdate

lemma callsOf_batch (userId : UInt64) (outputs : List EngineOutput) :
    callsOf userId (outputs.flatMap processEngineOrderUpdateFast) =
      (outputs.filter (fun output => output.IsCounted userId)).flatMap
        (fun output => callsOf userId (processEngineOrderUpdateFast output)) := by
  induction outputs with
  | nil => rfl
  | cons output outputs ih =>
      rw [List.flatMap_cons, callsOf, List.filter_append, ← callsOf, ← callsOf, ih,
        List.filter_cons]
      split
      · rw [List.flatMap_cons]
      · rename_i hcounted
        rcases callsOf_output userId output with ⟨hnil, -⟩ | ⟨-, status, -, h, -⟩
        · rw [hnil, List.nil_append]
        · exact absurd (decide_eq_true h) hcounted

/-- A user about whom there is a call has an update under way, and none of its writes yet. -/
lemma exists_update_of_ne_nil {userId : UInt64} {outputs : List EngineOutput}
    (h : callsOf userId (outputs.flatMap processEngineOrderUpdateFast) ≠ []) :
    ∃ status, .updateOrderStatistics userId status ∈
      outputs.flatMap processEngineOrderUpdateFast := by
  obtain ⟨call, hcall⟩ := List.exists_mem_of_ne_nil _ h
  rw [callsOf_batch, List.mem_flatMap] at hcall
  obtain ⟨output, houtput, hcall⟩ := hcall
  rcases callsOf_output userId output with ⟨hnil, -⟩ | ⟨-, status, -, -, hcalls⟩
  · rw [hnil] at hcall
    exact absurd hcall List.not_mem_nil
  · have hupdate : .updateOrderStatistics userId status ∈ callsFor userId status := by
      rw [hcalls] at hcall
      cases status <;> simp [callsFor] at hcall ⊢
    rw [← hcalls] at hupdate
    exact ⟨status, List.mem_flatMap.mpr
      ⟨output, List.mem_of_mem_filter houtput, List.mem_of_mem_filter hupdate⟩⟩

lemma upsert_notMem_batch (userId : UInt64) (row : OrderStatisticsRow)
    (outputs : List EngineOutput) :
    .upsert userId row ∉ outputs.flatMap processEngineOrderUpdateFast := by
  intro hmem
  obtain ⟨output, -, hcall⟩ := List.mem_flatMap.mp hmem
  have hown : .upsert userId row ∈ callsOf userId (processEngineOrderUpdateFast output) :=
    List.mem_filter.mpr ⟨hcall, decide_eq_true rfl⟩
  rcases callsOf_output userId output with ⟨hnil, -⟩ | ⟨-, status, -, -, hcalls⟩
  · rw [hnil] at hown
    exact absurd hown List.not_mem_nil
  · rw [hcalls] at hown
    cases status <;> exact absurd hown (by simp [callsFor])

/-! ## Batches that count right -/

namespace Counted

variable {userId : UInt64} {outputs : List EngineOutput} {before after row : OrderStatisticsRow}

lemma updatesWith_filter {status : OrderStatus} (h : status ≠ .partiallyFilled) :
    updatesWith userId status (outputs.filter (fun output => output.IsCounted userId)) =
      updatesWith userId status outputs := by
  rw [updatesWith, List.countP_filter, updatesWith]
  refine List.countP_congr (fun output _ => ?_)
  rw [Bool.and_eq_true, decide_eq_true_iff, decide_eq_true_iff, and_iff_left_iff_imp]
  intro hstatus
  refine ⟨by rw [hstatus]; simp, ?_⟩
  rw [hstatus]
  exact fun heq => h (Option.some.inj heq)

lemma filter_iff : Counted userId (outputs.filter (fun output => output.IsCounted userId))
    before after ↔ Counted userId outputs before after := by
  constructor
  · rintro ⟨htotal, hfilled, hcancelled, hrejected⟩
    simp only [updatesWith_filter, ne_eq, reduceCtorEq, not_false_iff] at *
    exact ⟨htotal, hfilled, hcancelled, hrejected⟩
  · rintro ⟨htotal, hfilled, hcancelled, hrejected⟩
    constructor <;> simpa only [updatesWith_filter, ne_eq, reduceCtorEq, not_false_iff]

lemma nil (userId : UInt64) (row : OrderStatisticsRow) : Counted userId [] row row := by
  constructor <;> simp [updatesWith]

/-- One update that is counted once counts right exactly if its counter does not overflow. -/
lemma single_iff {output : EngineOutput} {status : OrderStatus}
    (hstatus : output.statusFor userId = some status) (hne : status ≠ .partiallyFilled) :
    Counted userId [output] row (row.count status) ↔ row.HasRoom status := by
  constructor
  · rintro ⟨htotal, hfilled, hcancelled, hrejected⟩
    simp only [updatesWith, List.countP_singleton, hstatus] at htotal hfilled hcancelled hrejected
    cases status
    · exact (toInt_succ_eq_iff _).mp htotal
    · trivial
    · exact (toInt_succ_eq_iff _).mp hfilled
    · exact (toInt_succ_eq_iff _).mp hcancelled
    · exact (toInt_succ_eq_iff _).mp hrejected
    · exact (toInt_succ_eq_iff _).mp hcancelled
  · intro hroom
    have hcount : ∀ other, updatesWith userId other [output] = if status = other then 1 else 0 := by
      intro other
      rw [updatesWith, List.countP_singleton, hstatus]
      simp
    cases status
    · constructor <;> simp [hcount, count, (toInt_succ_eq_iff _).mpr hroom]
    · exact absurd rfl hne
    · constructor <;> simp [hcount, count, (toInt_succ_eq_iff _).mpr hroom]
    · constructor <;> simp [hcount, count, (toInt_succ_eq_iff _).mpr hroom]
    · constructor <;> simp [hcount, count, (toInt_succ_eq_iff _).mpr hroom]
    · constructor <;> simp [hcount, count, (toInt_succ_eq_iff _).mpr hroom]

end Counted

section Batch

variable {table : OrderStatistics} {userId : UInt64} {outputs : List EngineOutput}

lemma exists_leaves (outputs : List EngineOutput) (table : OrderStatistics) :
    ∃ table', Leaves outputs table table' := by
  obtain ⟨⟨table', calls⟩, hruns⟩ := Interleaved.exists_finished StatisticsCall.rank
    (fun h => StatisticsCall.rank_execute h) (orderHistoryBatch table outputs)
  exact ⟨table', calls, hruns⟩

lemma rowOf_of_no_calls {table' : OrderStatistics} (h : Leaves outputs table table')
    (hnone : callsOf userId (outputs.flatMap processEngineOrderUpdateFast) = []) :
    table'.rowOf userId = table.rowOf userId := by
  obtain ⟨calls, hruns⟩ := h
  exact congrArg (fun row => Option.getD row OrderStatisticsRow.zero) (untouched hruns hnone)

/-- Some interleaving counts at most one update of a user. -/
lemma exists_leaves_sum_le (userId : UInt64) (outputs : List EngineOutput)
    (table : OrderStatistics) : ∃ table', Leaves outputs table table' ∧
      (table'.rowOf userId).sum ≤ (table.rowOf userId).sum + 1 := by
  by_cases hnone : callsOf userId (outputs.flatMap processEngineOrderUpdateFast) = []
  · obtain ⟨table', hleaves⟩ := exists_leaves outputs table
    exact ⟨table', hleaves, by rw [rowOf_of_no_calls hleaves hnone]; omega⟩
  · obtain ⟨status, hupdate⟩ := exists_update_of_ne_nil hnone
    obtain ⟨⟨table', calls⟩, hruns, status', hrow⟩ :=
      exists_racing (c := orderHistoryBatch table outputs) hupdate
        (fun row => upsert_notMem_batch userId row outputs)
    refine ⟨table', ⟨calls, hruns⟩, ?_⟩
    rw [show table'.rowOf userId = _ from hrow]
    exact sum_count_le _ _

/-- The row that is initialised for a user's first order is counted on again in some
interleaving. -/
lemma exists_leaves_first (hnone : table.get? userId = none)
    (hcalls : callsOf userId (outputs.flatMap processEngineOrderUpdateFast) =
      callsFor userId .new) :
    ∃ table', Leaves outputs table table' ∧ table'.rowOf userId = ⟨2, 0, 0, 0⟩ := by
  have hinit : .initUserStatistics userId ∈
      callsOf userId (outputs.flatMap processEngineOrderUpdateFast) := by
    rw [hcalls]
    exact List.mem_cons_self
  obtain ⟨before, after, hthreads⟩ := List.append_of_mem (List.mem_of_mem_filter hinit)
  -- the insert first, then the rest in any order
  have hfirst : Interleaved.Step (fun table call => StatisticsCall.execute table call)
      (orderHistoryBatch table outputs)
      ⟨table.insert userId .initial, before ++ .returned userId :: after⟩ := by
    rw [orderHistoryBatch, hthreads]
    refine .take before after ?_
    simp [StatisticsCall.execute, hnone]
  obtain ⟨⟨table', calls⟩, hruns⟩ := Interleaved.exists_finished StatisticsCall.rank
    (fun h => StatisticsCall.rank_execute h)
    (⟨table.insert userId .initial, before ++ .returned userId :: after⟩ : StatisticsState)
  have hrest : callsOf userId (before ++ .returned userId :: after) =
      [.returned userId] ++ [.updateOrderStatistics userId .new] := by
    have hown : callsOf userId (before ++ .initUserStatistics userId :: after) =
        callsOf userId before ++ .initUserStatistics userId :: callsOf userId after :=
      callsOf_own before after rfl
    have hreturned : callsOf userId (before ++ .returned userId :: after) =
        callsOf userId before ++ .returned userId :: callsOf userId after :=
      callsOf_own before after rfl
    rw [hthreads, hown] at hcalls
    rw [hreturned]
    rcases hbefore : callsOf userId before with _ | ⟨call, others⟩
    · rw [hbefore] at hcalls
      rw [(List.cons.inj hcalls).2]
      rfl
    · rw [hbefore] at hcalls
      have htail := (List.cons.inj hcalls).2
      rcases others with _ | ⟨other, others⟩
      · exact absurd (List.cons.inj htail).1 (by simp)
      · exact absurd (List.cons.inj htail).2 (by simp)
  refine ⟨table', ⟨calls, .head hfirst hruns.1, hruns.2⟩, ?_⟩
  have hupdated := updated hruns hrest (by simp)
  rw [show table'.rowOf userId = _ from hupdated]
  simp [OrderStatistics.rowOf, OrderStatisticsRow.count, OrderStatisticsRow.initial]

lemma rowOf_of_single {table' : OrderStatistics} {output : EngineOutput} {status : OrderStatus}
    (h : Leaves outputs table table')
    (hsingle : outputs.filter (fun output => output.IsCounted userId) = [output])
    (hcalls : callsOf userId (processEngineOrderUpdateFast output) = callsFor userId status)
    (hne : status ≠ .partiallyFilled) (hknown : status = .new → (table.get? userId).isSome) :
    table'.rowOf userId = (table.rowOf userId).count status := by
  obtain ⟨calls, hruns⟩ := h
  have hbatch : callsOf userId (outputs.flatMap processEngineOrderUpdateFast) =
      callsFor userId status := by
    rw [callsOf_batch, hsingle, List.flatMap_singleton, hcalls]
  cases status
  · refine @updated _ _ _ _ [.initUserStatistics userId] hruns hbatch (fun call hcall => ?_)
    exact .inr ⟨List.mem_singleton.mp hcall, hknown rfl⟩
  · exact absurd rfl hne
  all_goals exact @updated _ _ _ _ [] hruns hbatch (by simp)

/-- What one counted update of a user takes to be counted once in every interleaving. -/
lemma counted_single_iff {output : EngineOutput}
    (hsingle : outputs.filter (fun output => output.IsCounted userId) = [output]) :
    (∀ table', Leaves outputs table table' →
        Counted userId outputs (table.rowOf userId) (table'.rowOf userId)) ↔
      (∃ placeOrder, output.input.data = .placeOrder placeOrder) ∧
        (output.statusFor userId = some .new → (table.get? userId).isSome) ∧
          ∀ status, output.statusFor userId = some status →
            (table.rowOf userId).HasRoom status := by
  have hone : ∀ {row : OrderStatisticsRow}, Counted userId outputs (table.rowOf userId) row →
      row.sum = (table.rowOf userId).sum + 1 := by
    intro row h
    have hsum := h.sum_eq
    rwa [List.countP_eq_length_filter, hsingle] at hsum
  have hmem : output ∈ outputs.filter (fun output => output.IsCounted userId) := by
    rw [hsingle]
    exact List.mem_singleton_self _
  have hcounted : output.IsCounted userId := of_decide_eq_true (List.mem_filter.mp hmem).2
  rcases callsOf_output userId output with ⟨hnil, hnot⟩ | ⟨hplaced, status, hstatus, -, hcalls⟩
  · -- an update that does not come with a placement is not counted
    refine iff_of_false (fun h => ?_) (fun h => hnot hcounted h.1)
    obtain ⟨table', hleaves⟩ := exists_leaves outputs table
    have hbatch : callsOf userId (outputs.flatMap processEngineOrderUpdateFast) = [] := by
      rw [callsOf_batch, hsingle, List.flatMap_singleton, hnil]
    have hsum := hone (h table' hleaves)
    rw [rowOf_of_no_calls hleaves hbatch] at hsum
    omega
  · have hne : status ≠ .partiallyFilled :=
      fun heq => hcounted.2 (hstatus.trans (congrArg some heq))
    have hroom : (∀ status', output.statusFor userId = some status' →
        (table.rowOf userId).HasRoom status') ↔ (table.rowOf userId).HasRoom status := by
      refine ⟨fun h => h status hstatus, fun h status' hstatus' => ?_⟩
      rwa [← Option.some.inj (hstatus.symm.trans hstatus')]
    rw [hroom, and_iff_right hplaced, hstatus, Option.some.injEq]
    by_cases hknown : status = .new → (table.get? userId).isSome
    · -- the row is there: every interleaving counts on it
      rw [and_iff_right hknown, ← Counted.single_iff hstatus hne, ← hsingle, Counted.filter_iff]
      constructor
      · intro h
        obtain ⟨table', hleaves⟩ := exists_leaves outputs table
        rw [← rowOf_of_single hleaves hsingle hcalls hne hknown]
        exact h table' hleaves
      · intro h table' hleaves
        rwa [rowOf_of_single hleaves hsingle hcalls hne hknown]
    · -- the first order: counted on top of the initial row
      refine iff_of_false (fun h => ?_) (fun h => hknown h.1)
      obtain ⟨rfl, hnone⟩ := Classical.not_imp.mp hknown
      have hget : table.get? userId = none := by simpa using hnone
      have hbatch : callsOf userId (outputs.flatMap processEngineOrderUpdateFast) =
          callsFor userId .new := by
        rw [callsOf_batch, hsingle, List.flatMap_singleton, hcalls]
      obtain ⟨table', hleaves, hrow⟩ := exists_leaves_first hget hbatch
      have hsum := hone (h table' hleaves)
      rw [hrow, OrderStatistics.rowOf, hget] at hsum
      exact absurd hsum (by decide)

/-- **No lost statistics updates.**  In every interleaving of a batch a user's counters increase by
the numbers of the user's updates, exactly if at most one of these is to be counted, and that one
comes with a placement, finds the row if the order is new, and has room in its counter. -/
theorem statistics_counted_iff (table : OrderStatistics) (outputs : List EngineOutput)
    (userId : UInt64) :
    (∀ table', Leaves outputs table table' →
        Counted userId outputs (table.rowOf userId) (table'.rowOf userId)) ↔
      Uncontended table userId outputs := by
  have hlength : outputs.countP (fun output => output.IsCounted userId) =
      (outputs.filter (fun output => output.IsCounted userId)).length :=
    List.countP_eq_length_filter
  have hmem : ∀ {output : EngineOutput}, output ∈ outputs → output.IsCounted userId →
      output ∈ outputs.filter (fun output => output.IsCounted userId) :=
    fun houtput hcounted => List.mem_filter.mpr ⟨houtput, decide_eq_true hcounted⟩
  have hnew : ∀ {output : EngineOutput}, output.statusFor userId = some .new →
      output.IsCounted userId := by
    intro output h
    exact ⟨by rw [h]; simp, by rw [h]; simp⟩
  rcases hfilter : outputs.filter (fun output => output.IsCounted userId) with
    _ | ⟨output, _ | ⟨second, rest⟩⟩
  · -- nothing is to be counted
    have hbatch : callsOf userId (outputs.flatMap processEngineOrderUpdateFast) = [] := by
      rw [callsOf_batch, hfilter]
      rfl
    have hnot : ∀ {output : EngineOutput}, output ∈ outputs → ¬output.IsCounted userId := by
      intro output houtput hcounted
      have := hmem houtput hcounted
      rw [hfilter] at this
      exact absurd this List.not_mem_nil
    refine iff_of_true (fun table' hleaves => ?_) ⟨?_, ?_, ?_, ?_⟩
    · rw [rowOf_of_no_calls hleaves hbatch, ← Counted.filter_iff, hfilter]
      exact Counted.nil userId _
    · rw [hlength, hfilter]
      exact Nat.zero_le 1
    · exact fun output houtput hcounted => absurd hcounted (hnot houtput)
    · exact fun output houtput h => absurd (hnew h) (hnot houtput)
    · intro output houtput status hstatus
      have hpartly : output.statusFor userId = some .partiallyFilled := by
        by_contra hne
        exact hnot houtput ⟨by rw [hstatus]; simp, hne⟩
      rw [← Option.some.inj (hpartly.symm.trans hstatus)]
      trivial
  · -- one update is to be counted
    have heq : ∀ {other : EngineOutput}, other ∈ outputs → other.IsCounted userId →
        other = output := by
      intro other hother hcounted
      have := hmem hother hcounted
      rw [hfilter] at this
      exact List.mem_singleton.mp this
    obtain ⟨houtput, hcounted⟩ := List.mem_filter.mp
      (show output ∈ outputs.filter (fun output => output.IsCounted userId) by
        rw [hfilter]; exact List.mem_singleton_self _)
    rw [counted_single_iff hfilter]
    constructor
    · rintro ⟨hplaced, hknown, hroom⟩
      refine ⟨by rw [hlength, hfilter]; rfl, fun other hother h => ?_, fun other hother h => ?_,
        fun other hother status hstatus => ?_⟩
      · rwa [heq hother h]
      · rw [heq hother (hnew h)] at h
        exact hknown h
      · by_cases hpartly : status = .partiallyFilled
        · rw [hpartly]
          trivial
        · have hother' : other = output := by
            refine heq hother ⟨by rw [hstatus]; simp, ?_⟩
            rw [hstatus]
            exact fun h => hpartly (Option.some.inj h)
          exact hroom status (hother' ▸ hstatus)
    · intro h
      exact ⟨h.placed output houtput (of_decide_eq_true hcounted), h.known output houtput,
        h.hasRoom output houtput⟩
  · -- of two, some interleaving loses one
    refine iff_of_false (fun h => ?_) (fun h => ?_)
    · obtain ⟨table', hleaves, hle⟩ := exists_leaves_sum_le userId outputs table
      have hsum := (h table' hleaves).sum_eq
      rw [hlength, hfilter, List.length_cons, List.length_cons] at hsum
      push_cast at hsum
      omega
    · have hle := h.single
      rw [hlength, hfilter, List.length_cons, List.length_cons] at hle
      omega

end Batch

/-- The placement of an order that rests. -/
def restingOrder (orderId userId : UInt64) : EngineOutput where
  outputSeq := orderId
  prevHash := GENESIS_HASH
  symbolId := 1
  input := ⟨orderId, 0, .placeOrder ⟨orderId, userId, 1, 1, 1, 100, 5, "c", 0⟩⟩
  orderUpdate := some ⟨orderId, userId, 1, 0, 5, 0, 0⟩
  trades := []
  balanceEvents := []
  orderPlacements := []
  orderCompletions := []
  hash := 0

theorem firstOrder_not_counted : ¬∀ table', Leaves [restingOrder 1 7] .empty table' →
    ∀ userId, Counted userId [restingOrder 1 7] (OrderStatistics.rowOf .empty userId)
      (table'.rowOf userId) := by
  intro h
  let inserted : OrderStatistics := HashMap.empty.insert 7 .initial
  let written : OrderStatistics := inserted.insert 7 ⟨2, 0, 0, 0⟩
  have hcalls : [restingOrder 1 7].flatMap processEngineOrderUpdateFast =
      [.initUserStatistics 7, .updateOrderStatistics 7 .new] := by decide +kernel
  have hinsert : (StatisticsCall.initUserStatistics 7).execute .empty =
      some (inserted, .returned 7) := by decide +kernel
  have hread : (StatisticsCall.updateOrderStatistics 7 .new).execute inserted =
      some (inserted, .upsert 7 ⟨2, 0, 0, 0⟩) := by decide +kernel
  have hwrite : (StatisticsCall.upsert 7 ⟨2, 0, 0, 0⟩).execute inserted =
      some (written, .returned 7) := rfl
  have hleaves : Leaves [restingOrder 1 7] .empty written := by
    rw [Leaves, orderHistoryBatch, hcalls]
    refine ⟨[.returned 7, .returned 7], .head (.take [] _ hinsert)
      (.head (.take [StatisticsCall.returned 7] [] hread)
        (.single (.take [StatisticsCall.returned 7] [] hwrite))),
      fun call hcall => ?_⟩
    simp only [List.mem_cons, List.not_mem_nil, or_false, or_self] at hcall
    rw [hcall]
    rfl
  exact absurd (h written hleaves 7).totalOrders (by decide +kernel)

end ExchangeCore

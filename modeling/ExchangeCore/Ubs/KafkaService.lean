import ExchangeCore.Framework.Machine
import ExchangeCore.Ubs.Wal

/-!
# UBSCore between two topics

`ubscore_service.rs` reads orders from one Kafka topic, validates them with UBSCore and forwards
those that are accepted to the matching engine.  It logs every order before it validates it, flushes
the log before it forwards one, and after rejected orders at the latest when a hundred orders are
waiting.  If the log fails it goes on all the same.

`forwarded_on_disk` says that an accepted order that has been logged and flushed without an error is
on disk for good, whatever fails before and after, and `unflushed_rejected` what is on disk if
nothing fails: all orders that have been received, in order, but for the last ninety-nine at most,
and these have been rejected.

Payloads that cannot be parsed change nothing and are left out, as are the metrics and the commands
of the test mode.
-/

namespace ExchangeCore

namespace GroupCommitWal

/-! ## What is on disk stays there -/

/-- What has been written is still there, in the same place. -/
def Grows {α : Type} (m : Fallible GroupCommitWal WalError α) : Prop :=
  ∀ wal, wal.written <+: (m wal).2.written

lemma Grows.bind {α β : Type} {m : Fallible GroupCommitWal WalError α}
    {k : α → Fallible GroupCommitWal WalError β} (h : Grows m) (hk : ∀ a, Grows (k a)) :
    Grows (m >>= k) := by
  intro wal
  have hm := h wal
  rcases hrun : m wal with ⟨result, wal'⟩
  rw [hrun] at hm
  cases result with
  | error e => rwa [Fallible.bind_of_error hrun]
  | ok a =>
      rw [Fallible.bind_of_ok hrun]
      exact hm.trans (hk a wal')

lemma grows_flush (io : Except String Unit) : Grows (flush io) := by
  intro wal
  unfold flush
  split
  · exact List.prefix_rfl
  · cases io with
    | error e => exact List.prefix_rfl
    | ok _ => exact List.prefix_append _ _

lemma grows_write (entry : WalEntry) : Grows (write entry) := by
  intro wal
  simp only [write]
  split
  · exact List.prefix_rfl
  · split
    · exact List.prefix_rfl
    · exact List.prefix_rfl

lemma grows_append (io : FlushIo) (entry : WalEntry) : Grows (append io entry) := by
  have hmakeRoom : Grows (makeRoom io.room entry) := by
    intro wal
    unfold makeRoom
    split
    · exact grows_flush io.room wal
    · exact List.prefix_rfl
  have hautoFlush : Grows (autoFlush io.batch) := by
    intro wal
    unfold autoFlush
    split
    · exact grows_flush io.batch wal
    · exact List.prefix_rfl
  exact hmakeRoom.bind (fun _ => (grows_write entry).bind (fun _ => hautoFlush))

lemma length_buffer_append {io : FlushIo} {entry : WalEntry} {wal : GroupCommitWal}
    (hok : (append io entry wal).1 = .ok ()) :
    (append io entry wal).2.entries = wal.entries ++ [entry] ∧
      (append io entry wal).2.buffer.length ≤ wal.buffer.length + 1 := by
  obtain ⟨hentries, -, hiff⟩ := append_spec io entry wal
  have hadded := hentries (hiff.mp hok).1
  have hlength := congrArg List.length hadded
  have hgrows := (grows_append io entry wal).length_le
  simp only [entries, List.length_append, List.length_singleton] at hlength
  exact ⟨hadded, by omega⟩

lemma flush_of_ok (wal : GroupCommitWal) :
    (flush (.ok ()) wal).2.written = wal.entries ∧ (flush (.ok ()) wal).2.buffer = [] := by
  have hok : (flush (.ok ()) wal).1 = .ok () := by
    unfold flush
    split
    · rfl
    · rfl
  exact flush_ensures (.ok ()) wal () _ (Prod.ext hok rfl)

end GroupCommitWal

/-! ## The service -/

/-- An order that has been received, the clock, the answers of the operating system, and whether the
producer takes the record. -/
structure ReceivedOrder where
  order : InternalOrder
  clock : UInt64
  io : FlushIo
  sent : Bool

/-- The state of the service: UBSCore, the log, how many orders wait for a flush, and what has been
sent to the topic of the validated orders. -/
structure UBSCoreService where
  core : UBSCore
  wal : GroupCommitWal
  pendingWalFlush : ℕ
  forwarded : List InternalOrder

namespace UBSCoreService

variable (bincode : Bincode)

def logOrder (r : ReceivedOrder) : Fallible GroupCommitWal WalError Unit :=
  GroupCommitWal.append r.io (bincode.orderEntry r.order)

def flushWal (r : ReceivedOrder) : Fallible GroupCommitWal WalError Unit :=
  GroupCommitWal.flush r.io.commit

/-- One turn of `run_processing_loop`, and whether the order is accepted.  Errors of the log are
printed only. -/
def process (s : UBSCoreService) (r : ReceivedOrder) : UBSCoreService × Bool :=
  let wal := (logOrder bincode r s.wal).2
  let pending := s.pendingWalFlush + 1
  match UBSCore.validateOrder r.order r.clock s.core with
  | (.ok _, core) =>
      (⟨core, (flushWal r wal).2, 0, if r.sent then s.forwarded ++ [r.order] else s.forwarded⟩,
        true)
  | (.error _, core) =>
      if 100 ≤ pending then (⟨core, (flushWal r wal).2, 0, s.forwarded⟩, false)
      else (⟨core, wal, pending, s.forwarded⟩, false)

/-- `run_processing_loop`. -/
def loop : Machine UBSCoreService ReceivedOrder Bool := ⟨process bincode⟩

/-- The orders of a run that are accepted. -/
def accepted (s : UBSCoreService) (rs : List ReceivedOrder) : List InternalOrder :=
  (rs.zip ((loop bincode).answers s rs)).filterMap (fun turn =>
    if turn.2 then some turn.1.order else none)

/-- No operation on the log fails in this turn. -/
def LogSucceeds (s : UBSCoreService) (r : ReceivedOrder) : Prop :=
  (logOrder bincode r s.wal).1 = .ok () ∧ r.io.commit = .ok ()

variable {bincode} {s : UBSCoreService} {r : ReceivedOrder}

variable (bincode) in
/-- What a turn does: either the log is flushed, or the order is rejected and waits. -/
lemma process_cases (s : UBSCoreService) (r : ReceivedOrder) :
    ((process bincode s r).1.wal = (flushWal r (logOrder bincode r s.wal).2).2 ∧
        (process bincode s r).1.pendingWalFlush = 0) ∨
      ((process bincode s r).2 = false ∧
        (process bincode s r).1.wal = (logOrder bincode r s.wal).2 ∧
        (process bincode s r).1.pendingWalFlush = s.pendingWalFlush + 1 ∧
        s.pendingWalFlush + 1 < 100) := by
  unfold process
  rcases UBSCore.validateOrder r.order r.clock s.core with ⟨_ | _, core⟩
  · dsimp only
    split
    · exact .inl ⟨rfl, rfl⟩
    · rename_i hfew
      exact .inr ⟨rfl, rfl, rfl, Nat.not_le.mp hfew⟩
  · exact .inl ⟨rfl, rfl⟩

/-! ## Whatever fails -/

lemma grows_process (s : UBSCoreService) (r : ReceivedOrder) :
    s.wal.written <+: (process bincode s r).1.wal.written := by
  have hlog := GroupCommitWal.grows_append r.io (bincode.orderEntry r.order) s.wal
  rcases process_cases bincode s r with ⟨hwal, -⟩ | ⟨-, hwal, -⟩
  · rw [hwal]
    exact hlog.trans (GroupCommitWal.grows_flush r.io.commit _)
  · rw [hwal]
    exact hlog

lemma grows_loop (s : UBSCoreService) (rs : List ReceivedOrder) :
    s.wal.written <+: ((loop bincode).run s rs).wal.written := by
  induction rs generalizing s with
  | nil => exact List.prefix_rfl
  | cons r rs ih => exact (grows_process s r).trans (ih _)

/-- The log after a turn that logs and flushes without an error. -/
lemma written_process (hlog : LogSucceeds bincode s r) (hok : (process bincode s r).2 = true) :
    (process bincode s r).1.wal.written = s.wal.entries ++ [bincode.orderEntry r.order] := by
  obtain ⟨hentries, -⟩ := GroupCommitWal.length_buffer_append hlog.1
  rcases process_cases bincode s r with ⟨hwal, -⟩ | ⟨hrejected, -⟩
  · rw [hwal, flushWal, hlog.2, (GroupCommitWal.flush_of_ok _).1]
    exact hentries
  · rw [hok] at hrejected
    exact absurd hrejected Bool.noConfusion

/-- **On disk by the end of its turn.**  An order that is accepted, logged and flushed without an
error is on disk when the turn that forwards it is over and from then on, after everything that was
in the log before it, whatever fails before and after. -/
theorem forwarded_on_disk {before after : List ReceivedOrder}
    (hlog : LogSucceeds bincode ((loop bincode).run s before) r)
    (hok : (process bincode ((loop bincode).run s before) r).2 = true) :
    ((loop bincode).run s before).wal.entries ++ [bincode.orderEntry r.order] <+:
      ((loop bincode).run s (before ++ r :: after)).wal.written := by
  rw [Machine.run_append, Machine.run_cons, ← written_process hlog hok]
  exact grows_loop _ after

/-- A service that has not received anything. -/
def fresh (core : UBSCore) (maxBatchSize capacity : ℕ) : UBSCoreService :=
  ⟨core, ⟨maxBatchSize, capacity, [], 0, []⟩, 0, []⟩

/-- UBSCore with a symbol and 100 units of its quote asset. -/
def funded : UBSCore := UBSCore.onDeposit 1 2 100 1 (UBSCore.new.registerSymbol 1 (1, 2))

/-- User 1 buys 60 at price 1. -/
def received (orderId : UInt64) (io : FlushIo) : ReceivedOrder :=
  ⟨⟨orderId, 1, 1, .buy, 1, 60, .limit⟩, 0, io, true⟩

theorem forwarded_on_disk_beforeFailure :
    [Bincode.fixint.orderEntry (received 7 ⟨.ok (), .ok (), .ok ()⟩).order] <+:
      ((loop Bincode.fixint).run (fresh funded 100 65536)
        ([] ++ received 7 ⟨.ok (), .ok (), .ok ()⟩ ::
          [received 8 ⟨.error "disk", .error "disk", .error "disk"⟩])).wal.written :=
  @forwarded_on_disk Bincode.fixint (fresh funded 100 65536)
    (received 7 ⟨.ok (), .ok (), .ok ()⟩) []
    [received 8 ⟨.error "disk", .error "disk", .error "disk"⟩] ⟨by decide, rfl⟩ (by decide)

/-! ## Nothing fails -/

/-- What the log holds of the orders received, of which `accepted` have been accepted. -/
structure Logged (bincode : Bincode) (s : UBSCoreService) (received accepted : List InternalOrder) :
    Prop where
  entries : s.wal.entries = received.map bincode.orderEntry
  waiting : s.wal.buffer.length ≤ s.pendingWalFlush
  few : s.pendingWalFlush < 100
  accepted : (accepted.map bincode.orderEntry).Sublist s.wal.written

/-- The order of a turn, if it is accepted. -/
def acceptedOf (r : ReceivedOrder) (ok : Bool) : List InternalOrder := if ok then [r.order] else []

lemma Logged.process {received accepted : List InternalOrder}
    (h : Logged bincode s received accepted) (hlog : LogSucceeds bincode s r) :
    Logged bincode (process bincode s r).1 (received ++ [r.order])
      (accepted ++ acceptedOf r (process bincode s r).2) := by
  obtain ⟨hentries, hlength⟩ := GroupCommitWal.length_buffer_append hlog.1
  have hreceived : s.wal.entries ++ [bincode.orderEntry r.order] =
      (received ++ [r.order]).map bincode.orderEntry := by
    rw [h.entries, List.map_append]
    rfl
  have hentered : (accepted.map bincode.orderEntry).Sublist s.wal.entries :=
    h.accepted.trans (List.sublist_append_left _ _)
  rcases process_cases bincode s r with
    ⟨hwal, hpending⟩ | ⟨hrejected, hwal, hpending, hfew⟩
  · -- the log has been flushed
    obtain ⟨hwritten, hbuffer⟩ := GroupCommitWal.flush_of_ok (logOrder bincode r s.wal).2
    rw [flushWal, hlog.2] at hwal
    have hall : (logOrder bincode r s.wal).2.entries =
        s.wal.entries ++ [bincode.orderEntry r.order] := hentries
    refine ⟨?_, ?_, ?_, ?_⟩
    · rw [hwal, GroupCommitWal.entries, hwritten, hbuffer, List.append_nil, hall, hreceived]
    · rw [hwal, hbuffer]
      exact Nat.zero_le _
    · rw [hpending]
      omega
    · rw [hwal, hwritten, hall, List.map_append]
      refine hentered.append ?_
      rw [acceptedOf]
      split
      · exact List.Sublist.refl _
      · exact List.nil_sublist _
  · -- it waits
    have hnone : accepted ++ acceptedOf r (UBSCoreService.process bincode s r).2 = accepted := by
      rw [hrejected]
      exact List.append_nil _
    rw [hnone]
    refine ⟨?_, ?_, ?_, ?_⟩
    · rw [hwal, ← hreceived]
      exact hentries
    · rw [hwal, hpending]
      exact hlength.trans (Nat.succ_le_succ h.waiting)
    · rw [hpending]
      exact hfew
    · rw [hwal]
      exact h.accepted.trans
        (GroupCommitWal.grows_append r.io (bincode.orderEntry r.order) s.wal).sublist

lemma accepted_cons (s : UBSCoreService) (r : ReceivedOrder) (rs : List ReceivedOrder) :
    accepted bincode s (r :: rs) =
      acceptedOf r (process bincode s r).2 ++ accepted bincode (process bincode s r).1 rs := by
  rw [accepted, Machine.answers_cons, List.zip_cons_cons, ← List.singleton_append,
    List.filterMap_append]
  refine congrArg (· ++ _) ?_
  show [(r, (UBSCoreService.process bincode s r).2)].filterMap _ = _
  rw [acceptedOf]
  cases (UBSCoreService.process bincode s r).2 with
  | false => rfl
  | true => rfl

/-- A turn forwards an accepted order whose send succeeds, whatever becomes of the log. -/
lemma forwarded_process (s : UBSCoreService) (r : ReceivedOrder) :
    (process bincode s r).1.forwarded =
      s.forwarded ++ if r.sent then acceptedOf r (process bincode s r).2 else [] := by
  unfold UBSCoreService.process
  rcases UBSCore.validateOrder r.order r.clock s.core with ⟨_ | _, core⟩
  · have hrejected : acceptedOf r false = [] := rfl
    dsimp only
    split
    · rw [hrejected, ite_self, List.append_nil]
    · rw [hrejected, ite_self, List.append_nil]
  · dsimp only
    split
    · rfl
    · rw [List.append_nil]

variable (bincode) in
/-- **What is forwarded**: of the orders accepted, in order, those whose send succeeds. -/
lemma forwarded_loop (s : UBSCoreService) (rs : List ReceivedOrder) :
    ∃ new, ((loop bincode).run s rs).forwarded = s.forwarded ++ new ∧
      new.Sublist (accepted bincode s rs) ∧
      ((∀ r ∈ rs, r.sent = true) → new = accepted bincode s rs) := by
  induction rs generalizing s with
  | nil => exact ⟨[], (List.append_nil _).symm, List.nil_sublist _, fun _ => rfl⟩
  | cons r rs ih =>
      obtain ⟨new, hrun, hsub, hall⟩ := ih (process bincode s r).1
      refine ⟨(if r.sent then acceptedOf r (process bincode s r).2 else []) ++ new, ?_, ?_, ?_⟩
      · rw [Machine.run_cons, ← List.append_assoc, ← forwarded_process]
        exact hrun
      · rw [accepted_cons]
        refine List.Sublist.append ?_ hsub
        split
        · exact List.Sublist.refl _
        · exact List.nil_sublist _
      · intro hsent
        rw [List.forall_mem_cons] at hsent
        rw [accepted_cons, hsent.1, if_pos rfl, hall hsent.2]

lemma Logged.run {received acc : List InternalOrder} (rs : List ReceivedOrder)
    (h : Logged bincode s received acc)
    (hlog : (loop bincode).AllSteps (LogSucceeds bincode) s rs) :
    Logged bincode ((loop bincode).run s rs) (received ++ rs.map ReceivedOrder.order)
      (acc ++ UBSCoreService.accepted bincode s rs) := by
  induction rs generalizing s received acc with
  | nil => simpa [UBSCoreService.accepted] using h
  | cons r rs ih =>
      have hrest := ih (h.process hlog.1) hlog.2
      rw [accepted_cons, ← List.append_assoc, List.map_cons, List.append_cons]
      exact hrest

/-- **What may be lost.**  As long as the log does not fail, it holds the orders received, in order;
less than a hundred of them, the last ones, are not on disk yet; all that have been accepted are,
and only these have been forwarded. -/
theorem unflushed_rejected (core : UBSCore) (maxBatchSize capacity : ℕ) (rs : List ReceivedOrder)
    (hlog : (loop bincode).AllSteps (LogSucceeds bincode) (fresh core maxBatchSize capacity) rs) :
    let s := (loop bincode).run (fresh core maxBatchSize capacity) rs
    let orders := accepted bincode (fresh core maxBatchSize capacity) rs
    s.wal.entries = (rs.map ReceivedOrder.order).map bincode.orderEntry ∧
      s.wal.buffer.length < 100 ∧
      (orders.map bincode.orderEntry).Sublist s.wal.written ∧ s.forwarded.Sublist orders := by
  have hstart : Logged bincode (fresh core maxBatchSize capacity) [] [] :=
    ⟨rfl, le_rfl, Nat.succ_pos _, List.Sublist.refl _⟩
  have h := hstart.run rs hlog
  obtain ⟨new, hforwarded, hsub, -⟩ := forwarded_loop bincode (fresh core maxBatchSize capacity) rs
  refine ⟨h.entries, h.waiting.trans_lt h.few, h.accepted, ?_⟩
  rw [hforwarded]
  exact hsub

theorem unflushed_rejected_twoOrders :
    ((loop Bincode.fixint).run (fresh funded 100 65536)
        [received 7 ⟨.ok (), .ok (), .ok ()⟩, received 8 ⟨.ok (), .ok (), .ok ()⟩]).wal.entries =
      [Bincode.fixint.orderEntry (received 7 ⟨.ok (), .ok (), .ok ()⟩).order,
        Bincode.fixint.orderEntry (received 8 ⟨.ok (), .ok (), .ok ()⟩).order] :=
  (@unflushed_rejected Bincode.fixint funded 100 65536
    [received 7 ⟨.ok (), .ok (), .ok ()⟩, received 8 ⟨.ok (), .ok (), .ok ()⟩]
    ⟨⟨by decide, rfl⟩, ⟨by decide, rfl⟩, trivial⟩).1

end UBSCoreService

end ExchangeCore

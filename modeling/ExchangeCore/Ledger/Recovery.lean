import ExchangeCore.Framework.Machine
import ExchangeCore.Ledger.GlobalLedger

/-!
# Recovery of the ledger

Snapshots and `GlobalLedger::new` (`ledger.rs`).  A restart loads the snapshot with the largest
number, reads the log from the segment that number falls into, skips what the snapshot has, and
executes the rest; a record out of order is a gap, and a record that is refused is an error.

`LedgerSystem` is a session: `apply` and `commit_batch`, snapshots that are taken at one point and
completed at a later one, and cleanups of the log directory, which run beside it.  Along a session
whose steps are `Orderly`, the directories determine the live state (`Recorded`): there is a
history of commands that gives the accounts, the log has all of it but for a front part some
snapshot covers, and every snapshot is the state after some of the history.  From this a restart
gives the live state back (`Recorded.recover`).
-/

namespace ExchangeCore

/-- The name of a snapshot file: `snapshot_SEQ_MD5.snap`. -/
structure SnapName where
  seq : UInt64
  md5 : String
  deriving DecidableEq, Repr

/-- A directory of snapshot files. -/
abbrev SnapDir := HashMap SnapName Bytes

def snapshotRetention : ℕ := 3

namespace GlobalLedger

/-! ## Starting from what is on disk -/

/-- `find_latest_snapshot`: the first of those with the largest number, if that is not zero. -/
def findLatestSnapshot (listing : List SnapName) : Option SnapName :=
  listing.foldl
    (fun found name => if (found.elim 0 SnapName.seq) < name.seq then some name else found) none

/-- The accounts and the sequence number of the latest snapshot. -/
def loadSnapshot (codec : LedgerCodec) (listing : List SnapName) (dir : SnapDir) :
    Except Abort (Accounts × UInt64) :=
  match findLatestSnapshot listing with
  | none => .ok (HashMap.empty, 0)
  | some name =>
      match dir.get? name with
      | none => .error (.error "No such file or directory")
      | some bytes =>
          match codec.deserializeSnapshot bytes with
          | .error e => .error (.error e)
          | .ok snap =>
              if codec.md5 bytes ≠ name.md5 then .error (.error "Snapshot MD5 Mismatch")
              else .ok (snap.accounts, snap.lastSeq)

/-- The replay loop. -/
def replay : List WalRecord → Accounts → UInt64 → Except Abort (Accounts × UInt64)
  | [], accounts, recoveredSeq => .ok (accounts, recoveredSeq)
  | (seq, cmd) :: rs, accounts, recoveredSeq =>
      if seq ≤ recoveredSeq then replay rs accounts recoveredSeq
      else if seq ≠ recoveredSeq + 1 then
        .error (.error s!"Gap! Expected {recoveredSeq + 1}, Found {seq}")
      else
        match applyTransaction cmd accounts with
        | (.error e, _) => .error e
        | (.ok (), accounts) => replay rs accounts seq

/-- The state `GlobalLedger::new` reconstructs: the snapshot, then the log.  An error of the reader
comes after the records before it. -/
def recover (codec : LedgerCodec) (snapListing : List SnapName) (snapshots : SnapDir)
    (walListing : List WalName) (dir : WalDir) : Except Abort (Accounts × UInt64) := do
  let snap ← loadSnapshot codec snapListing snapshots
  let records := RollingWal.replayIter codec walListing snap.2 dir
  let recovered ← replay records.1 snap.1 snap.2
  match records.2 with
  | some e => .error e
  | none => .ok recovered

/-- `GlobalLedger::new`; the log directory is listed once for the replay and once to find the
segment to resume. -/
def new (codec : LedgerCodec) (clock : ℕ → ℕ) (snapListing : List SnapName) (snapshots : SnapDir)
    (walListing latestListing : List WalName) (dir : WalDir) : Except Abort GlobalLedger := do
  let recovered ← recover codec snapListing snapshots walListing dir
  let wal ← RollingWal.new clock latestListing (recovered.2 + 1) dir
  .ok { accounts := recovered.1, wal := some wal, lastSeq := recovered.2, listener := none }

end GlobalLedger

/-! ## Sessions -/

/-- A ledger at work. -/
structure LedgerSystem where
  ledger : GlobalLedger
  snapshots : SnapDir
  /-- Snapshots that were triggered and are not yet on disk. -/
  pending : List LedgerSnapshot

/-- What happens in a session. -/
inductive LedgerOp
  | apply (cmd : LedgerCommand)
  | commitBatch (cmds : List LedgerCommand)
  /-- `trigger_snapshot` copies the state. -/
  | triggerSnapshot
  /-- Its thread writes one of the copies, lists the directory and deletes old snapshots. -/
  | completeSnapshot (index : ℕ) (listing : List SnapName)
  /-- The thread spawned by a rotation lists the directory and deletes old segments. -/
  | cleanup (listing : List WalName)

namespace LedgerSystem

variable (codec : LedgerCodec) (clock : ℕ → ℕ)

/-- The log directory. -/
def walDir (s : LedgerSystem) : WalDir := s.ledger.wal.elim HashMap.empty RollingWal.dir

/-- The snapshots a cleanup deletes: all but the first three by descending number. -/
def oldSnapshots (listing : List SnapName) : List SnapName :=
  (listing.insertionSort (fun a b => b.seq ≤ a.seq)).drop snapshotRetention

/-- The snapshot directory once a snapshot is written. -/
def withSnapshot (snap : LedgerSnapshot) (dir : SnapDir) : SnapDir :=
  let bytes := codec.serializeSnapshot snap
  dir.insert ⟨snap.lastSeq, codec.md5 bytes⟩ bytes

/-- A step of the session. -/
def step (s : LedgerSystem) : LedgerOp → LedgerSystem × Except Abort Unit
  | .apply cmd =>
      let r := GlobalLedger.apply codec clock cmd s.ledger
      ({ s with ledger := r.2 }, r.1)
  | .commitBatch cmds =>
      let r := GlobalLedger.commitBatch codec clock cmds s.ledger
      ({ s with ledger := r.2 }, r.1)
  | .triggerSnapshot =>
      ({ s with pending := s.pending ++ [⟨s.ledger.lastSeq, s.ledger.accounts⟩] }, .ok ())
  | .completeSnapshot index listing =>
      match s.pending[index]? with
      | none => (s, .ok ())
      | some snap =>
          ({ s with
            snapshots :=
              (oldSnapshots listing).foldl HashMap.erase (withSnapshot codec snap s.snapshots)
            pending := s.pending.eraseIdx index }, .ok ())
  | .cleanup listing =>
      ({ s with ledger := { s.ledger with
          wal := s.ledger.wal.map (fun wal =>
            { wal with dir := RollingWal.cleanupOldWals listing wal.dir }) } }, .ok ())

/-- The session as a machine. -/
def machine : Machine LedgerSystem LedgerOp (Except Abort Unit) where
  step := step codec clock

/-- A session on empty directories. -/
def start : LedgerSystem where
  ledger :=
    { accounts := HashMap.empty
      wal := some
        { dir := HashMap.empty.insert ⟨1, []⟩ (Image.zeroed walMaxSize)
          currentPath := ⟨1, []⟩
          currentSegment := WalSegment.create none
          lastRollTime := clock 0
          ticks := 1 }
      lastSeq := 0
      listener := none }
  snapshots := HashMap.empty
  pending := []

end LedgerSystem

/-! ## Replaying a history -/

namespace GlobalLedger

open Fallible

/-- Commands as records, numbered from `n` on. -/
def number : ℕ → List LedgerCommand → List WalRecord
  | _, [] => []
  | n, cmd :: cmds => (UInt64.ofNat n, cmd) :: number (n + 1) cmds

lemma number_append (n : ℕ) (cmds cmds' : List LedgerCommand) :
    number n (cmds ++ cmds') = number n cmds ++ number (n + cmds.length) cmds' := by
  induction cmds generalizing n with
  | nil => rfl
  | cons cmd cmds ih =>
      rw [List.cons_append, number, number, ih, List.cons_append, List.length_cons,
        Nat.add_right_comm, Nat.add_assoc]

@[simp] lemma length_number (n : ℕ) (cmds : List LedgerCommand) :
    (number n cmds).length = cmds.length := by
  induction cmds generalizing n with
  | nil => rfl
  | cons cmd cmds ih => rw [number, List.length_cons, List.length_cons, ih]

lemma number_drop (n k : ℕ) (cmds : List LedgerCommand) :
    (number n cmds).drop k = number (n + k) (cmds.drop k) := by
  induction k generalizing n cmds with
  | zero => rfl
  | succ k ih =>
      cases cmds with
      | nil => rfl
      | cons cmd cmds =>
          rw [number, List.drop_succ_cons, List.drop_succ_cons, ih, Nat.add_right_comm,
            Nat.add_assoc]

lemma getElem?_number (n i : ℕ) (cmds : List LedgerCommand) :
    (number n cmds)[i]? = cmds[i]?.map (fun cmd => (UInt64.ofNat (n + i), cmd)) := by
  induction cmds generalizing n i with
  | nil => rfl
  | cons cmd cmds ih =>
      cases i with
      | zero => rfl
      | succ i =>
          rw [number, List.getElem?_cons_succ, List.getElem?_cons_succ, ih, Nat.add_right_comm,
            Nat.add_assoc]

/-- Records the snapshot has are skipped. -/
lemma replay_skip {n : ℕ} {cmds : List LedgerCommand} {rs : List WalRecord} {accounts : Accounts}
    {recovered : UInt64} (h : n + cmds.length ≤ recovered.toNat + 1) :
    replay (number n cmds ++ rs) accounts recovered = replay rs accounts recovered := by
  induction cmds generalizing n with
  | nil => rfl
  | cons cmd cmds ih =>
      rw [List.length_cons] at h
      have hlt := recovered.toNat_lt
      have hle : UInt64.ofNat n ≤ recovered := by
        rw [UInt64.le_iff_toNat_le, Word.toNat_ofNat_of_lt (by omega)]
        omega
      rw [number, List.cons_append, replay, if_pos hle]
      exact ih (by omega)

lemma not_ofNat_succ_le {n : ℕ} (h : n + 1 < 2 ^ 64) :
    ¬UInt64.ofNat (n + 1) ≤ UInt64.ofNat n := by
  rw [UInt64.le_iff_toNat_le, Word.toNat_ofNat_of_lt h, Word.toNat_ofNat_of_lt (by omega)]
  omega

/-- The following records are executed. -/
lemma replay_number {n : ℕ} {cmds : List LedgerCommand} {accounts accounts' : Accounts}
    (hn : n + cmds.length < 2 ^ 64) (h : applyTransactions cmds accounts = (.ok (), accounts'))
    (rs : List WalRecord) :
    replay (number (n + 1) cmds ++ rs) accounts (UInt64.ofNat n) =
      replay rs accounts' (UInt64.ofNat (n + cmds.length)) := by
  induction cmds generalizing n accounts with
  | nil =>
      rw [applyTransactions] at h
      obtain rfl : accounts = accounts' := congrArg Prod.snd h
      rfl
  | cons cmd cmds ih =>
      rw [List.length_cons] at hn
      rw [applyTransactions_cons] at h
      change Fallible.bind (applyTransaction cmd)
          (fun _ => applyTransactions cmds) accounts = _ at h
      rw [Fallible.bind] at h
      rw [number, List.cons_append, replay, if_neg (not_ofNat_succ_le (by omega)),
        if_neg (by rw [UInt64.ofNat_add]; simp)]
      split at h
      · rename_i _ accounts₁ hcmd
        rw [hcmd]
        dsimp only
        rw [ih (by omega) h, List.length_cons]
        exact congrArg (fun m => replay rs accounts' (UInt64.ofNat m)) (by omega)
      · exact absurd (congrArg Prod.fst h) (by simp)

lemma replay_refused {n : ℕ} {cmd : LedgerCommand} {accounts : Accounts} {e : Abort}
    (hn : n + 1 < 2 ^ 64) (h : (applyTransaction cmd accounts).1 = .error e) :
    replay (number (n + 1) [cmd]) accounts (UInt64.ofNat n) = .error e := by
  obtain ⟨accounts', hcmd⟩ : ∃ accounts', applyTransaction cmd accounts = (.error e, accounts') :=
    ⟨_, Prod.ext h rfl⟩
  rw [number, replay, if_neg (not_ofNat_succ_le hn), if_neg (by rw [UInt64.ofNat_add]; simp), hcmd]

/-- A history applied in two parts. -/
lemma applyTransactions_drop {history : List LedgerCommand}
    {accounts accounts₁ accounts₂ : Accounts}
    (n : ℕ) (htake : applyTransactions (history.take n) accounts = (.ok (), accounts₁))
    (hall : applyTransactions history accounts = (.ok (), accounts₂)) :
    applyTransactions (history.drop n) accounts₁ = (.ok (), accounts₂) := by
  rw [← List.take_append_drop n history, applyTransactions_append] at hall
  change Fallible.bind (applyTransactions (history.take n)) _ accounts = _ at hall
  rw [Fallible.bind, htake] at hall
  exact hall

lemma applyTransactions_concat {history cmds : List LedgerCommand}
    {accounts accounts₁ accounts₂ : Accounts}
    (h : applyTransactions history accounts = (.ok (), accounts₁))
    (h' : applyTransactions cmds accounts₁ = (.ok (), accounts₂)) :
    applyTransactions (history ++ cmds) accounts = (.ok (), accounts₂) := by
  rw [applyTransactions_append, Fallible.bind_of_ok h]
  exact h'

/-! ## The latest snapshot -/

lemma findLatestSnapshot_foldl (listing : List SnapName) (found : Option SnapName) :
    ∃ latest, listing.foldl (fun found name =>
        if (found.elim 0 SnapName.seq) < name.seq then some name else found) found = latest ∧
      (latest = found ∨ ∃ name ∈ listing, latest = some name ∧ 0 < name.seq) ∧
      found.elim 0 SnapName.seq ≤ latest.elim 0 SnapName.seq ∧
      ∀ name ∈ listing, name.seq ≤ latest.elim 0 SnapName.seq := by
  induction listing generalizing found with
  | nil => exact ⟨found, rfl, .inl rfl, le_rfl, fun name hname => absurd hname List.not_mem_nil⟩
  | cons first listing ih =>
      rw [List.foldl_cons]
      by_cases hlt : found.elim 0 SnapName.seq < first.seq
      · rw [if_pos hlt]
        obtain ⟨latest, hrun, hcase, hle, hall⟩ := ih (some first)
        refine ⟨latest, hrun, .inr ?_, hlt.le.trans hle, ?_⟩
        · rcases hcase with rfl | ⟨name, hname, hlatest, hpos⟩
          · refine ⟨first, List.mem_cons_self, rfl, lt_of_le_of_lt ?_ hlt⟩
            rw [UInt64.le_iff_toNat_le]
            exact Nat.zero_le _
          · exact ⟨name, List.mem_cons_of_mem _ hname, hlatest, hpos⟩
        · rw [List.forall_mem_cons]
          exact ⟨hle, hall⟩
      · rw [if_neg hlt]
        obtain ⟨latest, hrun, hcase, hle, hall⟩ := ih found
        refine ⟨latest, hrun, ?_, hle, ?_⟩
        · rcases hcase with rfl | ⟨name, hname, hlatest, hpos⟩
          · exact .inl rfl
          · exact .inr ⟨name, List.mem_cons_of_mem _ hname, hlatest, hpos⟩
        · rw [List.forall_mem_cons]
          exact ⟨(not_lt.mp hlt).trans hle, hall⟩

lemma findLatestSnapshot_spec (listing : List SnapName) :
    (findLatestSnapshot listing = none ∧ ∀ name ∈ listing, name.seq = 0) ∨
      ∃ latest ∈ listing, findLatestSnapshot listing = some latest ∧
        ∀ name ∈ listing, name.seq ≤ latest.seq := by
  obtain ⟨latest, hrun, hcase, -, hall⟩ := findLatestSnapshot_foldl listing none
  rcases hcase with rfl | ⟨name, hname, rfl, hpos⟩
  · refine .inl ⟨hrun, fun name hname => ?_⟩
    have hzero := UInt64.le_iff_toNat_le.mp (hall name hname)
    exact UInt64.toNat.inj (Nat.le_zero.mp hzero)
  · exact .inr ⟨name, hname, hrun, hall⟩

end GlobalLedger

/-! ## What the directories hold -/

namespace LedgerSystem

open SegmentedLog (entries Unambiguous)
open GlobalLedger (applyTransactions number)

/-- A snapshot of the state after part of the history, from which the log can be read on. -/
structure Faithful (codec : LedgerCodec) (history : List LedgerCommand)
    (segs : List (LogSegment WalName WalRecord)) (snap : LedgerSnapshot) : Prop where
  le : snap.lastSeq.toNat ≤ history.length
  accounts : applyTransactions (history.take snap.lastSeq.toNat) HashMap.empty =
    (.ok (), snap.accounts)
  unambiguous : Unambiguous snap.lastSeq.toNat segs
  roundTrips : codec.deserializeSnapshot (codec.serializeSnapshot snap) = .ok snap

/-- The log has the commands of `history`, but for the first `d`. -/
structure Logged (codec : LedgerCodec) (history : List LedgerCommand) (d : ℕ)
    (closed : List (LogSegment WalName WalRecord)) (cur : LogSegment WalName WalRecord)
    (wal : RollingWal) : Prop where
  tracks : RollingWal.Tracks codec d closed cur wal
  settled : RollingWal.Settled closed cur
  entries : entries (closed ++ [cur]) = number (d + 1) (history.drop d)
  le : d ≤ history.length

/-- The state and the directories of a session in which `history` was applied. -/
structure Recorded (codec : LedgerCodec) (history : List LedgerCommand) (d : ℕ)
    (closed : List (LogSegment WalName WalRecord)) (cur : LogSegment WalName WalRecord)
    (wal : RollingWal) (s : LedgerSystem) : Prop where
  current : s.ledger.wal = some wal
  log : Logged codec history d closed cur wal
  accounts : applyTransactions history HashMap.empty = (.ok (), s.ledger.accounts)
  lastSeq : s.ledger.lastSeq.toNat = history.length
  listener : s.ledger.listener = none
  snapshots : ∀ name bytes, s.snapshots.get? name = some bytes → ∃ snap,
    Faithful codec history (closed ++ [cur]) snap ∧ bytes = codec.serializeSnapshot snap ∧
      name = ⟨snap.lastSeq, codec.md5 bytes⟩
  pending : ∀ snap ∈ s.pending, Faithful codec history (closed ++ [cur]) snap
  /-- What the log has lost, a snapshot has. -/
  covered : d = 0 ∨ ∃ name, (s.snapshots.get? name).isSome ∧ d ≤ name.seq.toNat

variable {codec : LedgerCodec} {clock : ℕ → ℕ} {history : List LedgerCommand} {d : ℕ}
  {closed : List (LogSegment WalName WalRecord)} {cur : LogSegment WalName WalRecord}
  {wal : RollingWal} {s : LedgerSystem}

lemma Logged.next (h : Logged codec history d closed cur wal) :
    cur.start + cur.entries.length = history.length + 1 := by
  have hlen := congrArg List.length h.entries
  rw [SegmentedLog.entries_append, List.length_append, GlobalLedger.length_number,
    List.length_drop, SegmentedLog.entries_cons, SegmentedLog.entries_nil, List.append_nil] at hlen
  have hstart := h.tracks.start
  have hle := h.le
  omega

/-- With nothing executed, a snapshot is the empty ledger; no segment starts at zero. -/
lemma Logged.unambiguous_zero (h : Logged codec history d closed cur wal) :
    Unambiguous 0 (closed ++ [cur]) := by
  intro a ha b _ _ _ hle
  rcases List.mem_append.mp ha with ha | ha
  · have := h.tracks.positive a ha
    omega
  · rw [List.mem_singleton.mp ha, h.tracks.start] at hle
    omega

/-- The state a restart loads: a part of the history the log continues. -/
lemma Recorded.loadSnapshot (h : Recorded codec history d closed cur wal s)
    {listing : List SnapName} (hlists : s.snapshots.Lists listing) :
    ∃ accounts seq, GlobalLedger.loadSnapshot codec listing s.snapshots = .ok (accounts, seq) ∧
      d ≤ seq.toNat ∧ seq.toNat ≤ history.length ∧
      applyTransactions (history.take seq.toNat) HashMap.empty = (.ok (), accounts) ∧
      Unambiguous seq.toNat (closed ++ [cur]) := by
  rcases GlobalLedger.findLatestSnapshot_spec listing with ⟨hnone, hzero⟩ |
    ⟨latest, hmem, hsome, hmax⟩
  · refine ⟨HashMap.empty, 0, ?_, ?_, Nat.zero_le _, ?_, h.log.unambiguous_zero⟩
    · rw [GlobalLedger.loadSnapshot, hnone]
    · rcases h.covered with hd | ⟨name, hname, hd⟩
      · exact Nat.le_of_eq hd
      · rwa [hzero name ((hlists.mem_iff name).mpr hname)] at hd
    · show applyTransactions (history.take 0) HashMap.empty = _
      rw [List.take_zero, applyTransactions]
      rfl
  · obtain ⟨bytes, hget⟩ := Option.isSome_iff_exists.mp ((hlists.mem_iff latest).mp hmem)
    obtain ⟨snap, hsnap, rfl, rfl⟩ := h.snapshots latest bytes hget
    refine ⟨snap.accounts, snap.lastSeq, ?_, ?_, hsnap.le, hsnap.accounts, hsnap.unambiguous⟩
    · rw [GlobalLedger.loadSnapshot, hsome]
      dsimp only
      rw [hget]
      dsimp only
      rw [hsnap.roundTrips]
      simp
    · rcases h.covered with hd | ⟨name, hname, hd⟩
      · omega
      · exact hd.trans (UInt64.le_iff_toNat_le.mp (hmax name ((hlists.mem_iff name).mpr hname)))

/-- What is read from a part of the history on: records of that part, then the rest. -/
lemma Logged.replayIter (h : Logged codec history d closed cur wal) {listing : List WalName}
    (hlists : wal.dir.Lists listing) {seq : UInt64}
    (hclear : Unambiguous seq.toNat (closed ++ [cur]))
    (hd : d ≤ seq.toNat) (hle : seq.toNat ≤ history.length) :
    ∃ n skipped, n + skipped.length ≤ seq.toNat + 1 ∧
      RollingWal.replayIter codec listing seq wal.dir =
        (number n skipped ++ number (seq.toNat + 1) (history.drop seq.toNat), none) := by
  obtain ⟨k, hk, hreplay⟩ := RollingWal.replayIter_eq h.tracks.dir
    (h.tracks.wellFormed h.settled) hlists hclear hd
  refine ⟨d + 1 + k, (history.drop (d + k)).take (seq.toNat - (d + k)), ?_, ?_⟩
  · rw [List.length_take]
    omega
  · have hseq : d + k + (seq.toNat - (d + k)) = seq.toNat := by omega
    have hstart : d + 1 + k + min (seq.toNat - (d + k)) (history.length - (d + k)) =
        seq.toNat + 1 := by omega
    rw [hreplay, h.entries, GlobalLedger.number_drop, List.drop_drop,
      ← List.take_append_drop (seq.toNat - (d + k)) (history.drop (d + k)),
      GlobalLedger.number_append, List.take_append_drop, List.drop_drop, List.length_take,
      List.length_drop, hseq, hstart]

/-- What `GlobalLedger::new` makes of a snapshot and the records read after it. -/
lemma recover_eq {snapListing : List SnapName} {walListing : List WalName} {snapshots : SnapDir}
    {dir : WalDir} {accounts : Accounts} {seq : UInt64} {rs : List WalRecord}
    (hload : GlobalLedger.loadSnapshot codec snapListing snapshots = .ok (accounts, seq))
    (hreplay : RollingWal.replayIter codec walListing seq dir = (rs, none)) :
    GlobalLedger.recover codec snapListing snapshots walListing dir =
      GlobalLedger.replay rs accounts seq := by
  rw [GlobalLedger.recover, hload]
  show (do
    let recovered ← GlobalLedger.replay (RollingWal.replayIter codec walListing seq dir).1
      accounts seq
    match (RollingWal.replayIter codec walListing seq dir).2 with
    | some e => .error e
    | none => .ok recovered) = _
  rw [hreplay]
  cases GlobalLedger.replay rs accounts seq <;> rfl

lemma Recorded.walDir (h : Recorded codec history d closed cur wal s) : s.walDir = wal.dir := by
  rw [LedgerSystem.walDir, h.current, Option.elim_some]

/-- **Recovery**: however the directories are listed, the latest snapshot and the log give the live
state. -/
lemma Recorded.recover (h : Recorded codec history d closed cur wal s)
    {snapListing : List SnapName} {walListing : List WalName}
    (hsnaps : s.snapshots.Lists snapListing) (hwals : s.walDir.Lists walListing) :
    GlobalLedger.recover codec snapListing s.snapshots walListing s.walDir =
      .ok (s.ledger.accounts, s.ledger.lastSeq) := by
  rw [h.walDir] at hwals ⊢
  obtain ⟨accounts, seq, hload, hd, hle, htake, hclear⟩ := h.loadSnapshot hsnaps
  obtain ⟨n, skipped, hskip, hreplay⟩ := h.log.replayIter hwals hclear hd hle
  have hlast := h.lastSeq
  have hbound := s.ledger.lastSeq.toNat_lt
  have hrest := GlobalLedger.replay_number (n := seq.toNat) (by rw [List.length_drop]; omega)
    (GlobalLedger.applyTransactions_drop seq.toNat htake h.accounts) []
  rw [UInt64.ofNat_toNat, List.length_drop, Nat.add_sub_of_le hle, ← hlast, UInt64.ofNat_toNat,
    List.append_nil] at hrest
  rw [recover_eq hload hreplay, GlobalLedger.replay_skip hskip, hrest, GlobalLedger.replay]

/-! ## Steps -/

/-- A command the reader can take back from the log. -/
def Writable (codec : LedgerCodec) (cmd : LedgerCommand) : Prop :=
  codec.dataLen cmd ≤ maxRecordSize ∧ codec.RoundTrips cmd

lemma Logged.append (h : Logged codec history d closed cur wal) {cmd : LedgerCommand}
    (hcmd : Writable codec cmd) (hlt : history.length + 1 < 2 ^ 64) (clock : ℕ → ℕ) :
    ∃ closed' cur' wal',
      RollingWal.append codec clock (UInt64.ofNat (history.length + 1), cmd) wal = (.ok (), wal') ∧
      Logged codec (history ++ [cmd]) d closed' cur' wal' ∧
      ∀ n ≤ history.length, Unambiguous n (closed ++ [cur]) →
        Unambiguous n (closed' ++ [cur']) := by
  have hseq : (UInt64.ofNat (history.length + 1)).toNat = cur.start + cur.entries.length := by
    rw [Word.toNat_ofNat_of_lt hlt, h.next]
  obtain ⟨hok, closed', cur', hext⟩ := RollingWal.Tracks.append
    (r := (UInt64.ofNat (history.length + 1), cmd)) clock h.tracks h.settled hcmd hseq
  refine ⟨closed', cur', _, Prod.ext hok rfl, ⟨hext.tracks, hext.settled, ?_, ?_⟩, ?_⟩
  · have hle := h.le
    rw [hext.entries, h.entries, List.drop_append_of_le_length h.le, GlobalLedger.number_append,
      List.length_drop, Nat.add_right_comm, Nat.add_sub_of_le h.le]
    rfl
  · rw [List.length_append]
    exact h.le.trans (Nat.le_add_right _ _)
  · intro n hn hclear
    refine hext.unambiguous n ?_ hclear
    show n < (UInt64.ofNat (history.length + 1)).toNat
    rw [Word.toNat_ofNat_of_lt hlt]
    exact Nat.lt_succ_of_le hn

lemma Logged.appendToWal {cmds : List LedgerCommand} {ledger : GlobalLedger}
    (h : Logged codec history d closed cur wal) (hwal : ledger.wal = some wal)
    (hlast : ledger.lastSeq.toNat = history.length) (hcmds : ∀ cmd ∈ cmds, Writable codec cmd)
    (hlt : history.length + cmds.length < 2 ^ 64) (clock : ℕ → ℕ) :
    (GlobalLedger.appendToWal codec clock cmds ledger).1 = .ok () ∧
      ∃ closed' cur' wal', (GlobalLedger.appendToWal codec clock cmds ledger).2.wal = some wal' ∧
        (GlobalLedger.appendToWal codec clock cmds ledger).2.lastSeq.toNat =
          history.length + cmds.length ∧
        Logged codec (history ++ cmds) d closed' cur' wal' ∧
        ∀ n ≤ history.length, Unambiguous n (closed ++ [cur]) →
          Unambiguous n (closed' ++ [cur']) := by
  induction cmds generalizing history closed cur wal ledger with
  | nil =>
      refine ⟨rfl, closed, cur, wal, hwal, hlast, ?_, fun _ _ hclear => hclear⟩
      rwa [List.append_nil]
  | cons cmd cmds ih =>
      rw [List.forall_mem_cons] at hcmds
      rw [List.length_cons] at hlt
      obtain ⟨closed₁, cur₁, wal₁, happend, hlogged, hclear⟩ :=
        h.append hcmds.1 (by omega) clock
      have hseq : ledger.lastSeq + 1 = UInt64.ofNat (history.length + 1) :=
        Word.add_one_eq_ofNat hlast
      have hlast₁ : (ledger.lastSeq + 1).toNat = (history ++ [cmd]).length := by
        rw [hseq, Word.toNat_ofNat_of_lt (by omega), List.length_append, List.length_singleton]
      rw [GlobalLedger.appendToWal_cons codec clock cmd cmds hwal, hseq, happend]
      obtain ⟨hok, closed', cur', wal', hwal', hlast', hlogged', hclear'⟩ :=
        ih hlogged (show ({ ledger with wal := some wal₁, lastSeq := ledger.lastSeq + 1 } :
          GlobalLedger).wal = some wal₁ from rfl) hlast₁ hcmds.2
          (by rw [List.length_append, List.length_singleton]; omega)
      rw [← hseq]
      refine ⟨hok, closed', cur', wal', hwal', ?_, ?_, ?_⟩
      · rw [hlast', List.length_append, List.length_singleton, List.length_cons]
        omega
      · rwa [List.append_assoc, List.singleton_append] at hlogged'
      · intro n hn hn'
        refine hclear' n ?_ (hclear n hn hn')
        rw [List.length_append]
        omega

/-- More history does not change what a snapshot is. -/
lemma Faithful.extend {snap : LedgerSnapshot} {segs segs' : List (LogSegment WalName WalRecord)}
    (h : Faithful codec history segs snap) (cmds : List LedgerCommand)
    (hclear : ∀ n ≤ history.length, Unambiguous n segs → Unambiguous n segs') :
    Faithful codec (history ++ cmds) segs' snap where
  le := by
    rw [List.length_append]
    exact h.le.trans (Nat.le_add_right _ _)
  accounts := by
    rw [List.take_append_of_le_length h.le]
    exact h.accounts
  unambiguous := hclear _ h.le h.unambiguous
  roundTrips := h.roundTrips

/-- The commands of a call are applied and logged. -/
lemma Recorded.extend (h : Recorded codec history d closed cur wal s) {cmds : List LedgerCommand}
    {closed' : List (LogSegment WalName WalRecord)} {cur' : LogSegment WalName WalRecord}
    {wal' : RollingWal} {ledger : GlobalLedger}
    (haccounts : applyTransactions cmds s.ledger.accounts = (.ok (), ledger.accounts))
    (hwal : ledger.wal = some wal')
    (hlast : ledger.lastSeq.toNat = history.length + cmds.length)
    (hlistener : ledger.listener = none)
    (hlogged : Logged codec (history ++ cmds) d closed' cur' wal')
    (hclear : ∀ n ≤ history.length, Unambiguous n (closed ++ [cur]) →
      Unambiguous n (closed' ++ [cur'])) :
    Recorded codec (history ++ cmds) d closed' cur' wal' { s with ledger := ledger } where
  current := hwal
  log := hlogged
  accounts := GlobalLedger.applyTransactions_concat h.accounts haccounts
  lastSeq := by rw [hlast, List.length_append]
  listener := hlistener
  snapshots name bytes hget := by
    obtain ⟨snap, hsnap, hbytes, hname⟩ := h.snapshots name bytes hget
    exact ⟨snap, hsnap.extend cmds hclear, hbytes, hname⟩
  pending snap hsnap := (h.pending snap hsnap).extend cmds hclear
  covered := h.covered

/-- Another file of the log directory is named by the number the current segment starts with. -/
def SharesStart (s : LedgerSystem) : Prop :=
  ∃ wal ∈ s.ledger.wal, ∃ name ∈ wal.dir.keys,
    name ≠ wal.currentPath ∧ name.startSeq = wal.currentPath.startSeq

/-- Every record in a segment that is deleted is in a completed snapshot. -/
def Covers (codec : LedgerCodec) (s : LedgerSystem) (listing : List WalName) : Prop :=
  ∀ name ∈ RollingWal.oldWals listing, ∀ file ∈ s.walDir.get? name,
    ∀ r ∈ (WalIterator.readAll codec file).1, ∃ snap ∈ s.snapshots.keys, r.1 ≤ snap.seq

/-- The steps that keep the directories sound. -/
def Orderly (codec : LedgerCodec) (s : LedgerSystem) : LedgerOp → Prop
  | .apply cmd => Writable codec cmd ∧ s.ledger.lastSeq.toNat + 1 < 2 ^ 64 ∧
      (GlobalLedger.applyTransaction cmd s.ledger.accounts).1 = .ok ()
  | .commitBatch cmds => (∀ cmd ∈ cmds, Writable codec cmd) ∧
      s.ledger.lastSeq.toNat + cmds.length < 2 ^ 64 ∧
      (applyTransactions cmds s.ledger.accounts).1 = .ok ()
  | .triggerSnapshot =>
      codec.deserializeSnapshot
          (codec.serializeSnapshot ⟨s.ledger.lastSeq, s.ledger.accounts⟩) =
        .ok ⟨s.ledger.lastSeq, s.ledger.accounts⟩ ∧
      (s.ledger.lastSeq = 0 ∨ ¬s.SharesStart)
  | .completeSnapshot index listing =>
      ∀ snap ∈ s.pending[index]?, (withSnapshot codec snap s.snapshots).Lists listing
  | .cleanup listing => s.walDir.Lists listing ∧ s.Covers codec listing

/-- Some history is recorded. -/
def Sound (codec : LedgerCodec) (s : LedgerSystem) : Prop :=
  ∃ history d closed cur wal, Recorded codec history d closed cur wal s

lemma apply_append {ledger : GlobalLedger} {cmd : LedgerCommand} {wal wal' : RollingWal}
    (hwal : ledger.wal = some wal) (hlistener : ledger.listener = none)
    (happend : RollingWal.append codec clock (ledger.lastSeq + 1, cmd) wal = (.ok (), wal')) :
    GlobalLedger.apply codec clock cmd ledger =
      match GlobalLedger.applyTransaction cmd ledger.accounts with
      | (.ok (), accounts) => (.ok (), ⟨accounts, some wal', ledger.lastSeq + 1, none⟩)
      | (.error e, accounts) => (.error e, ⟨accounts, some wal', ledger.lastSeq, none⟩) := by
  rw [GlobalLedger.apply]
  show Fallible.bind (GlobalLedger.appendRecord codec clock (ledger.lastSeq + 1, cmd)) _ ledger = _
  rw [Fallible.bind, GlobalLedger.appendRecord, hwal]
  dsimp only
  rw [happend]
  show Fallible.bind (GlobalLedger.onAccounts _) _ _ = _
  rw [Fallible.bind, GlobalLedger.onAccounts]
  dsimp only
  rcases GlobalLedger.applyTransaction cmd ledger.accounts with ⟨_ | _, accounts⟩
  · rw [hlistener]
  · show Fallible.bind (GlobalLedger.notify _) _ _ = _
    rw [Fallible.bind, GlobalLedger.notify]
    dsimp only
    rw [hlistener]
    rfl

lemma Recorded.apply (h : Recorded codec history d closed cur wal s) {cmd : LedgerCommand}
    (hop : Orderly codec s (.apply cmd)) (clock : ℕ → ℕ) :
    Sound codec (step codec clock s (.apply cmd)).1 ∧
      (step codec clock s (.apply cmd)).2 = .ok () := by
  obtain ⟨hwritable, hlt, hok⟩ := hop
  rw [h.lastSeq] at hlt
  obtain ⟨accounts, hcmd⟩ : ∃ accounts,
      GlobalLedger.applyTransaction cmd s.ledger.accounts = (.ok (), accounts) :=
    ⟨_, Prod.ext hok rfl⟩
  obtain ⟨closed', cur', wal', happend, hlogged, hclear⟩ := h.log.append hwritable hlt clock
  have hseq : s.ledger.lastSeq + 1 = UInt64.ofNat (history.length + 1) :=
    Word.add_one_eq_ofNat h.lastSeq
  rw [← hseq] at happend
  have hrun := apply_append h.current h.listener happend
  rw [hcmd] at hrun
  simp only [step, hrun, and_true]
  refine ⟨history ++ [cmd], d, closed', cur', wal', h.extend ?_ rfl ?_ rfl hlogged hclear⟩
  · rw [GlobalLedger.applyTransactions_singleton]
    exact hcmd
  · rw [hseq, Word.toNat_ofNat_of_lt hlt]
    rfl

lemma Recorded.commitBatch (h : Recorded codec history d closed cur wal s)
    {cmds : List LedgerCommand} (hop : Orderly codec s (.commitBatch cmds)) (clock : ℕ → ℕ) :
    Sound codec (step codec clock s (.commitBatch cmds)).1 ∧
      (step codec clock s (.commitBatch cmds)).2 = .ok () := by
  obtain ⟨hwritable, hlt, hok⟩ := hop
  rw [h.lastSeq] at hlt
  obtain ⟨accounts, hcmds⟩ : ∃ accounts,
      applyTransactions cmds s.ledger.accounts = (.ok (), accounts) := ⟨_, Prod.ext hok rfl⟩
  obtain ⟨hwal, closed', cur', wal', hcur, hlast, hlogged, hclear⟩ :=
    h.log.appendToWal h.current h.lastSeq hwritable hlt clock
  have hrun := GlobalLedger.commitBatch_of_ok codec clock hcmds hwal (by simp [h.listener])
  have hlistener := (GlobalLedger.appendToWal_keeps codec clock cmds s.ledger).2
  simp only [step, hrun, and_true]
  exact ⟨history ++ cmds, d, closed', cur', wal',
    h.extend hcmds hcur hlast (hlistener.trans h.listener) hlogged hclear⟩

lemma Recorded.triggerSnapshot (h : Recorded codec history d closed cur wal s)
    (hop : Orderly codec s .triggerSnapshot) (clock : ℕ → ℕ) :
    Sound codec (step codec clock s .triggerSnapshot).1 := by
  obtain ⟨hround, hshares⟩ := hop
  have hclear : Unambiguous s.ledger.lastSeq.toNat (closed ++ [cur]) := by
    rcases hshares with hzero | hshares
    · rw [hzero]
      exact h.log.unambiguous_zero
    · intro a ha b hb hne heq hle
      -- The current segment is not one of the two, so it starts behind them.
      have hother : ∀ {x : LogSegment WalName WalRecord}, x ∈ closed → x.start ≠ cur.start := by
        intro x hx hstart
        refine hshares ⟨wal, h.current, x.key, ?_, ?_, ?_⟩
        · obtain ⟨file, hget, -⟩ := h.log.tracks.dir.stored x (List.mem_append_left _ hx)
          rw [HashMap.mem_keys, hget]
          rfl
        · rw [← h.log.tracks.path]
          exact fun hkey => h.log.tracks.key (hkey ▸ List.mem_map_of_mem hx)
        · have hx' := h.log.tracks.dir.named x (List.mem_append_left _ hx)
          have hcur' := h.log.tracks.dir.named cur (by simp)
          rw [← h.log.tracks.path]
          exact UInt64.toNat.inj (by rw [← hx', ← hcur', hstart])
      have hclosed : a ∈ closed := by
        rcases List.mem_append.mp ha with ha | ha
        · exact ha
        · rcases List.mem_append.mp hb with hb | hb
          · exact absurd (heq.symm.trans (by rw [List.mem_singleton.mp ha])) (hother hb)
          · rw [List.mem_singleton.mp ha, List.mem_singleton.mp hb] at hne
            exact absurd rfl hne
      have hnonempty := List.length_pos_of_ne_nil (h.log.settled (List.ne_nil_of_mem hclosed))
      have hnext := h.log.next
      refine ⟨cur, by simp, lt_of_le_of_ne (h.log.tracks.sorted a hclosed) (hother hclosed), ?_⟩
      rw [h.lastSeq]
      omega
  refine ⟨history, d, closed, cur, wal, h.current, h.log, h.accounts, h.lastSeq, h.listener,
    h.snapshots, ?_, h.covered⟩
  intro snap hsnap
  rcases List.mem_append.mp hsnap with hsnap | hsnap
  · exact h.pending snap hsnap
  · rw [List.mem_singleton.mp hsnap]
    refine ⟨Nat.le_of_eq h.lastSeq, ?_, hclear, hround⟩
    show applyTransactions (history.take s.ledger.lastSeq.toNat) _ = _
    rw [h.lastSeq, List.take_length]
    exact h.accounts

/-- Among the snapshots that are kept is one with the largest number. -/
lemma exists_kept {dir : SnapDir} {listing : List SnapName} (hlists : dir.Lists listing)
    {name : SnapName} (hname : (dir.get? name).isSome) :
    ∃ kept, (((oldSnapshots listing).foldl HashMap.erase dir).get? kept).isSome ∧
      name.seq ≤ kept.seq := by
  have hperm := List.perm_insertionSort (fun a b : SnapName => b.seq ≤ a.seq) listing
  have hsorted : (listing.insertionSort (fun a b : SnapName => b.seq ≤ a.seq)).Pairwise
      (fun a b => b.seq ≤ a.seq) :=
    @List.pairwise_insertionSort _ (fun a b : SnapName => b.seq ≤ a.seq) _
      ⟨fun a b => le_total b.seq a.seq⟩ ⟨fun a b c hab hbc => le_trans hbc hab⟩ listing
  have hmem := hperm.mem_iff.mpr ((hlists.mem_iff name).mpr hname)
  have hnodup := hperm.nodup_iff.mpr hlists.1
  unfold oldSnapshots
  generalize listing.insertionSort (fun a b : SnapName => b.seq ≤ a.seq) = sorted at *
  cases sorted with
  | nil => exact absurd hmem List.not_mem_nil
  | cons first rest =>
      refine ⟨first, ?_, ?_⟩
      · have hkept : first ∉ (first :: rest).drop snapshotRetention := by
          intro hold
          exact (List.nodup_cons.mp hnodup).1 (List.mem_of_mem_drop (List.mem_of_mem_drop
            (show first ∈ (rest.drop 0).drop 2 from hold)))
        rw [HashMap.get?_foldl_erase, if_neg hkept]
        exact (hlists.mem_iff first).mp (hperm.mem_iff.mp List.mem_cons_self)
      · rcases List.mem_cons.mp hmem with rfl | hmem
        · exact le_rfl
        · exact (List.pairwise_cons.mp hsorted).1 name hmem

/-- A snapshot that is completed, and old ones that are deleted. -/
lemma Recorded.completeSnapshot (h : Recorded codec history d closed cur wal s) {index : ℕ}
    {listing : List SnapName} (hop : Orderly codec s (.completeSnapshot index listing))
    (clock : ℕ → ℕ) : Sound codec (step codec clock s (.completeSnapshot index listing)).1 := by
  cases hget : s.pending[index]? with
  | none =>
      simp only [step, hget]
      exact ⟨history, d, closed, cur, wal, h⟩
  | some snap =>
      have hlists := hop snap hget
      have hsnap := h.pending snap (List.mem_of_getElem? hget)
      simp only [step, hget]
      refine ⟨history, d, closed, cur, wal, h.current, h.log, h.accounts, h.lastSeq, h.listener,
        ?_, ?_, ?_⟩
      · intro name bytes hbytes
        dsimp only at hbytes
        rw [HashMap.get?_foldl_erase] at hbytes
        split at hbytes
        · exact absurd hbytes (by simp)
        · rw [withSnapshot, HashMap.get?_insert] at hbytes
          split at hbytes
          · rename_i hname
            obtain rfl := Option.some.inj hbytes
            exact ⟨snap, hsnap, rfl, hname⟩
          · exact h.snapshots name bytes hbytes
      · intro snap' hsnap'
        exact h.pending snap' (List.mem_of_mem_eraseIdx hsnap')
      · rcases h.covered with hd | ⟨name, hname, hd⟩
        · exact .inl hd
        · have hname' : ((withSnapshot codec snap s.snapshots).get? name).isSome := by
            rw [withSnapshot, HashMap.get?_insert]
            split
            · rfl
            · exact hname
          obtain ⟨kept, hkept, hle⟩ := exists_kept hlists hname'
          exact .inr ⟨kept, hkept, hd.trans (UInt64.le_iff_toNat_le.mp hle)⟩

/-- Segments that are deleted, all of their records in snapshots. -/
lemma Recorded.cleanup (h : Recorded codec history d closed cur wal s) {listing : List WalName}
    (hop : Orderly codec s (.cleanup listing)) (clock : ℕ → ℕ) :
    Sound codec (step codec clock s (.cleanup listing)).1 := by
  obtain ⟨hlists, hcovers⟩ := hop
  have hdir := h.walDir
  rw [hdir] at hlists
  obtain ⟨k, closed', htracks, hsettled, hentries, hlength, hold, hclear⟩ :=
    h.log.tracks.cleanup h.log.settled hlists
  have htotal := congrArg List.length h.log.entries
  rw [GlobalLedger.length_number, List.length_drop] at htotal
  have hk : k ≤ history.length - d := by
    rw [← htotal, ← hlength, List.length_take]
    exact Nat.min_le_right _ _
  have hle := h.log.le
  -- what is left of the log is the history from `d + k` on
  have hrest : SegmentedLog.entries (closed' ++ [cur]) =
      number (d + k + 1) (history.drop (d + k)) := by
    have hdrop := congrArg (List.drop k) hentries
    rw [List.drop_append_of_le_length (Nat.le_of_eq hlength.symm),
      List.drop_of_length_le (Nat.le_of_eq hlength), List.nil_append, h.log.entries,
      GlobalLedger.number_drop, List.drop_drop, Nat.add_right_comm] at hdrop
    exact hdrop.symm
  have hfaithful : ∀ snap, Faithful codec history (closed ++ [cur]) snap →
      Faithful codec history (closed' ++ [cur]) snap :=
    fun snap hsnap => ⟨hsnap.le, hsnap.accounts, hclear _ hsnap.unambiguous, hsnap.roundTrips⟩
  refine ⟨history, d + k, closed', cur, _, ?_, ⟨htracks, hsettled, hrest, by omega⟩, h.accounts,
    h.lastSeq, h.listener, ?_, fun snap hsnap => hfaithful snap (h.pending snap hsnap), ?_⟩
  · simp only [step, h.current, Option.map_some]
  · intro name bytes hget
    obtain ⟨snap, hsnap, hbytes, hname⟩ := h.snapshots name bytes hget
    exact ⟨snap, hfaithful snap hsnap, hbytes, hname⟩
  · -- The last record that is gone has the number `d + k`.
    rcases Nat.eq_zero_or_pos k with rfl | hpos
    · exact h.covered
    · right
      obtain ⟨cmd, hcmd⟩ : ∃ cmd, (history.drop d)[k - 1]? = some cmd :=
        ⟨_, List.getElem?_eq_getElem (by rw [List.length_drop]; omega)⟩
      have hlast : (UInt64.ofNat (d + k), cmd) ∈
          (SegmentedLog.entries (closed ++ [cur])).take k := by
        refine List.mem_of_getElem? (i := k - 1) ?_
        rw [List.getElem?_take_of_lt (by omega), h.log.entries, GlobalLedger.getElem?_number, hcmd]
        exact congrArg (fun n => some (UInt64.ofNat n, cmd)) (by omega)
      obtain ⟨name, hname, file, hfile, hread⟩ := hold _ hlast
      obtain ⟨snap, hsnap, hseq⟩ := hcovers name hname file (by rw [hdir]; exact hfile) _ hread
      refine ⟨snap, (HashMap.mem_keys s.snapshots snap).mp hsnap, ?_⟩
      have hbound := s.ledger.lastSeq.toNat_lt
      have hlen := h.lastSeq
      have hle' := UInt64.le_iff_toNat_le.mp hseq
      rwa [Word.toNat_ofNat_of_lt (by omega)] at hle'

/-- **What an orderly step preserves.** -/
lemma sound_step (h : Sound codec s) {op : LedgerOp} (hop : Orderly codec s op) (clock : ℕ → ℕ) :
    Sound codec ((machine codec clock).step s op).1 := by
  obtain ⟨history, d, closed, cur, wal, h⟩ := h
  cases op with
  | apply cmd => exact (h.apply hop clock).1
  | commitBatch cmds => exact (h.commitBatch hop clock).1
  | triggerSnapshot => exact h.triggerSnapshot hop clock
  | completeSnapshot index listing => exact h.completeSnapshot hop clock
  | cleanup listing => exact h.cleanup hop clock

end LedgerSystem

end ExchangeCore

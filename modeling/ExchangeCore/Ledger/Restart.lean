import ExchangeCore.Ledger.Recovery

/-!
# Restarts of the ledger

What `GlobalLedger::new` gives back after a session.  Its snapshot and replay part restores the live
state along every orderly session (`Sound.restores`), and so does the whole of it where the scan
that looks for the end of the current segment stays within the file (`Sound.reopens`).

Each of the three results below is about one way in which a session is not orderly.  A snapshot that
is taken while two segments have the same start can hide the records behind it; a command that is
refused stays in the log, and refuses the restart; and a cleanup deletes segments whether or not a
snapshot has their records.
-/

namespace ExchangeCore

namespace LedgerSystem

open SegmentedLog (entries Unambiguous)
open GlobalLedger (applyTransactions number)

variable {codec : LedgerCodec} {clock : ℕ → ℕ} {history : List LedgerCommand} {d : ℕ}
  {closed : List (LogSegment WalName WalRecord)} {cur : LogSegment WalName WalRecord}
  {wal : RollingWal} {s : LedgerSystem}

/-! ## A restart of a recorded session -/

/-- The snapshot and the replay of `GlobalLedger::new` give the live state, however the directories
are listed. -/
def Restores (codec : LedgerCodec) (s : LedgerSystem) : Prop :=
  ∀ snapListing walListing, s.snapshots.Lists snapListing → s.walDir.Lists walListing →
    GlobalLedger.recover codec snapListing s.snapshots walListing s.walDir =
      .ok (s.ledger.accounts, s.ledger.lastSeq)

/-- `GlobalLedger::new` succeeds and gives the live state, however the directories are listed. -/
def Reopens (codec : LedgerCodec) (s : LedgerSystem) : Prop :=
  ∀ clock snapListing walListing latestListing, s.snapshots.Lists snapListing →
    s.walDir.Lists walListing → s.walDir.Lists latestListing →
      ∃ ledger, GlobalLedger.new codec clock snapListing s.snapshots walListing latestListing
          s.walDir = .ok ledger ∧
        ledger.accounts = s.ledger.accounts ∧ ledger.lastSeq = s.ledger.lastSeq

/-- The scan of the current segment's file would leave it. -/
def Overruns (s : LedgerSystem) : Prop :=
  ∃ wal ∈ s.ledger.wal, WalSegment.Overruns wal.currentSegment.file

lemma Sound.restores (h : Sound codec s) : Restores codec s := by
  obtain ⟨history, d, closed, cur, wal, h⟩ := h
  intro snapListing walListing hsnaps hwals
  exact h.recover hsnaps hwals

/-- The segment that is resumed is the current one, or an empty one of the same start. -/
lemma Logged.findLatestWal (h : Logged codec history d closed cur wal) {listing : List WalName}
    (hlists : wal.dir.Lists listing) :
    ∃ name file, RollingWal.findLatestWal listing = some name ∧ wal.dir.get? name = some file ∧
      (file = wal.currentSegment.file ∨ file.data = []) := by
  obtain ⟨sorted, hperm, hnames, hpair⟩ :=
    RollingWal.exists_listing h.tracks.dir (h.tracks.wellFormed h.settled).keys hlists
  have hcur : cur ∈ sorted := hperm.mem_iff.mpr (by simp)
  obtain ⟨front, last, rfl⟩ :=
    List.eq_nil_or_concat' sorted |>.resolve_left (List.ne_nil_of_mem hcur)
  have hlast : last ∈ closed ++ [cur] := hperm.mem_iff.mp (by simp)
  obtain ⟨file, hget, hdata, -⟩ := h.tracks.dir.stored last hlast
  refine ⟨last.key, file, ?_, hget, ?_⟩
  · rw [RollingWal.findLatestWal, ← hnames, List.map_append, List.map_singleton,
      List.getLast?_concat]
  · rcases List.mem_append.mp hlast with hclosed | hlast
    · right
      -- Nothing starts behind the current segment.
      have hle : cur.start ≤ last.start := by
        rcases List.mem_append.mp hcur with hfront | hsame
        · exact (List.pairwise_append.mp hpair).2.2 cur hfront last (by simp)
        · rw [List.mem_singleton.mp hsame]
      have hstart := Nat.le_antisymm (h.tracks.sorted last hclosed) hle
      rw [h.tracks.dir.named last (List.mem_append_left _ hclosed),
        h.tracks.dir.named cur (by simp)] at hstart
      rw [hdata, h.tracks.entries_eq_nil_of_key h.settled hclosed (UInt64.toNat.inj hstart)]
      rfl
    · left
      rw [List.mem_singleton.mp hlast, h.tracks.path, h.tracks.file] at hget
      exact (Option.some.inj hget).symm

/-- **A restart**, where the scan of the current segment stays within its file. -/
lemma Sound.reopens (h : Sound codec s) (hscan : ¬s.Overruns) : Reopens codec s := by
  obtain ⟨history, d, closed, cur, wal, h⟩ := h
  intro clock snapListing walListing latestListing hsnaps hwals hlatest
  have hrecover := h.recover hsnaps hwals
  rw [h.walDir] at hrecover hlatest ⊢
  obtain ⟨name, file, hname, hget, hfile⟩ := h.log.findLatestWal hlatest
  obtain ⟨seg, hopen⟩ : ∃ seg, WalSegment.openExisting file = .ok seg := by
    apply WalSegment.openExisting_ok
    rcases hfile with rfl | hempty
    · exact fun hover => hscan ⟨wal, h.current, hover⟩
    · exact WalSegment.not_overruns_of_empty hempty
  have hwal : RollingWal.new clock latestListing (s.ledger.lastSeq + 1) wal.dir =
      .ok ⟨wal.dir, name, seg, clock 0, 1⟩ := by
    rw [RollingWal.new, hname]
    dsimp only
    rw [hget]
    dsimp only
    rw [hopen]
    rfl
  refine ⟨⟨s.ledger.accounts, some ⟨wal.dir, name, seg, clock 0, 1⟩, s.ledger.lastSeq, none⟩,
    ?_, rfl, rfl⟩
  rw [GlobalLedger.new, hrecover]
  show (do
    let wal ← RollingWal.new clock latestListing (s.ledger.lastSeq + 1) wal.dir
    (.ok ⟨s.ledger.accounts, some wal, s.ledger.lastSeq, none⟩ : Except Abort GlobalLedger)) = _
  rw [hwal]
  rfl

/-- A session starts with nothing applied and an empty segment. -/
lemma sound_start (codec : LedgerCodec) (clock : ℕ → ℕ) : Sound codec (start clock) := by
  let cur : LogSegment WalName WalRecord := ⟨⟨1, []⟩, 1, []⟩
  refine ⟨[], 0, [], cur, _, rfl, ⟨?_, ?_, rfl, le_rfl⟩, rfl, rfl, rfl, ?_, ?_, .inl rfl⟩
  · exact {
      wf := ⟨List.nodup_nil, List.Pairwise.nil, trivial, by simp⟩
      key := List.not_mem_nil
      sorted := by simp
      start := rfl
      positive := by simp
      dir := {
        stored := by
          intro seg hseg
          rw [List.mem_singleton.mp hseg]
          -- the one file of the directory is the new segment
          exact ⟨Image.zeroed walMaxSize, by rw [HashMap.get?_insert, if_pos rfl], rfl, rfl⟩
        listed := by
          intro name hsome
          rw [HashMap.get?_insert] at hsome
          split at hsome
          · rename_i hname
            exact ⟨cur, List.mem_singleton_self _, hname.symm⟩
          · exact absurd hsome (by simp)
        named := by
          intro seg hseg
          rw [List.mem_singleton.mp hseg]
          rfl
        readable := by
          intro seg hseg r hr
          rw [List.mem_singleton.mp hseg] at hr
          exact absurd hr List.not_mem_nil }
      path := rfl
      file := by
        rw [HashMap.get?_insert, if_pos rfl]
        rfl
      holds := WalSegment.create_holds
      bare := rfl
      renamed := by simp }
  · exact fun hne => absurd rfl hne
  · intro name bytes hget
    exact absurd hget (by simp [start])
  · intro snap hsnap
    exact absurd hsnap List.not_mem_nil

/-- Along an orderly session the state is recorded. -/
lemma sound_throughout {ops : List LedgerOp}
    (h : (machine codec clock).AllSteps (Orderly codec) (start clock) ops) :
    (machine codec clock).Throughout (Sound codec) (start clock) ops := by
  have hstep : ∀ s op, Sound codec s → Orderly codec s op →
      Sound codec ((machine codec clock).step s op).1 :=
    fun s op hsound hop => sound_step hsound hop clock
  exact Machine.throughout_of_allSteps hstep (sound_start codec clock) h

/-! ## Sessions in which every call succeeds -/

/-- A session in which every call returns `Ok` and no segment is deleted.  Records are of a size the
reader takes, bincode gives back what it is given, and listings are what the directories have. -/
def Granted (codec : LedgerCodec) (clock : ℕ → ℕ) (s : LedgerSystem) : LedgerOp → Prop
  | .apply cmd => Writable codec cmd ∧ s.ledger.lastSeq.toNat + 1 < 2 ^ 64 ∧
      (step codec clock s (.apply cmd)).2 = .ok ()
  | .commitBatch cmds => (∀ cmd ∈ cmds, Writable codec cmd) ∧
      s.ledger.lastSeq.toNat + cmds.length < 2 ^ 64 ∧
      (step codec clock s (.commitBatch cmds)).2 = .ok ()
  | .triggerSnapshot =>
      codec.deserializeSnapshot
          (codec.serializeSnapshot ⟨s.ledger.lastSeq, s.ledger.accounts⟩) =
        .ok ⟨s.ledger.lastSeq, s.ledger.accounts⟩
  | .completeSnapshot index listing =>
      ∀ snap ∈ s.pending[index]?, (withSnapshot codec snap s.snapshots).Lists listing
  | .cleanup listing => s.walDir.Lists listing ∧ RollingWal.oldWals listing = []

/-- No snapshot is taken while the start of the current segment is that of another one. -/
def Separate (s : LedgerSystem) : LedgerOp → Prop
  | .triggerSnapshot => s.ledger.lastSeq = 0 ∨ ¬s.SharesStart
  | _ => True

/-- Calls that succeed were of commands that are executed. -/
lemma Recorded.orderly (h : Recorded codec history d closed cur wal s) {op : LedgerOp}
    (hgranted : Granted codec clock s op) (hseparate : Separate s op) : Orderly codec s op := by
  cases op with
  | apply cmd =>
      obtain ⟨hwritable, hlt, hok⟩ := hgranted
      refine ⟨hwritable, hlt, ?_⟩
      rw [h.lastSeq] at hlt
      obtain ⟨closed', cur', wal', happend, -, -⟩ := h.log.append hwritable hlt clock
      have hseq : s.ledger.lastSeq + 1 = UInt64.ofNat (history.length + 1) :=
        Word.add_one_eq_ofNat h.lastSeq
      rw [← hseq] at happend
      simp only [step, apply_append h.current h.listener happend] at hok
      split at hok
      · rename_i hcmd
        rw [hcmd]
      · exact absurd hok (by simp)
  | commitBatch cmds =>
      obtain ⟨hwritable, hlt, hok⟩ := hgranted
      refine ⟨hwritable, hlt, ?_⟩
      cases hcmds : (applyTransactions cmds s.ledger.accounts).1 with
      | ok => rfl
      | error e =>
          obtain ⟨e', -, hrun⟩ := GlobalLedger.commitBatch_of_error codec clock hcmds
          simp only [step, hrun] at hok
          exact absurd hok (by simp)
  | triggerSnapshot => exact ⟨hgranted, hseparate⟩
  | completeSnapshot index listing => exact hgranted
  | cleanup listing =>
      refine ⟨hgranted.1, ?_⟩
      intro name hname
      rw [hgranted.2] at hname
      exact absurd hname List.not_mem_nil

/-- **Recovery of a session.**  After every session on empty directories in which all calls succeed
and no segment is deleted, whatever the rotations and the snapshots, the snapshot and the log give
the live accounts and sequence number, if no snapshot was taken while two segments had the start of
the current one. -/
theorem session_restored (codec : LedgerCodec) (clock : ℕ → ℕ) (ops : List LedgerOp)
    (hgranted : (machine codec clock).AllSteps (Granted codec clock) (start clock) ops)
    (hseparate : (machine codec clock).AllSteps Separate (start clock) ops) :
    (machine codec clock).Throughout (Restores codec) (start clock) ops := by
  suffices hsound : (machine codec clock).Throughout (Sound codec) (start clock) ops from
    hsound.mono (fun s h => h.restores)
  refine Machine.throughout_of_allSteps (P := fun s op => Granted codec clock s op ∧ Separate s op)
    ?_ (sound_start codec clock) (hgranted.and hseparate)
  rintro s op hsound ⟨hgranted, hseparate⟩
  obtain ⟨history, d, closed, cur, wal, h⟩ := hsound
  exact sound_step ⟨history, d, closed, cur, wal, h⟩ (h.orderly hgranted hseparate) clock

/-! ## Deposits of one user -/

/-- The MD5 digests of the segments and snapshots of the sessions below. -/
def depositDigests : List (Bytes × String) :=
  let codec := LedgerCodec.balances (fun _ => "")
  [([], "d41d8cd98f00b204e9800998ecf8427e"),
    (codec.record (1, .deposit 1 7 100 0 0), "69af9c384253a0ac17f3f9eeef738b36"),
    (codec.record (2, .deposit 1 7 50 0 0), "879cb98ab76fd19cf5dd41a067e385d0"),
    (codec.record (3, .deposit 1 7 50 0 0), "78fb6e85cc821110690c255d223fa010"),
    (codec.serializeSnapshot ⟨1, HashMap.empty.insert 1 ⟨1, [(7, ⟨100, 0, 1⟩)]⟩⟩,
      "96222ac2a818face32495ee7d1e8680b"),
    (codec.serializeSnapshot ⟨2, HashMap.empty.insert 1 ⟨1, [(7, ⟨150, 0, 2⟩)]⟩⟩,
      "d21ea5da5458f78c9575c525e6cee406")]

/-- bincode, CRC-32 and MD5 on these sessions. -/
def depositCodec : LedgerCodec :=
  LedgerCodec.balances (fun bs => (depositDigests.lookup bs).getD "")

lemma writable_deposit {n : UInt64} (h : n = 100 ∨ n = 50) :
    Writable depositCodec (.deposit 1 7 n 0 0) := by
  rcases h with rfl | rfl
  · exact ⟨by decide, rfl⟩
  · exact ⟨by decide, rfl⟩

instance decidableSharesStart (s : LedgerSystem) : Decidable s.SharesStart :=
  inferInstanceAs (Decidable (∃ wal ∈ s.ledger.wal, ∃ name ∈ wal.dir.keys,
    name ≠ wal.currentPath ∧ name.startSeq = wal.currentPath.startSeq))

/-- A deposit, a snapshot of it, and another deposit. -/
def snapshotBetween : List LedgerOp :=
  [.apply (.deposit 1 7 100 0 0), .triggerSnapshot,
    .completeSnapshot 0 [⟨1, "96222ac2a818face32495ee7d1e8680b"⟩], .apply (.deposit 1 7 50 0 0)]

/-- Five minutes pass before the first call. -/
def idleBefore (i : ℕ) : ℕ := if i = 0 then 0 else walRollTime

/-- Five minutes pass after it. -/
def idleAfter (i : ℕ) : ℕ := if i ≤ 1 then 0 else walRollTime

/-- All calls succeed, wherever the log is rotated. -/
lemma granted_snapshotBetween (hclock : clock = idleBefore ∨ clock = idleAfter) :
    (machine depositCodec clock).AllSteps (Granted depositCodec clock) (start clock)
      snapshotBetween := by
  refine ⟨⟨writable_deposit (.inl rfl), ?_, ?_⟩, ?_, ?_, ⟨writable_deposit (.inr rfl), ?_, ?_⟩,
    trivial⟩
  · rcases hclock with rfl | rfl <;> decide +kernel
  · rcases hclock with rfl | rfl <;> decide +kernel
  · show depositCodec.deserializeSnapshot _ = _
    rcases hclock with rfl | rfl <;> decide +kernel
  · show ∀ snap ∈ _, _
    rcases hclock with rfl | rfl <;> decide +kernel
  · rcases hclock with rfl | rfl <;> decide +kernel
  · rcases hclock with rfl | rfl <;> decide +kernel

/-- Left after the first deposit, the first segment has the records it is named for. -/
theorem session_restored_idleAfter :
    (machine depositCodec idleAfter).Throughout (Restores depositCodec) (start idleAfter)
      snapshotBetween := by
  refine session_restored depositCodec idleAfter snapshotBetween
    (granted_snapshotBetween (.inr rfl)) ⟨trivial, .inr ?_, trivial, trivial, trivial⟩
  decide +kernel

/-- Left before it, the first segment is empty and its successor has the same start.  Listed behind
it, it is where the replay begins, and the second deposit is lost. -/
theorem empty_segment_hides_records :
    (machine depositCodec idleBefore).AllSteps (Granted depositCodec idleBefore) (start idleBefore)
      snapshotBetween ∧
    ¬Restores depositCodec
      ((machine depositCodec idleBefore).run (start idleBefore) snapshotBetween) := by
  refine ⟨granted_snapshotBetween (.inl rfl), fun h => ?_⟩
  have hrestored := h [⟨1, "96222ac2a818face32495ee7d1e8680b"⟩]
    [⟨1, []⟩, ⟨1, ["d41d8cd98f00b204e9800998ecf8427e"]⟩] (by decide +kernel) (by decide +kernel)
  revert hrestored
  decide +kernel

/-! ## Commands that are refused -/

lemma Recorded.refused (h : Recorded codec history d closed cur wal s) {cmd : LedgerCommand}
    (hcmd : Writable codec cmd) (hlt : s.ledger.lastSeq.toNat + 1 < 2 ^ 64) {e : Abort}
    (herror : (GlobalLedger.applyTransaction cmd s.ledger.accounts).1 = .error e)
    (clock : ℕ → ℕ) : ¬Restores codec (step codec clock s (.apply cmd)).1 := by
  rw [h.lastSeq] at hlt
  obtain ⟨closed', cur', wal', happend, hlogged, hclear⟩ := h.log.append hcmd hlt clock
  have hseq : s.ledger.lastSeq + 1 = UInt64.ofNat (history.length + 1) :=
    Word.add_one_eq_ofNat h.lastSeq
  rw [← hseq] at happend
  obtain ⟨accounts', hrun⟩ : ∃ accounts', GlobalLedger.apply codec clock cmd s.ledger =
      (.error e, ⟨accounts', some wal', s.ledger.lastSeq, none⟩) := by
    rw [apply_append h.current h.listener happend]
    exact ⟨_, by rw [show GlobalLedger.applyTransaction cmd s.ledger.accounts = (.error e, _) from
      Prod.ext herror rfl]⟩
  intro hrestores
  simp only [step, hrun] at hrestores
  obtain ⟨snapListing, hsnaps⟩ := s.snapshots.exists_lists
  obtain ⟨walListing, hwals⟩ := wal'.dir.exists_lists
  obtain ⟨accounts, seq, hload, hd, hle, htake, hunambiguous⟩ := h.loadSnapshot hsnaps
  obtain ⟨n, skipped, hskip, hreplay⟩ := hlogged.replayIter hwals (hclear _ hle hunambiguous) hd
    (by rw [List.length_append]; omega)
  have hrest := GlobalLedger.replay_number (n := seq.toNat) (by rw [List.length_drop]; omega)
    (GlobalLedger.applyTransactions_drop seq.toNat htake h.accounts)
    (number (history.length + 1) [cmd])
  rw [UInt64.ofNat_toNat, List.length_drop, Nat.add_sub_of_le hle,
    GlobalLedger.replay_refused hlt herror] at hrest
  have hfails : GlobalLedger.recover codec snapListing s.snapshots walListing wal'.dir =
      .error e := by
    rw [recover_eq hload hreplay, GlobalLedger.replay_skip hskip,
      List.drop_append_of_le_length hle, GlobalLedger.number_append, List.length_drop,
      Nat.add_right_comm, Nat.add_sub_of_le hle, hrest]
  exact absurd (hfails.symm.trans (hrestores snapListing walListing hsnaps hwals)) (by simp)

/-- Calls of `apply`, and the cleanups their rotations spawn. -/
def Applies (codec : LedgerCodec) (s : LedgerSystem) : LedgerOp → Prop
  | .apply cmd => Writable codec cmd ∧ s.ledger.lastSeq.toNat + 1 < 2 ^ 64
  | .cleanup listing => s.walDir.Lists listing ∧ s.Covers codec listing
  | _ => False

/-- A command that is executed. -/
def Accepted (s : LedgerSystem) : LedgerOp → Prop
  | .apply cmd => (GlobalLedger.applyTransaction cmd s.ledger.accounts).1 = .ok ()
  | _ => True

lemma Applies.orderly {op : LedgerOp} (h : Applies codec s op) (haccepted : Accepted s op) :
    Orderly codec s op := by
  cases op with
  | apply cmd => exact ⟨h.1, h.2, haccepted⟩
  | cleanup listing => exact h
  | commitBatch cmds => exact h.elim
  | triggerSnapshot => exact h.elim
  | completeSnapshot index listing => exact h.elim

/-- **Refused commands.**  Along a run of `apply` calls a restart restores the live state at every
point exactly if no command of the run is refused; the ledger then also opens, where the scan of the
current segment stays within its file. -/
theorem apply_restores_iff (codec : LedgerCodec) (clock : ℕ → ℕ) (ops : List LedgerOp)
    (hops : (machine codec clock).AllSteps (Applies codec) (start clock) ops) :
    ((machine codec clock).Throughout (Restores codec) (start clock) ops ↔
      (machine codec clock).AllSteps Accepted (start clock) ops) ∧
    ((machine codec clock).AllSteps Accepted (start clock) ops →
      (machine codec clock).Throughout (fun s => ¬s.Overruns → Reopens codec s)
        (start clock) ops) := by
  have hstep : ∀ s op, Sound codec s → Applies codec s op → Accepted s op →
      Sound codec ((machine codec clock).step s op).1 :=
    fun s op hs happlies haccepted => sound_step hs (happlies.orderly haccepted) clock
  constructor
  · refine Machine.throughout_iff_of_breaks hstep (fun s h => h.restores) ?_
      (sound_start codec clock) hops
    intro s op hsound happlies hrefused
    obtain ⟨history, d, closed, cur, wal, h⟩ := hsound
    cases op with
    | apply cmd =>
        cases herror : (GlobalLedger.applyTransaction cmd s.ledger.accounts).1 with
        | ok => exact absurd herror hrefused
        | error e => exact h.refused happlies.1 happlies.2 herror clock
    | cleanup listing => exact absurd trivial hrefused
    | commitBatch cmds => exact happlies.elim
    | triggerSnapshot => exact happlies.elim
    | completeSnapshot index listing => exact happlies.elim
  · intro haccepted
    have hsound : (machine codec clock).Throughout (Sound codec) (start clock) ops :=
      Machine.throughout_of_allSteps (fun s op hs hop => hstep s op hs hop.1 hop.2)
        (sound_start codec clock) (hops.and haccepted)
    exact hsound.mono (fun s h => h.reopens)

/-- A deposit and a withdrawal it covers. -/
def coveredWithdraw : List LedgerOp :=
  [.apply (.deposit 1 7 100 0 0), .apply (.withdraw 1 7 40 0 0)]

theorem apply_restores_iff_coveredWithdraw :
    (machine depositCodec (fun _ => 0)).Throughout (Restores depositCodec) (start (fun _ => 0))
      coveredWithdraw := by
  refine (apply_restores_iff depositCodec (fun _ => 0) coveredWithdraw
    ⟨⟨writable_deposit (.inl rfl), ?_⟩, ⟨⟨?_, rfl⟩, ?_⟩, trivial⟩).1.mpr ⟨?_, ?_, trivial⟩
  · decide +kernel
  · decide +kernel
  · decide +kernel
  · show (GlobalLedger.applyTransaction _ _).1 = _
    decide +kernel
  · show (GlobalLedger.applyTransaction _ _).1 = _
    decide +kernel

/-- A withdrawal without funds, and the ledger does not open any more. -/
theorem refused_withdraw_endangers :
    (machine depositCodec (fun _ => 0)).AllSteps (Applies depositCodec) (start (fun _ => 0))
      [.apply (.withdraw 1 7 40 0 0)] ∧
    ¬Reopens depositCodec
      ((machine depositCodec (fun _ => 0)).run (start (fun _ => 0))
        [.apply (.withdraw 1 7 40 0 0)]) := by
  refine ⟨⟨⟨⟨by decide, rfl⟩, by decide +kernel⟩, trivial⟩, fun h => ?_⟩
  obtain ⟨ledger, hnew, -⟩ := h (fun _ => 0) [] [⟨1, []⟩] [⟨1, []⟩] (by decide +kernel)
    (by decide +kernel) (by decide +kernel)
  have hfails : (GlobalLedger.new depositCodec (fun _ => 0) []
      ((machine depositCodec (fun _ => 0)).run (start (fun _ => 0))
        [.apply (.withdraw 1 7 40 0 0)]).snapshots [⟨1, []⟩] [⟨1, []⟩]
      ((machine depositCodec (fun _ => 0)).run (start (fun _ => 0))
        [.apply (.withdraw 1 7 40 0 0)]).walDir).isOk = false := by
    decide +kernel
  rw [hnew] at hfails
  exact absurd hfails (by simp [Except.isOk, Except.toBool])

/-! ## Segments that are deleted -/

/-- Every record behind the latest snapshot is in a file of the log. -/
def Retains (codec : LedgerCodec) (s : LedgerSystem) : Prop :=
  ∀ snapListing accounts seq, s.snapshots.Lists snapListing →
    GlobalLedger.loadSnapshot codec snapListing s.snapshots = .ok (accounts, seq) →
      ∀ n : ℕ, seq.toNat < n → n ≤ s.ledger.lastSeq.toNat → ∃ name file cmd,
        s.walDir.get? name = some file ∧
          (UInt64.ofNat n, cmd) ∈ (WalIterator.readAll codec file).1

lemma Sound.retains (h : Sound codec s) : Retains codec s := by
  obtain ⟨history, d, closed, cur, wal, h⟩ := h
  intro snapListing accounts seq hsnaps hload n hseq hn
  obtain ⟨accounts', seq', hload', hd, -⟩ := h.loadSnapshot hsnaps
  obtain ⟨-, rfl⟩ := Prod.mk.inj (Except.ok.inj (hload.symm.trans hload'))
  rw [h.lastSeq] at hn
  obtain ⟨cmd, hcmd⟩ : ∃ cmd, (history.drop d)[n - (d + 1)]? = some cmd :=
    ⟨_, List.getElem?_eq_getElem (by rw [List.length_drop]; omega)⟩
  have hmem : (UInt64.ofNat n, cmd) ∈ entries (closed ++ [cur]) := by
    refine List.mem_of_getElem? (i := n - (d + 1)) ?_
    rw [h.log.entries, GlobalLedger.getElem?_number, hcmd]
    exact congrArg (fun m => some (UInt64.ofNat m, cmd)) (by omega)
  obtain ⟨seg, hseg, hrecord⟩ := List.mem_flatMap.mp hmem
  obtain ⟨file, hget, hdata, -⟩ := h.log.tracks.dir.stored seg hseg
  refine ⟨seg.key, file, cmd, by rw [h.walDir, hget], ?_⟩
  rw [RollingWal.readAll_of_stored hdata (h.log.tracks.dir.readable seg hseg)]
  exact hrecord

/-- **Retention.**  Along every orderly session, in which a cleanup deletes only segments all of
whose records some completed snapshot has, the files that are left have every record behind the
latest snapshot; the snapshot and the log restore the live state, and the ledger opens where the
scan of the current segment stays within its file. -/
theorem orderly_retains (codec : LedgerCodec) (clock : ℕ → ℕ) (ops : List LedgerOp)
    (hops : (machine codec clock).AllSteps (Orderly codec) (start clock) ops) :
    (machine codec clock).Throughout
      (fun s => Retains codec s ∧ Restores codec s ∧ (¬s.Overruns → Reopens codec s))
      (start clock) ops :=
  (sound_throughout hops).mono (fun _ h => ⟨h.retains, h.restores, h.reopens⟩)

instance decidableCovers (codec : LedgerCodec) (s : LedgerSystem) (listing : List WalName) :
    Decidable (s.Covers codec listing) :=
  inferInstanceAs (Decidable (∀ name ∈ RollingWal.oldWals listing, ∀ file ∈ s.walDir.get? name,
    ∀ r ∈ (WalIterator.readAll codec file).1, ∃ snap ∈ s.snapshots.keys, r.1 ≤ snap.seq))

/-- From the second call on, every call finds the segment five minutes old. -/
def everyCall (i : ℕ) : ℕ := (i - 1) * walRollTime

/-- Four segments. -/
def fourSegments : List WalName :=
  [⟨1, ["69af9c384253a0ac17f3f9eeef738b36"]⟩, ⟨2, ["879cb98ab76fd19cf5dd41a067e385d0"]⟩,
    ⟨3, ["78fb6e85cc821110690c255d223fa010"]⟩, ⟨4, []⟩]

/-- Four deposits in four segments and a snapshot that has the first two; the first segment is
deleted. -/
def coveredCleanup : List LedgerOp :=
  [.apply (.deposit 1 7 100 0 0), .apply (.deposit 1 7 50 0 0), .triggerSnapshot,
    .apply (.deposit 1 7 50 0 0), .completeSnapshot 0 [⟨2, "d21ea5da5458f78c9575c525e6cee406"⟩],
    .apply (.deposit 1 7 50 0 0), .cleanup fourSegments]

lemma orderly_deposit {s : LedgerSystem} {n : UInt64} (hn : n = 100 ∨ n = 50)
    (h : s.ledger.lastSeq.toNat + 1 < 2 ^ 64 ∧
      (GlobalLedger.applyTransaction (.deposit 1 7 n 0 0) s.ledger.accounts).1 = .ok ()) :
    Orderly depositCodec s (.apply (.deposit 1 7 n 0 0)) := ⟨writable_deposit hn, h⟩

theorem orderly_retains_coveredCleanup :
    (machine depositCodec everyCall).Throughout
      (fun s => Retains depositCodec s ∧ Restores depositCodec s ∧
        (¬s.Overruns → Reopens depositCodec s))
      (start everyCall) coveredCleanup := by
  refine orderly_retains depositCodec everyCall coveredCleanup
    ⟨orderly_deposit (.inl rfl) ?_, orderly_deposit (.inr rfl) ?_, ⟨?_, .inr ?_⟩,
      orderly_deposit (.inr rfl) ?_, ?_, orderly_deposit (.inr rfl) ?_, ⟨?_, ?_⟩, trivial⟩
  · decide +kernel
  · decide +kernel
  · decide +kernel
  · decide +kernel
  · decide +kernel
  · show ∀ snap ∈ _, _
    decide +kernel
  · decide +kernel
  · decide +kernel
  · decide +kernel

/-- The same deposits without a snapshot. -/
def fourDeposits : List LedgerOp :=
  [.apply (.deposit 1 7 100 0 0), .apply (.deposit 1 7 50 0 0), .apply (.deposit 1 7 50 0 0),
    .apply (.deposit 1 7 50 0 0)]

theorem cleanup_makes_gap :
    (machine depositCodec everyCall).AllSteps (Orderly depositCodec) (start everyCall)
      fourDeposits ∧
    ((machine depositCodec everyCall).run (start everyCall) fourDeposits).walDir.Lists
      fourSegments ∧
    ¬Retains depositCodec ((machine depositCodec everyCall).run (start everyCall)
      (fourDeposits ++ [.cleanup fourSegments])) ∧
    (GlobalLedger.new depositCodec everyCall []
        ((machine depositCodec everyCall).run (start everyCall)
          (fourDeposits ++ [.cleanup fourSegments])).snapshots
        fourSegments.tail fourSegments.tail
        ((machine depositCodec everyCall).run (start everyCall)
          (fourDeposits ++ [.cleanup fourSegments])).walDir).map GlobalLedger.lastSeq =
      .error (.error "Gap! Expected 1, Found 2") := by
  refine ⟨⟨orderly_deposit (.inl rfl) ?_, orderly_deposit (.inr rfl) ?_,
    orderly_deposit (.inr rfl) ?_, orderly_deposit (.inr rfl) ?_, trivial⟩, ?_, ?_, ?_⟩
  · decide +kernel
  · decide +kernel
  · decide +kernel
  · decide +kernel
  · decide +kernel
  · intro h
    obtain ⟨name, file, cmd, hget, hread⟩ :=
      h [] HashMap.empty 0 (by decide +kernel) (by decide +kernel) 1 (by decide) (by decide +kernel)
    have hgone : ∀ name ∈ ((machine depositCodec everyCall).run (start everyCall)
          (fourDeposits ++ [.cleanup fourSegments])).walDir.keys,
        ∀ file ∈ ((machine depositCodec everyCall).run (start everyCall)
          (fourDeposits ++ [.cleanup fourSegments])).walDir.get? name,
        ∀ r ∈ (WalIterator.readAll depositCodec file).1, r.1 ≠ 1 := by
      decide +kernel
    exact hgone name (by rw [HashMap.mem_keys, hget]; rfl) file hget _ hread rfl
  · decide +kernel

end LedgerSystem

end ExchangeCore

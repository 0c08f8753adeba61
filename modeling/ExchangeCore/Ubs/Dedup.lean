import ExchangeCore.Framework.Machine
import ExchangeCore.Ubs.Core

/-!
# Deduplication over a run

`DeduplicationGuard` remembers ten thousand order ids.  A full cache evicts an id for every new
one, and `min_allowed_ts` is raised to the timestamp of the evicted id so that the id cannot come
back.  But the threshold refuses only what is older than it: the evicted id itself is as old as
the threshold and passes.  `acceptedOnce_iff` says that this is the only way in which an id is
accepted twice.
-/

namespace ExchangeCore

namespace DeduplicationGuard

/-! ## One call -/

/-- The timestamp of an id is within the drift allowed around the clock. -/
def InTime (orderId now : UInt64) : Prop :=
  ¬Word.saturatingSub now (snowflakeTimestampMs orderId) > MAX_TIME_DRIFT_MS ∧
    ¬snowflakeTimestampMs orderId > Word.saturatingAdd now 1000

instance decidableInTime (orderId now : UInt64) : Decidable (InTime orderId now) :=
  inferInstanceAs (Decidable (_ ∧ _))

/-- The guard after an id is recorded. -/
def record (g : DeduplicationGuard) (orderId : UInt64) : DeduplicationGuard :=
  { g.evict with cache := g.evict.cache ++ [orderId] }

/-- What the guard takes. -/
def Takes (g : DeduplicationGuard) (orderId now : UInt64) : Prop :=
  InTime orderId now ∧ g.minAllowedTs ≤ snowflakeTimestampMs orderId ∧ orderId ∉ g.cache

lemma checkAndRecord_cases (g : DeduplicationGuard) (orderId now : UInt64) :
    (g.Takes orderId now ∧ g.checkAndRecord orderId now = (.ok (), g.record orderId)) ∨
      ¬g.Takes orderId now ∧ ∃ e, g.checkAndRecord orderId now = (.error e, g) := by
  unfold checkAndRecord Takes InTime
  by_cases hold : Word.saturatingSub now (snowflakeTimestampMs orderId) > MAX_TIME_DRIFT_MS
  · exact Or.inr ⟨fun h => h.1.1 hold, .orderTooOld, by simp only [if_pos hold]⟩
  by_cases hfuture : snowflakeTimestampMs orderId > Word.saturatingAdd now 1000
  · exact Or.inr ⟨fun h => h.1.2 hfuture, .futureTimestamp,
      by simp only [if_neg hold, if_pos hfuture]⟩
  by_cases hmin : snowflakeTimestampMs orderId < g.minAllowedTs
  · exact Or.inr ⟨fun h => absurd hmin (not_lt.mpr h.2.1), .orderTooOld,
      by simp only [if_neg hold, if_neg hfuture, if_pos hmin]⟩
  by_cases hdup : orderId ∈ g.cache
  · exact Or.inr ⟨fun h => h.2.2 hdup, .duplicateOrderId,
      by simp only [if_neg hold, if_neg hfuture, if_neg hmin, if_pos hdup]⟩
  · exact Or.inl ⟨⟨⟨hold, hfuture⟩, not_lt.mp hmin, hdup⟩,
      by simp only [if_neg hold, if_neg hfuture, if_neg hmin, if_neg hdup, record]⟩

lemma checkAndRecord_of_takes {g : DeduplicationGuard} {orderId now : UInt64}
    (h : g.Takes orderId now) : g.checkAndRecord orderId now = (.ok (), g.record orderId) := by
  rcases g.checkAndRecord_cases orderId now with ⟨-, heq⟩ | ⟨hnot, -⟩
  · exact heq
  · exact absurd h hnot

/-- Making room only raises the threshold, and what is evicted is not above it. -/
lemma evict_spec (g : DeduplicationGuard) :
    g.minAllowedTs ≤ g.evict.minAllowedTs ∧
      ∀ id ∈ g.cache, id ∈ g.evict.cache ∨ snowflakeTimestampMs id ≤ g.evict.minAllowedTs := by
  unfold evict
  split
  · rcases List.eq_nil_or_concat g.cache with hnil | ⟨init, last, hcache⟩
    · rw [hnil]
      exact ⟨le_rfl, fun id hid => absurd hid List.not_mem_nil⟩
    · rw [List.concat_eq_append] at hcache
      rw [hcache, List.getLast?_concat, List.dropLast_concat]
      refine ⟨le_max_left _ _, ?_⟩
      intro id hid
      rcases List.mem_append.mp hid with hinit | hlast
      · exact Or.inl hinit
      · rw [List.mem_singleton.mp hlast]
        exact Or.inr (le_max_right _ _)
  · exact ⟨le_rfl, fun id hid => Or.inl hid⟩

/-! ## Runs -/

/-- A guard, next to the ids it has accepted. -/
structure History where
  guard : DeduplicationGuard
  accepted : List UInt64

/-- A guard that has accepted nothing yet. -/
def History.start (g : DeduplicationGuard) : History := ⟨g, []⟩

/-- Calls of `check_and_record`: an id and a reading of the clock. -/
def machine : Machine History (UInt64 × UInt64) (Except RejectReason Unit) where
  step h call :=
    let r := h.guard.checkAndRecord call.1 call.2
    match r.1 with
    | .ok () => (⟨r.2, h.accepted ++ [call.1]⟩, .ok ())
    | .error e => (⟨r.2, h.accepted⟩, .error e)

/-- No id has been accepted more than once. -/
def AcceptedOnce (h : History) : Prop := h.accepted.Nodup

/-- An accepted id that has been evicted is as old as the threshold. -/
def Covered (h : History) : Prop :=
  ∀ id ∈ h.accepted, id ∈ h.guard.cache ∨ snowflakeTimestampMs id ≤ h.guard.minAllowedTs

/-- The call does not bring back an evicted id whose timestamp is the threshold, in time. -/
def NotReadmitted (h : History) (call : UInt64 × UInt64) : Prop :=
  call.1 ∈ h.accepted → call.1 ∉ h.guard.cache → InTime call.1 call.2 →
    snowflakeTimestampMs call.1 ≠ h.guard.minAllowedTs

lemma step_cases (h : History) (call : UInt64 × UInt64) :
    (h.guard.Takes call.1 call.2 ∧ (machine.step h call).1 =
        ⟨h.guard.record call.1, h.accepted ++ [call.1]⟩) ∨
      ¬h.guard.Takes call.1 call.2 ∧ (machine.step h call).1 = h := by
  rcases h.guard.checkAndRecord_cases call.1 call.2 with ⟨htakes, heq⟩ | ⟨hnot, e, heq⟩
  · exact Or.inl ⟨htakes, by simp only [machine, heq]⟩
  · exact Or.inr ⟨hnot, by simp only [machine, heq]⟩

lemma Covered.step (h : History) (call : UInt64 × UInt64) (hc : Covered h) :
    Covered (machine.step h call).1 := by
  rcases step_cases h call with ⟨-, heq⟩ | ⟨-, heq⟩
  · rw [heq]
    obtain ⟨hmin, hevict⟩ := h.guard.evict_spec
    intro id hid
    rcases List.mem_append.mp hid with hold | hnew
    · rcases hc id hold with hcache | hts
      · rcases hevict id hcache with hkept | hgone
        · exact Or.inl (List.mem_append_left _ hkept)
        · exact Or.inr hgone
      · exact Or.inr (hts.trans hmin)
    · exact Or.inl (List.mem_append_right _ hnew)
  · rwa [heq]

/-- A call keeps the accepted ids apart exactly if it does not bring an evicted one back. -/
lemma acceptedOnce_step_iff (h : History) (call : UInt64 × UInt64) (hc : Covered h)
    (honce : AcceptedOnce h) :
    AcceptedOnce (machine.step h call).1 ↔ NotReadmitted h call := by
  rcases step_cases h call with ⟨⟨htime, hmin, hcache⟩, heq⟩ | ⟨hnot, heq⟩
  · have hiff : AcceptedOnce (machine.step h call).1 ↔ call.1 ∉ h.accepted := by
      rw [heq, AcceptedOnce, List.nodup_append]
      constructor
      · rintro ⟨-, -, hdisj⟩ hmem
        exact hdisj call.1 hmem call.1 (List.mem_singleton.mpr rfl) rfl
      · intro hfresh
        refine ⟨honce, List.nodup_singleton _, ?_⟩
        rintro a ha b hb rfl
        rw [List.mem_singleton] at hb
        exact hfresh (hb ▸ ha)
    rw [hiff]
    constructor
    · intro hfresh hmem
      exact absurd hmem hfresh
    · intro hready hmem
      -- the id is as old as the threshold, and has passed it
      have hts := (hc call.1 hmem).resolve_left hcache
      exact hready hmem hcache htime (le_antisymm hts hmin)
  · rw [heq]
    refine iff_of_true honce ?_
    intro _ hcache htime hts
    exact hnot ⟨htime, hts.ge, hcache⟩

/-- **When no order id is accepted twice.**  For every sequence of calls on a guard, whatever the
clock shows: no id is accepted more than once, exactly if no call brings back, in time, an id that
was accepted and evicted and whose timestamp is the threshold. -/
theorem acceptedOnce_iff (g : DeduplicationGuard) (calls : List (UInt64 × UInt64)) :
    machine.Throughout AcceptedOnce (.start g) calls ↔
      machine.AllSteps NotReadmitted (.start g) calls := by
  have hcovered : Covered (.start g) := by
    intro id hid
    exact absurd hid List.not_mem_nil
  have honce : AcceptedOnce (.start g) := List.nodup_nil
  exact Machine.throughout_iff_allSteps Covered.step acceptedOnce_step_iff hcovered honce calls

/-! ## Ten thousand ids in one millisecond -/

lemma run_of_room (now : UInt64) (ids : List UInt64) : ∀ {h : History},
    (h.guard.cache ++ ids).Nodup → h.guard.cache.length + ids.length ≤ CACHE_SIZE →
    (∀ id ∈ ids, InTime id now ∧ h.guard.minAllowedTs ≤ snowflakeTimestampMs id) →
      machine.run h (ids.map (·, now)) =
        ⟨⟨h.guard.cache ++ ids, h.guard.minAllowedTs⟩, h.accepted ++ ids⟩ := by
  induction ids with
  | nil =>
      intro h _ _ _
      simp
  | cons id ids ih =>
      intro h hnodup hroom htakes
      have hfresh : id ∉ h.guard.cache := by
        intro hmem
        exact (List.nodup_append.mp hnodup).2.2 id hmem id (List.mem_cons_self ..) rfl
      obtain ⟨htime, hmin⟩ := htakes id (List.mem_cons_self ..)
      have hevict : h.guard.evict = h.guard := by
        rw [evict, if_neg]
        rw [List.length_cons] at hroom
        omega
      have hstep : (machine.step h (id, now)).1 =
          ⟨⟨h.guard.cache ++ [id], h.guard.minAllowedTs⟩, h.accepted ++ [id]⟩ := by
        have hok := checkAndRecord_of_takes (g := h.guard) ⟨htime, hmin, hfresh⟩
        simp only [machine, hok, record, hevict]
      rw [List.map_cons, Machine.run_cons, hstep, ih]
      · simp
      · simpa using hnodup
      · simp only [List.length_append, List.length_cons, List.length_nil] at hroom ⊢
        omega
      · intro id' hid'
        exact htakes id' (List.mem_cons_of_mem _ hid')

/-- The `k`-th id of millisecond 1000. -/
def burstId (k : ℕ) : UInt64 := (1000 : UInt64) <<< 20 + UInt64.ofNat k

/-- Ten thousand ids, one more, and the last of the ten thousand again. -/
def burst : List (UInt64 × UInt64) :=
  ((List.range 10000).map burstId).map (·, 1000) ++ [(burstId 10000, 1000), (burstId 9999, 1000)]

lemma toNat_burstId {k : ℕ} (hk : k ≤ 10000) : (burstId k).toNat = 1048576000 + k := by
  have h : (UInt64.ofNat k).toNat = k := Word.toNat_ofNat_of_lt (by omega)
  rw [burstId, Word.toNat_add_of_lt]
  · rw [h]
    rfl
  · rw [h]
    change 1048576000 + k < _
    omega

lemma timestampMs_burstId {k : ℕ} (hk : k ≤ 10000) : snowflakeTimestampMs (burstId k) = 1000 := by
  apply UInt64.toNat_inj.mp
  rw [snowflakeTimestampMs, Word.toNat_shiftRight_eq _ 20 20 rfl (by decide), toNat_burstId hk]
  change (1048576000 + k) / 2 ^ 20 = 1000
  omega

lemma inTime_burstId {k : ℕ} (hk : k ≤ 10000) : InTime (burstId k) 1000 := by
  rw [InTime, timestampMs_burstId hk]
  decide

lemma burstId_injOn {j k : ℕ} (hj : j ≤ 10000) (hk : k ≤ 10000) (h : burstId j = burstId k) :
    j = k := by
  have hnat := congrArg UInt64.toNat h
  rw [toNat_burstId hj, toNat_burstId hk] at hnat
  omega

lemma nodup_burstIds {n : ℕ} (hn : n ≤ 10001) : ((List.range n).map burstId).Nodup := by
  refine List.Nodup.map_on ?_ List.nodup_range
  intro j hj k hk h
  rw [List.mem_range] at hj hk
  exact burstId_injOn (by omega) (by omega) h

lemma run_burstIds {n : ℕ} (hn : n ≤ CACHE_SIZE) : machine.run (.start DeduplicationGuard.new)
    (((List.range n).map burstId).map (·, 1000)) =
      ⟨⟨(List.range n).map burstId, 0⟩, (List.range n).map burstId⟩ := by
  rw [CACHE_SIZE] at hn
  have hrun := @run_of_room 1000 ((List.range n).map burstId) (.start DeduplicationGuard.new)
    (nodup_burstIds (by omega)) (by simpa [History.start, DeduplicationGuard.new, CACHE_SIZE])
    (fun id hid => ?_)
  · rw [hrun]
    rfl
  · obtain ⟨k, hk, rfl⟩ := List.mem_map.mp hid
    rw [List.mem_range] at hk
    exact ⟨inTime_burstId (by omega), UInt64.zero_le ..⟩

lemma burstId_notMem {n : ℕ} (hn : n ≤ 10000) : burstId n ∉ (List.range n).map burstId := by
  intro hmem
  obtain ⟨j, hj, h⟩ := List.mem_map.mp hmem
  rw [List.mem_range] at hj
  have := burstId_injOn (by omega) hn h
  omega

lemma takes_burstId {n : ℕ} (hn : n ≤ 10000) :
    (⟨(List.range n).map burstId, 0⟩ : DeduplicationGuard).Takes (burstId n) 1000 :=
  ⟨inTime_burstId hn, UInt64.zero_le .., burstId_notMem hn⟩

lemma evict_burstIds {n : ℕ} (hn : n + 1 = CACHE_SIZE) :
    (⟨(List.range (n + 1)).map burstId, 0⟩ : DeduplicationGuard).evict =
      ⟨(List.range n).map burstId, 1000⟩ := by
  have hfull : ((List.range (n + 1)).map burstId).length ≥ CACHE_SIZE := by simp [hn]
  rw [CACHE_SIZE] at hn
  have hts := @timestampMs_burstId n (by omega)
  rw [evict, if_pos hfull]
  simp only [List.range_succ, List.map_append, List.map_singleton, List.getLast?_concat,
    List.dropLast_concat, hts]
  rfl

/-- Once the cache is full, the next id evicts the last one, which is then accepted again. -/
lemma readmits_burstId {n : ℕ} (hn : n + 1 = CACHE_SIZE) : ¬machine.AllSteps NotReadmitted
    ⟨⟨(List.range (n + 1)).map burstId, 0⟩, (List.range (n + 1)).map burstId⟩
    [(burstId (n + 1), 1000), (burstId n, 1000)] := by
  have hle : n + 1 ≤ 10000 := hn.le
  have hnext := checkAndRecord_of_takes (takes_burstId hle)
  rintro ⟨-, hlast, -⟩
  simp only [machine, hnext, record, evict_burstIds hn] at hlast
  refine hlast ?_ ?_ (inTime_burstId (by omega)) (timestampMs_burstId (by omega))
  · exact List.mem_append_left _ (List.mem_map_of_mem (List.mem_range.mpr (by omega)))
  · intro hmem
    rcases List.mem_append.mp hmem with hold | hnew
    · exact burstId_notMem (by omega) hold
    · have := burstId_injOn (by omega) hle (List.mem_singleton.mp hnew)
      omega

theorem evicted_id_accepted_again :
    ¬machine.Throughout AcceptedOnce (.start DeduplicationGuard.new) burst := by
  rw [acceptedOnce_iff, burst, Machine.allSteps_append, @run_burstIds 10000 le_rfl]
  rintro ⟨-, hlast⟩
  exact readmits_burstId (n := 9999) rfl hlast

end DeduplicationGuard

end ExchangeCore

import CxlLock.NodeQueries

/-!
# The registry as a failure detector (`node_registry.cpp`)

Nodes register, send heartbeats and leave, and any node asks with `is_node_alive` whether another
one is still there.  `isNodeAlive_after_iff` says what the answer is after any sequence of calls of
all nodes and for any readings of the clocks: it depends on the calls of the node that is asked
about, and of these on the last sign of life.

When the clock of that node goes forward, the last sign of life is the latest one, and the answer
is what one wants of a failure detector (`alive_iff_heard`): a registered node is suspected exactly
when it has been silent for the timeout.  Both need a timeout that fits in 64 bits as nanoseconds.
-/

namespace CxlLock

open ByteMemory

namespace RegistryArray

variable {ι : Type} [DecidableEq ι] {array : RegistryArray ι} {mem : Memory}
  {calls : List (RegistryCall ι)} {i : ι} {now timeoutMs : UInt64}

/-- The times at which a node has been heard, in the order of its calls. -/
def signsOfLife (i : ι) (calls : List (RegistryCall ι)) : List UInt64 :=
  calls.filterMap (RegistryCall.seenAt i)

variable (array) in
omit [DecidableEq ι] in
/-- The slot of a node of the array can be read. -/
lemma getNodeInfo_config (mem : Memory) (i : ι) :
    getNodeInfo array.shm array.registryOffset (array.config i).nodeId mem =
      .ok (array.readSlot mem (array.config i).nodeId) := by
  have hid : ¬ (array.config i).nodeId ≥ maxNodeCount := UInt32.not_le.2 (array.config_nodeId_lt i)
  rw [getNodeInfo, if_neg (by simp [array.valid]), if_neg hid,
    array.offsetToPtr_slot (array.config_nodeId_lt i)]
  rfl

omit [DecidableEq ι] in
/-- A record is judged by its heartbeat, where a heartbeat from the future counts as fresh. -/
lemma isNodeAlive_config (mem : Memory) (i : ι) (htimeout : timeoutMs ≠ 0) :
    isNodeAlive array.shm array.registryOffset (array.config i).nodeId mem now timeoutMs = true ↔
      (array.readSlot mem (array.config i).nodeId).isActive = true ∧
        (array.readSlot mem (array.config i).nodeId).lastHeartbeat ≠ 0 ∧
        (now < (array.readSlot mem (array.config i).nodeId).lastHeartbeat ∨
          now - (array.readSlot mem (array.config i).nodeId).lastHeartbeat <
            timeoutMs * 1000000) := by
  have hid : ¬ (array.config i).nodeId ≥ maxNodeCount := UInt32.not_le.2 (array.config_nodeId_lt i)
  rw [isNodeAlive, if_neg (by simp [array.valid]), if_neg hid, if_neg htimeout, getNodeInfo_config]
  dsimp only
  split_ifs with hactive hheartbeat hfuture
  · simp [hactive]
  · simp [hheartbeat]
  · simp [hactive, hheartbeat, hfuture]
  · simp [hactive, hheartbeat, hfuture]

/-- The timeout, counted from the heartbeat. -/
lemma fresh_iff (hfits : timeoutMs.toNat * 1000000 < 2 ^ 64) (t : UInt64)
    (htimeout : timeoutMs ≠ 0) : now < t ∨ now - t < timeoutMs * 1000000 ↔
      now.toNat < t.toNat + timeoutMs.toNat * 1000000 := by
  have hpos : 0 < timeoutMs.toNat := Nat.pos_of_ne_zero fun hzero =>
    htimeout (UInt64.toNat_inj.1 hzero)
  have hnanos : (timeoutMs * 1000000).toNat = timeoutMs.toNat * 1000000 := by
    rw [UInt64.toNat_mul]
    exact Nat.mod_eq_of_lt hfits
  rcases Nat.lt_or_ge now.toNat t.toNat with hlt | hle
  · have hfuture : now < t := UInt64.lt_iff_toNat_lt.2 hlt
    simp only [hfuture, true_or, true_iff]
    omega
  · have hpast : ¬ now < t := by rw [UInt64.lt_iff_toNat_lt]; omega
    rw [or_iff_right hpast, UInt64.lt_iff_toNat_lt, hnanos,
      UInt64.toNat_sub_of_le _ _ (UInt64.le_iff_toNat_le.2 hle)]
    omega

/-- **What `is_node_alive` says after any sequence of calls.**  The node is registered, and its
last sign of life is younger than the timeout, and not at the time 0. -/
lemma isNodeAlive_after_iff (hzero : array.Zeroed mem)
    (hfits : timeoutMs.toNat * 1000000 < 2 ^ 64) :
    isNodeAlive array.shm array.registryOffset (array.config i).nodeId (array.after mem calls) now
        timeoutMs = true ↔
      Registered calls i ∧ timeoutMs ≠ 0 ∧
        ∃ t, latest (RegistryCall.seenAt i) calls = some t ∧ t ≠ 0 ∧
          now.toNat < t.toNat + timeoutMs.toNat * 1000000 := by
  by_cases htimeout : timeoutMs = 0
  · subst htimeout
    have hdead : isNodeAlive array.shm array.registryOffset (array.config i).nodeId
        (array.after mem calls) now 0 = false := by
      simp [isNodeAlive]
    simp [hdead]
  have hkept := slotsKept_after hzero calls
  rw [isNodeAlive_config _ i htimeout, hkept.active, fresh_iff hfits _ htimeout]
  refine and_congr_right fun hregistered => ?_
  rw [(hkept.described i hregistered.latest_ne_none).lastHeartbeat]
  simp [htimeout]

/-- The last sign of life is the latest when the clock goes forward. -/
lemma latest_eq_max (hclock : (signsOfLife i calls).Pairwise (· ≤ ·)) {t t' : UInt64}
    (ht : t ∈ signsOfLife i calls) (ht' : latest (RegistryCall.seenAt i) calls = some t') :
    t ≤ t' := by
  have hlast : (signsOfLife i calls).getLast? = some t' := by
    rw [← ht', signsOfLife, latest, List.getLast?_eq_head?_reverse, ← List.filterMap_reverse,
      List.head?_filterMap]
  obtain ⟨front, hfront⟩ := List.getLast?_eq_some_iff.1 hlast
  rw [hfront] at ht hclock
  rcases List.mem_append.1 ht with hmem | hmem
  · exact (List.pairwise_append.1 hclock).2.2 t hmem t' (List.mem_singleton_self t')
  · exact UInt64.le_of_eq (List.mem_singleton.1 hmem)

/-- **A registered node is suspected exactly when it has been silent for the timeout.**  After any
sequence of calls, if the readings of the node's own clock go forward from a time after 0 and the
timeout fits in 64 bits as nanoseconds: `is_node_alive` returns true exactly when the node is
registered and one of its registrations and heartbeats is younger than the timeout.  The calls of
the other nodes do not matter. -/
theorem alive_iff_heard (array : RegistryArray ι) (mem : Memory) (hzero : array.Zeroed mem)
    (calls : List (RegistryCall ι)) (i : ι) (now timeoutMs : UInt64)
    (hclock : (signsOfLife i calls).Pairwise (· ≤ ·)) (hpos : ∀ t ∈ signsOfLife i calls, t ≠ 0)
    (hfits : timeoutMs.toNat * 1000000 < 2 ^ 64) :
    isNodeAlive array.shm array.registryOffset (array.config i).nodeId (array.after mem calls) now
        timeoutMs = true ↔
      Registered calls i ∧ timeoutMs ≠ 0 ∧
        ∃ t ∈ signsOfLife i calls, now.toNat < t.toNat + timeoutMs.toNat * 1000000 := by
  rw [isNodeAlive_after_iff hzero hfits]
  refine and_congr_right fun _ => and_congr_right fun _ => ⟨?_, ?_⟩
  · rintro ⟨t, ht, -, hfresh⟩
    obtain ⟨call, hcall, hseen⟩ := List.exists_of_findSome?_eq_some ht
    exact ⟨t, List.mem_filterMap.2 ⟨call, List.mem_reverse.1 hcall, hseen⟩, hfresh⟩
  · rintro ⟨t, ht, hfresh⟩
    obtain ⟨t', ht'⟩ : ∃ t', latest (RegistryCall.seenAt i) calls = some t' := by
      obtain ⟨call, hcall, hseen⟩ := List.mem_filterMap.1 ht
      refine Option.ne_none_iff_exists'.1 fun hnone => ?_
      have hnever := List.findSome?_eq_none_iff.1 hnone call (List.mem_reverse.2 hcall)
      rw [hseen] at hnever
      cases hnever
    have hmem : t' ∈ signsOfLife i calls := by
      obtain ⟨call, hcall, hseen⟩ := List.exists_of_findSome?_eq_some ht'
      exact List.mem_filterMap.2 ⟨call, List.mem_reverse.1 hcall, hseen⟩
    have hle := UInt64.le_iff_toNat_le.1 (latest_eq_max hclock ht ht')
    exact ⟨t', ht', hpos t' hmem, by omega⟩

/-- Node 0 registers and sends a heartbeat two milliseconds later.  For a timeout of one
millisecond it is alive after another half of a millisecond, and not after two. -/
theorem alive_iff_heard_two :
    isNodeAlive twoNodeArray.shm twoNodeArray.registryOffset (twoNodeArray.config 0).nodeId
        (twoNodeArray.after (fun _ => 0) [.register 0 1000000, .register 1 7, .heartbeat 0 3000000])
        3500000 1 = true ∧
      ¬ isNodeAlive twoNodeArray.shm twoNodeArray.registryOffset (twoNodeArray.config 0).nodeId
        (twoNodeArray.after (fun _ => 0) [.register 0 1000000, .register 1 7, .heartbeat 0 3000000])
        5000000 1 = true := by
  have hanswer := fun now => alive_iff_heard twoNodeArray (fun _ => 0) (fun _ _ _ => rfl)
    [.register 0 1000000, .register 1 7, .heartbeat 0 3000000] 0 now 1 (by decide)
    (by simp [signsOfLife, RegistryCall.seenAt]) (by decide)
  rw [hanswer, hanswer]
  refine ⟨⟨⟨[], _, _, rfl, by decide⟩, by decide, by decide⟩, fun h => ?_⟩
  exact absurd h.2.2 (by decide)

end RegistryArray

end CxlLock

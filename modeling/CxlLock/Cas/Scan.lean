import Mathlib.Algebra.GroupWithZero.Nat
import Mathlib.Algebra.Order.BigOperators.Group.List
import Mathlib.Algebra.Order.Group.Nat
import Mathlib.Data.List.Induction
import CxlLock.Cas.GlobalLock

/-!
# What one scan does to the slot table (`lock_manager.cpp`, `cas_global_lock.cpp`)

The slots of a lock are a row of words, one for each node.  A lock is due when no node of its row
is `LOCKED` and some node is `WAITING`; it is to be granted to the first of these.  This is
`grantRow`, which knows nothing of offsets, loops and exchanges.

`cas_scan_exact` says that `run_single_scan` is `grantRow` on every lock of the system, whatever
words the slots hold, and that the statistics count exactly the due locks.  The loop over the
locks is carried by `ScannedUpTo`: the rows of the locks scanned so far are granted, and the rows
that later turns look at are as they were.
-/

namespace CxlLock

namespace Cas

open LockSlotState

/-! ## The due grants -/

/-- The lock is to be granted: it has a waiting node and no holder. -/
def Due (nodeCount : UInt32) (row : NodeId → UInt32) : Prop :=
  (∀ n < nodeCount, row n ≠ locked.toWord) ∧ ∃ n < nodeCount, row n = waiting.toWord

instance (nodeCount : UInt32) (row : NodeId → UInt32) : Decidable (Due nodeCount row) :=
  inferInstanceAs (Decidable (_ ∧ _))

/-- The waiting node with the smallest id. -/
def IsFirstWaiting (nodeCount : UInt32) (row : NodeId → UInt32) (n : NodeId) : Prop :=
  n < nodeCount ∧ row n = waiting.toWord ∧ ∀ k < n, row k ≠ waiting.toWord

instance (nodeCount : UInt32) (row : NodeId → UInt32) (n : NodeId) :
    Decidable (IsFirstWaiting nodeCount row n) :=
  inferInstanceAs (Decidable (_ ∧ _ ∧ _))

/-- The row with the due grant. -/
def grantRow (nodeCount : UInt32) (row : NodeId → UInt32) (n : NodeId) : UInt32 :=
  if Due nodeCount row ∧ IsFirstWaiting nodeCount row n then locked.toWord else row n

section Rows

variable {nodeCount : UInt32} {row row' : NodeId → UInt32} {n k : NodeId}

lemma IsFirstWaiting.unique (hn : IsFirstWaiting nodeCount row n)
    (hk : IsFirstWaiting nodeCount row k) : n = k := by
  have hnk : ¬ n < k := fun h => hk.2.2 n h hn.2.1
  have hkn : ¬ k < n := fun h => hn.2.2 k h hk.2.1
  exact UInt32.le_antisymm (UInt32.not_lt.1 hkn) (UInt32.not_lt.1 hnk)

/-- Only the words of the nodes that take part matter. -/
lemma due_congr (h : ∀ n < nodeCount, row n = row' n) : Due nodeCount row ↔ Due nodeCount row' := by
  have hlocked : (∀ n < nodeCount, row n ≠ locked.toWord) ↔
      ∀ n < nodeCount, row' n ≠ locked.toWord :=
    forall₂_congr fun n hn => by rw [h n hn]
  have hwaiting : (∃ n < nodeCount, row n = waiting.toWord) ↔
      ∃ n < nodeCount, row' n = waiting.toWord :=
    exists_congr fun n => and_congr_right fun hn => by rw [h n hn]
  rw [Due, Due, hlocked, hwaiting]

lemma isFirstWaiting_congr (h : ∀ n < nodeCount, row n = row' n) :
    IsFirstWaiting nodeCount row n ↔ IsFirstWaiting nodeCount row' n := by
  refine and_congr_right fun hn => ?_
  rw [h n hn]
  refine and_congr_right fun _ => forall₂_congr fun k hk => ?_
  rw [h k (UInt32.lt_trans hk hn)]

lemma grantRow_of_not_due (h : ¬ Due nodeCount row) : grantRow nodeCount row n = row n :=
  if_neg fun hgrant => h hgrant.1

lemma grantRow_of_first (hdue : Due nodeCount row) (hk : IsFirstWaiting nodeCount row k) :
    grantRow nodeCount row n = if n = k then locked.toWord else row n := by
  rw [grantRow]
  exact if_congr ⟨fun h => h.2.unique hk, fun h => ⟨hdue, h ▸ hk⟩⟩ rfl rfl

end Rows

/-! ## One lock -/

section ScanLock

variable {stateOffset : ShmOffset} {nodeCount : UInt32} {n : NodeId}

/-- The slots of a lock. -/
def slotRow (stateOffset : ShmOffset) (nodeCount : UInt32) (shm : ShmWords) (l : LockId) :
    NodeId → UInt32 :=
  fun n => readSlotState l n nodeCount stateOffset shm

/-- The first hit of a search in increasing order. -/
lemma find?_idsBelow_eq_some {p : UInt32 → Bool}
    (h : (idsBelow nodeCount).find? p = some n) :
    n < nodeCount ∧ p n = true ∧ ∀ k < n, p k = false := by
  obtain ⟨hp, before, after, heq, hbefore⟩ := List.find?_eq_some_iff_append.1 h
  have hn : n < nodeCount := mem_idsBelow.1 (List.mem_of_find?_eq_some h)
  refine ⟨hn, hp, fun k hk => ?_⟩
  have hmem : k ∈ before ++ n :: after := heq ▸ mem_idsBelow.2 (UInt32.lt_trans hk hn)
  have hsorted := heq ▸ pairwise_idsBelow nodeCount
  rcases List.mem_append.1 hmem with hk' | hk'
  · simpa using hbefore k hk'
  · rcases List.mem_cons.1 hk' with rfl | hk'
    · exact absurd hk (UInt32.lt_irrefl k)
    · have := (List.pairwise_cons.1 (List.pairwise_append.1 hsorted).2.1).1 k hk'
      exact absurd this (UInt32.lt_asymm hk)

/-- `check_grant` finds the first waiting node of a due lock, and nobody for another. -/
lemma checkGrant_cases (stateOffset : ShmOffset) (nodeCount : UInt32) (shm : ShmWords)
    (l : LockId) :
    (∃ n, Due nodeCount (slotRow stateOffset nodeCount shm l) ∧
        IsFirstWaiting nodeCount (slotRow stateOffset nodeCount shm l) n ∧
        checkGrant stateOffset nodeCount l shm = n) ∨
      ¬ Due nodeCount (slotRow stateOffset nodeCount shm l) ∧
        checkGrant stateOffset nodeCount l shm = invalidNodeId := by
  unfold checkGrant
  split_ifs with hzero hany
  · refine .inr ⟨fun hdue => ?_, rfl⟩
    obtain ⟨n, hn, -⟩ := hdue.2
    exact UInt32.not_lt_zero (hzero ▸ hn)
  · obtain ⟨n, hn, hlocked⟩ := List.any_eq_true.1 hany
    exact .inr ⟨fun hdue => hdue.1 n (mem_idsBelow.1 hn) (beq_iff_eq.1 hlocked), rfl⟩
  · have hfree : ∀ n < nodeCount, slotRow stateOffset nodeCount shm l n ≠ locked.toWord :=
      fun n hn hlocked => hany (List.any_eq_true.2 ⟨n, mem_idsBelow.2 hn, beq_iff_eq.2 hlocked⟩)
    cases hfind : (idsBelow nodeCount).find? fun nid =>
        readSlotState l nid nodeCount stateOffset shm == waiting.toWord with
    | none =>
        refine .inr ⟨fun hdue => ?_, rfl⟩
        obtain ⟨n, hn, hwaiting⟩ := hdue.2
        exact List.find?_eq_none.1 hfind n (mem_idsBelow.2 hn) (beq_iff_eq.2 hwaiting)
    | some n =>
        obtain ⟨hn, hwaiting, hfirst⟩ := find?_idsBelow_eq_some hfind
        exact .inl ⟨n, ⟨hfree, n, hn, beq_iff_eq.1 hwaiting⟩,
          ⟨hn, beq_iff_eq.1 hwaiting, fun k hk => beq_eq_false_iff_ne.1 (hfirst k hk)⟩, rfl⟩

/-- A due lock is granted to its first waiting node, and another lock is left alone. -/
lemma scanLock_due_cases (stateOffset : ShmOffset) (hcount : nodeCount ≤ maxNodeCount)
    (shm : ShmWords) (l : LockId) :
    (∃ n, Due nodeCount (slotRow stateOffset nodeCount shm l) ∧
        IsFirstWaiting nodeCount (slotRow stateOffset nodeCount shm l) n ∧
        (algorithm stateOffset).scanLock nodeCount l shm =
          (true, writeSlotState l n nodeCount stateOffset locked shm)) ∨
      ¬ Due nodeCount (slotRow stateOffset nodeCount shm l) ∧
        (algorithm stateOffset).scanLock nodeCount l shm = (false, shm) := by
  simp only [GlobalLockAlgorithm.scanLock, algorithm]
  obtain ⟨n, hdue, hfirst, hgrant⟩ | ⟨hnot, hgrant⟩ :=
    checkGrant_cases stateOffset nodeCount shm l
  · have hn : n ≠ invalidNodeId := ne_invalidNodeId hcount hfirst.1
    have hwaiting : readSlotState l n nodeCount stateOffset shm = waiting.toWord := hfirst.2.1
    refine .inl ⟨n, hdue, hfirst, ?_⟩
    simp only [hgrant, grantLock, hn, hwaiting, if_false, if_true, decide_true]
  · exact .inr ⟨hnot, by simp only [hgrant, if_true]⟩

end ScanLock

/-! ## The loop over the locks -/

section Loop

variable (stateOffset : ShmOffset) (nodeCount : UInt32)

/-- The due locks of a list. -/
def dueLocks (shm : ShmWords) (lids : List LockId) : List LockId :=
  lids.filter fun l => Due nodeCount (slotRow stateOffset nodeCount shm l)

/-- The loop has scanned the locks `lids`, from the words `shm` and the statistics `stats`. -/
structure ScannedUpTo (lids : List LockId) (stats : ManagerStats) (shm : ShmWords)
    (acc : Bool × ManagerStats × ShmWords) : Prop where
  slots : ∀ l < maxLockCount, ∀ n < nodeCount, slotRow stateOffset nodeCount acc.2.2 l n =
    if l ∈ lids then grantRow nodeCount (slotRow stateOffset nodeCount shm l) n
    else slotRow stateOffset nodeCount shm l n
  words : ∀ addr, (∀ l ∈ lids, ∀ n < nodeCount,
    addr ≠ getSlotOffset l n nodeCount stateOffset) → acc.2.2 addr = shm addr
  anyWork : acc.1 = true ↔ dueLocks stateOffset nodeCount shm lids ≠ []
  total : acc.2.1.grantsTotal =
    stats.grantsTotal + UInt64.ofNat (dueLocks stateOffset nodeCount shm lids).length
  byLock : ∀ l, acc.2.1.grantsByLock l = stats.grantsByLock l +
    if l ∈ dueLocks stateOffset nodeCount shm lids then 1 else 0
  scanCycles : acc.2.1.scanCycles = stats.scanCycles
  idleCycles : acc.2.1.idleCycles = stats.idleCycles

variable {stateOffset nodeCount} {lids : List LockId} {stats : ManagerStats} {shm : ShmWords}
  {acc : Bool × ManagerStats × ShmWords} {l : LockId} {n : NodeId}

lemma ScannedUpTo.nil : ScannedUpTo stateOffset nodeCount [] stats shm (false, stats, shm) where
  slots _ _ _ _ := by simp
  words _ _ := rfl
  anyWork := by simp [dueLocks]
  total := by simp [dueLocks]
  byLock _ := by simp [dueLocks]
  scanCycles := rfl
  idleCycles := rfl

lemma dueLocks_concat_of_due (h : Due nodeCount (slotRow stateOffset nodeCount shm l)) :
    dueLocks stateOffset nodeCount shm (lids ++ [l]) =
      dueLocks stateOffset nodeCount shm lids ++ [l] := by
  simp [dueLocks, h]

lemma dueLocks_concat_of_not_due (h : ¬ Due nodeCount (slotRow stateOffset nodeCount shm l)) :
    dueLocks stateOffset nodeCount shm (lids ++ [l]) =
      dueLocks stateOffset nodeCount shm lids := by
  simp [dueLocks, h]

/-- The store of a grant, as the rows see it. -/
lemma slotRow_grant (hcount : nodeCount ≤ maxNodeCount) (hl : l < maxLockCount)
    (hn : n < nodeCount) {j : LockId} (hj : j < maxLockCount) {k : NodeId} (hk : k < nodeCount) :
    slotRow stateOffset nodeCount (writeSlotState l n nodeCount stateOffset locked shm) j k =
      if j = l ∧ k = n then locked.toWord else slotRow stateOffset nodeCount shm j k :=
  readSlotState_write hcount hl hn hj hk stateOffset locked shm

/-- One more turn.  The row of the new lock is as the scan has found it, so that the turn sees
what is due. -/
lemma ScannedUpTo.step (hcount : nodeCount ≤ maxNodeCount)
    (h : ScannedUpTo stateOffset nodeCount lids stats shm acc) (hl : l < maxLockCount)
    (hnew : l ∉ lids) :
    ScannedUpTo stateOffset nodeCount (lids ++ [l]) stats shm
      ((algorithm stateOffset).scanStep nodeCount acc l) := by
  have hrow : ∀ n < nodeCount, slotRow stateOffset nodeCount acc.2.2 l n =
      slotRow stateOffset nodeCount shm l n := fun n hn => by
    rw [h.slots l hl n hn, if_neg hnew]
  have hmem : ∀ j, j ∈ lids ++ [l] ↔ j ∈ lids ∨ j = l := fun j => by simp
  have hcount' : l ∉ dueLocks stateOffset nodeCount shm lids := fun hdue =>
    hnew (List.mem_filter.1 hdue).1
  obtain ⟨n, hdue, hfirst, hscan⟩ | ⟨hnot, hscan⟩ :=
    scanLock_due_cases stateOffset hcount acc.2.2 l
  · rw [due_congr hrow] at hdue
    rw [isFirstWaiting_congr hrow] at hfirst
    simp only [GlobalLockAlgorithm.scanStep, hscan, if_true]
    refine ⟨fun j hj k hk => ?_, fun addr haddr => ?_, ?_, ?_, fun j => ?_, h.scanCycles,
      h.idleCycles⟩
    · rw [slotRow_grant hcount hl hfirst.1 hj hk]
      by_cases hjl : j = l
      · subst hjl
        rw [if_pos ((hmem j).2 (.inr rfl)), grantRow_of_first hdue hfirst, hrow k hk]
        simp
      · rw [if_neg fun hslot => hjl hslot.1, h.slots j hj k hk]
        exact if_congr (by simp [hmem, hjl]) rfl rfl
    · have hother := haddr l ((hmem l).2 (.inr rfl)) n hfirst.1
      refine (Function.update_of_ne hother _ _).trans ?_
      exact h.words addr fun j hj => haddr j ((hmem j).2 (.inl hj))
    · simp [dueLocks_concat_of_due hdue]
    · rw [dueLocks_concat_of_due hdue, List.length_append, List.length_singleton,
        UInt64.ofNat_add, ← UInt64.add_assoc, h.total]
      rfl
    · dsimp only
      rw [dueLocks_concat_of_due hdue, Function.update_apply]
      by_cases hjl : j = l
      · subst hjl
        simp [h.byLock, hcount']
      · simp [h.byLock, hjl]
  · rw [due_congr hrow] at hnot
    have hstep : (algorithm stateOffset).scanStep nodeCount acc l = acc := by
      simp only [GlobalLockAlgorithm.scanStep, hscan, Bool.false_eq_true, if_false]
    rw [hstep]
    refine ⟨fun j hj k hk => ?_, fun addr haddr => ?_, ?_, ?_, ?_, h.scanCycles, h.idleCycles⟩
    · rw [h.slots j hj k hk]
      by_cases hjl : j = l
      · subst hjl
        rw [if_neg hnew, if_pos ((hmem j).2 (.inr rfl)), grantRow_of_not_due hnot]
      · exact if_congr (by simp [hmem, hjl]) rfl rfl
    · exact h.words addr fun j hj => haddr j ((hmem j).2 (.inl hj))
    · rw [dueLocks_concat_of_not_due hnot, h.anyWork]
    · rw [dueLocks_concat_of_not_due hnot, h.total]
    · rw [dueLocks_concat_of_not_due hnot]
      exact h.byLock

/-- The whole loop. -/
lemma scannedUpTo_foldl (stateOffset : ShmOffset) (hcount : nodeCount ≤ maxNodeCount)
    (lids : List LockId) (hlids : ∀ l ∈ lids, l < maxLockCount) (hnodup : lids.Nodup)
    (stats : ManagerStats) (shm : ShmWords) : ScannedUpTo stateOffset nodeCount lids stats shm
      (lids.foldl ((algorithm stateOffset).scanStep nodeCount) (false, stats, shm)) := by
  induction lids using List.reverseRecOn with
  | nil => exact .nil
  | append_singleton lids l ih =>
      have hnew : l ∉ lids := fun hl =>
        (List.nodup_append.1 hnodup).2.2 l hl l (List.mem_singleton_self l) rfl
      rw [List.foldl_append, List.foldl_cons, List.foldl_nil]
      exact (ih (fun j hj => hlids j (List.mem_append_left _ hj))
        (List.nodup_append.1 hnodup).1).step hcount (hlids l (by simp)) hnew

end Loop

/-! ## One scan, and scan after scan -/

section Scan

variable (size : SystemSize) (stateOffset : ShmOffset)

/-- The locks of the system that are due. -/
def dueLocksOf (shm : ShmWords) : List LockId :=
  dueLocks stateOffset size.nodeCount shm (idsBelow size.maxLocks)

/-- What one scan has to do to the slots and to the statistics. -/
structure ScanIsExact (stats stats' : ManagerStats) (shm shm' : ShmWords) : Prop where
  slots : ∀ l < maxLockCount, ∀ n < size.nodeCount,
    readSlotState l n size.nodeCount stateOffset shm' =
      if l < size.maxLocks ∧ Due size.nodeCount (slotRow stateOffset size.nodeCount shm l) ∧
        IsFirstWaiting size.nodeCount (slotRow stateOffset size.nodeCount shm l) n
      then locked.toWord else readSlotState l n size.nodeCount stateOffset shm
  /-- What is not a slot of one of the locks is not touched. -/
  words : ∀ addr, (∀ l < size.maxLocks, ∀ n < size.nodeCount,
    addr ≠ getSlotOffset l n size.nodeCount stateOffset) → shm' addr = shm addr
  grantsByLock : ∀ l, stats'.grantsByLock l = stats.grantsByLock l +
    if l < size.maxLocks ∧ Due size.nodeCount (slotRow stateOffset size.nodeCount shm l)
    then 1 else 0
  grantsTotal : stats'.grantsTotal =
    stats.grantsTotal + UInt64.ofNat (dueLocksOf size stateOffset shm).length
  scanCycles : stats'.scanCycles = stats.scanCycles + 1
  idleCycles : stats'.idleCycles = stats.idleCycles +
    if ∃ l < size.maxLocks, Due size.nodeCount (slotRow stateOffset size.nodeCount shm l)
    then 0 else 1

/-- The statistics after scans that find the given contents, from zeroed statistics.  What the
nodes do between two scans is in the contents. -/
def statsAfter (contents : List ShmWords) : ManagerStats :=
  contents.foldl (fun stats shm => ((algorithm stateOffset).runSingleScan size stats shm).1) {}

variable {size stateOffset}

lemma mem_dueLocksOf {shm : ShmWords} {l : LockId} : l ∈ dueLocksOf size stateOffset shm ↔
    l < size.maxLocks ∧ Due size.nodeCount (slotRow stateOffset size.nodeCount shm l) := by
  simp [dueLocksOf, dueLocks, mem_idsBelow]

lemma nodup_idsBelow (count : UInt32) : (idsBelow count).Nodup :=
  (pairwise_idsBelow count).imp fun h => UInt32.ne_of_lt h

lemma runSingleScan_exact (size : SystemSize) (stateOffset : ShmOffset) (stats : ManagerStats)
    (shm : ShmWords) :
    ScanIsExact size stateOffset stats ((algorithm stateOffset).runSingleScan size stats shm).1
      shm ((algorithm stateOffset).runSingleScan size stats shm).2 := by
  have h := scannedUpTo_foldl stateOffset size.nodeCount_le
    (idsBelow size.maxLocks) (fun l hl => size.lock_lt (mem_idsBelow.1 hl))
    (nodup_idsBelow _) stats shm
  generalize hacc : (idsBelow size.maxLocks).foldl
    ((algorithm stateOffset).scanStep size.nodeCount) (false, stats, shm) = acc at h
  have hidle : acc.1 = true ↔
      ∃ l < size.maxLocks, Due size.nodeCount (slotRow stateOffset size.nodeCount shm l) := by
    rw [h.anyWork, ← dueLocksOf]
    constructor
    · intro hne
      obtain ⟨l, hl⟩ := List.exists_mem_of_ne_nil _ hne
      exact ⟨l, mem_dueLocksOf.1 hl⟩
    · rintro ⟨l, hl⟩
      exact List.ne_nil_of_mem (mem_dueLocksOf.2 hl)
  have hrun : (algorithm stateOffset).runSingleScan size stats shm =
      (if acc.1 then { acc.2.1 with scanCycles := acc.2.1.scanCycles + 1 }
        else { acc.2.1 with
          scanCycles := acc.2.1.scanCycles + 1, idleCycles := acc.2.1.idleCycles + 1 },
        acc.2.2) := by
    rw [← hacc]
    rfl
  rw [hrun]
  refine ⟨fun l hl n hn => ?_, fun addr haddr => ?_, fun l => ?_, ?_, ?_, ?_⟩
  · refine (h.slots l hl n hn).trans ?_
    by_cases hscanned : l < size.maxLocks
    · rw [if_pos (mem_idsBelow.2 hscanned)]
      exact if_congr (by simp [hscanned]) rfl rfl
    · rw [if_neg (mt mem_idsBelow.1 hscanned), if_neg fun hgrant => hscanned hgrant.1]
      rfl
  · exact h.words addr fun l hl => haddr l (mem_idsBelow.1 hl)
  · split <;> exact (h.byLock l).trans (by rw [← dueLocksOf, if_congr mem_dueLocksOf rfl rfl])
  · split <;> exact h.total
  · split <;> simp [h.scanCycles]
  · simp only [← hidle]
    split <;> simp_all [h.idleCycles]

/-- The number of scans that find the lock due. -/
def dueScans (size : SystemSize) (stateOffset : ShmOffset) (contents : List ShmWords)
    (l : LockId) : Nat :=
  contents.countP fun shm => Due size.nodeCount (slotRow stateOffset size.nodeCount shm l)

/-- The counters are the numbers of grants modulo `2 ^ 64`. -/
lemma statsAfter_eq (size : SystemSize) (stateOffset : ShmOffset) (contents : List ShmWords) :
    (statsAfter size stateOffset contents).grantsTotal = UInt64.ofNat
        (contents.map fun shm => (dueLocksOf size stateOffset shm).length).sum ∧
      ∀ l < size.maxLocks, (statsAfter size stateOffset contents).grantsByLock l =
        UInt64.ofNat (dueScans size stateOffset contents l) := by
  induction contents using List.reverseRecOn with
  | nil => exact ⟨rfl, fun _ _ => rfl⟩
  | append_singleton contents shm ih =>
      have hscan := runSingleScan_exact size stateOffset (statsAfter size stateOffset contents) shm
      rw [statsAfter, List.foldl_append, List.foldl_cons, List.foldl_nil, ← statsAfter]
      refine ⟨?_, fun l hl => ?_⟩
      · rw [hscan.grantsTotal, ih.1, ← UInt64.ofNat_add, List.map_append, List.sum_append]
        simp
      · have hconcat : dueScans size stateOffset (contents ++ [shm]) l =
            dueScans size stateOffset contents l +
              if Due size.nodeCount (slotRow stateOffset size.nodeCount shm l) then 1 else 0 := by
          simp [dueScans, List.countP_append, List.countP_singleton]
        rw [hscan.grantsByLock, ih.2 l hl, hconcat, UInt64.ofNat_add]
        simp only [hl, true_and]
        split <;> rfl

/-- A count as a sum over the list. -/
lemma sum_map_indicator (p : LockId → Prop) [DecidablePred p] (lids : List LockId) :
    (lids.map fun l => if p l then 1 else 0).sum = (lids.filter p).length := by
  induction lids with
  | nil => rfl
  | cons l lids ih =>
      rw [List.map_cons, List.sum_cons, ih, List.filter_cons]
      by_cases hl : p l
      · simp [hl, Nat.add_comm]
      · simp [hl]

/-- Counted lock by lock or scan by scan, the grants are the same. -/
lemma sum_dueScans (size : SystemSize) (stateOffset : ShmOffset) (contents : List ShmWords) :
    ((idsBelow size.maxLocks).map (dueScans size stateOffset contents)).sum =
      (contents.map fun shm => (dueLocksOf size stateOffset shm).length).sum := by
  induction contents with
  | nil => exact List.sum_eq_zero (by simp [dueScans])
  | cons shm contents ih =>
      have hcons : dueScans size stateOffset (shm :: contents) = fun l =>
          dueScans size stateOffset contents l +
            if Due size.nodeCount (slotRow stateOffset size.nodeCount shm l) then 1 else 0 := by
        funext l
        simp [dueScans, List.countP_cons]
      rw [hcons, List.sum_map_add, ih, sum_map_indicator, List.map_cons, List.sum_cons,
        Nat.add_comm]
      rfl

/-- **A scan makes exactly the due grants**: whatever the slots hold, each due lock is granted to
its first waiting node, nothing else changes, and the statistics count the grants, so that after
any scans the total is the sum over the locks as long as the counters fit. -/
theorem cas_scan_exact (size : SystemSize) (stateOffset : ShmOffset) :
    (∀ stats shm, ScanIsExact size stateOffset stats
        ((algorithm stateOffset).runSingleScan size stats shm).1 shm
        ((algorithm stateOffset).runSingleScan size stats shm).2) ∧
      ∀ contents : List ShmWords,
        (contents.map fun shm => (dueLocksOf size stateOffset shm).length).sum < 2 ^ 64 →
        (statsAfter size stateOffset contents).grantsTotal.toNat =
          ((idsBelow size.maxLocks).map fun l =>
            ((statsAfter size stateOffset contents).grantsByLock l).toNat).sum := by
  refine ⟨runSingleScan_exact size stateOffset, fun contents hfits => ?_⟩
  have hstats := statsAfter_eq size stateOffset contents
  have hsum := sum_dueScans size stateOffset contents
  rw [hstats.1, UInt64.toNat_ofNat_of_lt' hfits, ← hsum]
  refine congrArg List.sum (List.map_congr_left fun l hl => ?_)
  have hle : dueScans size stateOffset contents l ≤
      ((idsBelow size.maxLocks).map (dueScans size stateOffset contents)).sum :=
    List.le_sum_of_mem (List.mem_map_of_mem hl)
  rw [hstats.2 l (mem_idsBelow.1 hl), UInt64.toNat_ofNat_of_lt' (hle.trans_lt (hsum ▸ hfits))]

/-- Two nodes and two locks, and a memory in which node 1 waits for lock 0. -/
def oneWaiting : ShmWords :=
  writeSlotState 0 1 2 0 waiting fun _ => 0

theorem cas_scan_exact_twice :
    (∀ stats shm, ScanIsExact (.of 2 2) 0 stats
        ((algorithm 0).runSingleScan (.of 2 2) stats shm).1 shm
        ((algorithm 0).runSingleScan (.of 2 2) stats shm).2) ∧
      (statsAfter (.of 2 2) 0 [oneWaiting, oneWaiting]).grantsTotal.toNat =
        ((idsBelow 2).map fun l =>
          ((statsAfter (.of 2 2) 0 [oneWaiting, oneWaiting]).grantsByLock l).toNat).sum :=
  ⟨(cas_scan_exact (.of 2 2) 0).1,
    (cas_scan_exact (.of 2 2) 0).2 [oneWaiting, oneWaiting] (by decide)⟩

end Scan

end Cas

end CxlLock

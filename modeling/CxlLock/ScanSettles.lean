import CxlLock.Cas.Scan
import CxlLock.Faa.Requests
import CxlLock.Qspinlock.GlobalLock
import CxlLock.TwoTierRelease

/-!
# One scan is enough (`lock_manager.cpp`)

`run` scans again and again, with a pause in between.  What it does for a lock in one turn leaves
nothing to do for this lock, and what it does for another one does not change that, so right after
a scan the next one finds nothing: it leaves the records as they are and counts as idle
(`scan_settles`).  This holds for each of the four algorithms and for any records, also for those
that no run of the system reaches.

What the algorithms have to do with it is `Settles`: a turn settles its lock, and a turn for
another lock keeps it settled.
-/

namespace CxlLock

namespace GlobalLockAlgorithm

variable {Shm : Type}

/-- A turn of the scan for the lock finds nothing to do. -/
def Settled (alg : GlobalLockAlgorithm Shm) (size : SystemSize) (l : LockId) (shm : Shm) : Prop :=
  alg.scanLock size.nodeCount l shm = (false, shm)

/-- What an algorithm has to say about the turns of the scan. -/
structure Settles (alg : GlobalLockAlgorithm Shm) (size : SystemSize) : Prop where
  own : ∀ l < size.maxLocks, ∀ shm, alg.Settled size l (alg.scanLock size.nodeCount l shm).2
  other : ∀ l < size.maxLocks, ∀ j < size.maxLocks, j ≠ l → ∀ shm, alg.Settled size l shm →
    alg.Settled size l (alg.scanLock size.nodeCount j shm).2

variable {alg : GlobalLockAlgorithm Shm} {size : SystemSize} {l j : LockId} {shm : Shm}

/-- A lock stays settled. -/
lemma Settles.turn (h : alg.Settles size) (hl : l < size.maxLocks) (hj : j < size.maxLocks)
    (hs : alg.Settled size l shm) : alg.Settled size l (alg.scanLock size.nodeCount j shm).2 := by
  by_cases hjl : j = l
  · rw [hjl, show alg.scanLock size.nodeCount l shm = (false, shm) from hs]
    exact hs
  · exact h.other l hl j hj hjl shm hs

/-- The turns of a scan settle their locks. -/
lemma Settles.foldl (h : alg.Settles size) {lids : List LockId}
    (hlids : ∀ j ∈ lids, j < size.maxLocks) (hl : l < size.maxLocks)
    (hs : l ∈ lids ∨ alg.Settled size l shm) :
    alg.Settled size l (lids.foldl (fun shm j => (alg.scanLock size.nodeCount j shm).2) shm) := by
  induction lids generalizing shm with
  | nil => exact hs.resolve_left (List.not_mem_nil)
  | cons j lids ih =>
      have hj := hlids j (List.mem_cons_self ..)
      refine ih (fun k hk => hlids k (List.mem_cons_of_mem _ hk)) ?_
      rcases hs with hmem | hs
      · rcases List.mem_cons.1 hmem with rfl | hmem
        · exact .inr (h.own l hl shm)
        · exact .inl hmem
      · exact .inr (h.turn hl hj hs)

/-- After a scan every lock is settled. -/
lemma Settles.settled_of_scan (h : alg.Settles size) (hl : l < size.maxLocks)
    (stats : ManagerStats) (shm : Shm) :
    alg.Settled size l (alg.runSingleScan size stats shm).2 := by
  rw [runSingleScan_shm]
  exact h.foldl (fun j hj => mem_idsBelow.1 hj) hl (.inl (mem_idsBelow.2 hl))

/-- A scan of settled locks. -/
lemma runSingleScan_of_settled (hs : ∀ l < size.maxLocks, alg.Settled size l shm)
    (stats : ManagerStats) : alg.runSingleScan size stats shm =
      ({ stats with scanCycles := stats.scanCycles + 1, idleCycles := stats.idleCycles + 1 },
        shm) := by
  have hfold : ∀ lids : List LockId, (∀ j ∈ lids, j < size.maxLocks) →
      lids.foldl (alg.scanStep size.nodeCount) (false, stats, shm) = (false, stats, shm) := by
    intro lids hlids
    induction lids with
    | nil => rfl
    | cons j lids ih =>
        have hj : alg.scanLock size.nodeCount j shm = (false, shm) :=
          hs j (hlids j (List.mem_cons_self ..))
        have hstep : alg.scanStep size.nodeCount (false, stats, shm) j = (false, stats, shm) := by
          simp only [scanStep, hj, Bool.false_eq_true, if_false]
        rw [List.foldl_cons, hstep]
        exact ih fun k hk => hlids k (List.mem_cons_of_mem _ hk)
  unfold runSingleScan
  rw [hfold _ fun j hj => mem_idsBelow.1 hj]
  rfl

end GlobalLockAlgorithm

open GlobalLockAlgorithm

variable {size : SystemSize} {l j : LockId}

/-! ## MCS -/

namespace Mcs

variable {shm : McsShm}

/-- A turn of the scan does nothing, or grants the lock to the head of its queue. -/
lemma scanLock_eq (hl : l < size.maxLocks) (shm : McsShm) :
    checkGrant size.nodeCount l shm = invalidNodeId ∧
        algorithm.scanLock size.nodeCount l shm = (false, shm) ∨
      ∃ h < size.nodeCount, checkGrant size.nodeCount l shm = h ∧
        algorithm.scanLock size.nodeCount l shm =
          (true, (shm.storeLocked h 2).storeOwner l h) := by
  by_cases hinv : checkGrant size.nodeCount l shm = invalidNodeId
  · exact .inl ⟨hinv, by simp [scanLock, algorithm, hinv]⟩
  obtain ⟨-, hhead, hlt, -⟩ := checkGrant_spec hinv
  refine .inr ⟨_, hlt, hhead, ?_⟩
  simp [scanLock, algorithm, hhead, size.node_ne_invalid hlt, grantLock,
    paramError_eq_false size.nodeCount_le hlt (size.lock_lt hl)]

lemma settled_iff (hl : l < size.maxLocks) :
    algorithm.Settled size l shm ↔ checkGrant size.nodeCount l shm = invalidNodeId := by
  unfold Settled
  rcases scanLock_eq hl shm with ⟨hinv, hscan⟩ | ⟨h, hlt, hh, hscan⟩
  · simp [hinv, hscan]
  · simp [hh, hscan, size.node_ne_invalid hlt]

/-- The store of a grant to `locked` lets no node wait for another lock. -/
lemma checkGrant_of_grant (hl : l < size.maxLocks) (n : NodeId) (hjl : j ≠ l)
    (hnone : checkGrant size.nodeCount l shm = invalidNodeId) :
    checkGrant size.nodeCount l ((shm.storeLocked n 2).storeOwner j n) = invalidNodeId := by
  by_contra hsome
  obtain ⟨howner, -, hlt, hlocked, hwait⟩ := checkGrant_spec hsome
  simp only [McsShm.storeOwner_ownerNode, McsShm.storeOwner_headNode, McsShm.storeOwner_node,
    McsShm.storeLocked_entry, McsShm.storeLocked_locked, McsShm.storeLocked_waitingLock,
    Ne.symm hjl, if_false] at howner hlt hlocked hwait
  have hlocked' : (shm.node (shm.entry l).headNode).locked = 1 := by
    split_ifs at hlocked
    · exact absurd hlocked (by decide)
    · exact hlocked
  refine size.node_ne_invalid hlt ?_
  rw [← hnone]
  simp [checkGrant, size.nodeCount_ne_zero, UInt32.not_le.2 (size.lock_lt hl), howner,
    UInt32.not_le.2 hlt, hlocked', hwait]

lemma settles (size : SystemSize) : algorithm.Settles size where
  own l hl shm := by
    rcases scanLock_eq hl shm with ⟨-, hscan⟩ | ⟨h, hlt, -, hscan⟩
    · rw [hscan]
      exact hscan
    · rw [hscan, settled_iff hl]
      simp [checkGrant, size.node_ne_invalid hlt]
  other l hl j hj hjl shm hs := by
    rcases scanLock_eq hj shm with ⟨-, hscan⟩ | ⟨h, -, -, hscan⟩
    · rw [hscan]
      exact hs
    · rw [hscan, settled_iff hl]
      exact checkGrant_of_grant hl h hjl ((settled_iff hl).1 hs)

end Mcs

/-! ## Tickets -/

namespace Faa

variable {shm : FaaShm}

/-- A turn of the scan does nothing, or grants the lock to the node that it has found. -/
lemma scanLock_eq (size : SystemSize) (l : LockId) (shm : FaaShm) :
    checkGrant size.nodeCount l shm = invalidNodeId ∧
        algorithm.scanLock size.nodeCount l shm = (false, shm) ∨
      ∃ n, n ≠ invalidNodeId ∧ checkGrant size.nodeCount l shm = n ∧
        algorithm.scanLock size.nodeCount l shm =
          (true, (shm.storeOwner l n).storeServing l (shm.ticket n).ticket) := by
  by_cases hinv : checkGrant size.nodeCount l shm = invalidNodeId
  · exact .inl ⟨hinv, by simp [scanLock, algorithm, hinv]⟩
  · exact .inr ⟨_, hinv, rfl, by simp [scanLock, algorithm, hinv, grantLock]⟩

lemma settled_iff :
    algorithm.Settled size l shm ↔ checkGrant size.nodeCount l shm = invalidNodeId := by
  unfold Settled
  rcases scanLock_eq size l shm with ⟨hinv, hscan⟩ | ⟨n, hn, hcheck, hscan⟩
  · simp [hinv, hscan]
  · simp [hcheck, hscan, hn]

lemma settles (size : SystemSize) : algorithm.Settles size where
  own l hl shm := by
    rcases scanLock_eq size l shm with ⟨-, hscan⟩ | ⟨n, hn, -, hscan⟩
    · rw [hscan]
      exact hscan
    · rw [hscan, settled_iff]
      simp [checkGrant, hn]
  other l hl j hj hjl shm hs := by
    rcases scanLock_eq size j shm with ⟨-, hscan⟩ | ⟨n, -, -, hscan⟩
    · rw [hscan]
      exact hs
    · rw [hscan, settled_iff]
      -- the owner and the tickets are as before
      refine (checkGrant_congr size.nodeCount ?_ ?_).trans (settled_iff.1 hs)
      · simp [Ne.symm hjl]
      · simp

end Faa

/-! ## The slot table -/

namespace Cas

variable {stateOffset : ShmOffset} {shm : ShmWords}

lemma settled_iff : (algorithm stateOffset).Settled size l shm ↔
    ¬ Due size.nodeCount (slotRow stateOffset size.nodeCount shm l) := by
  unfold Settled
  obtain ⟨n, hdue, -, hscan⟩ | ⟨hnot, hscan⟩ :=
    scanLock_due_cases stateOffset size.nodeCount_le shm l
  · simp [hscan, hdue]
  · simp [hscan, hnot]

lemma settles (stateOffset : ShmOffset) (size : SystemSize) :
    (algorithm stateOffset).Settles size where
  own l hl shm := by
    obtain ⟨n, -, hfirst, hscan⟩ | ⟨-, hscan⟩ :=
      scanLock_due_cases stateOffset size.nodeCount_le shm l
    · rw [hscan, settled_iff]
      intro hdue
      refine hdue.1 n hfirst.1 ?_
      rw [slotRow_grant size.nodeCount_le (size.lock_lt hl) hfirst.1 (size.lock_lt hl) hfirst.1]
      exact if_pos ⟨rfl, rfl⟩
    · rw [hscan]
      exact hscan
  other l hl j hj hjl shm hs := by
    obtain ⟨n, -, hfirst, hscan⟩ | ⟨-, hscan⟩ :=
      scanLock_due_cases stateOffset size.nodeCount_le shm j
    · have hrow : ∀ k < size.nodeCount,
          slotRow stateOffset size.nodeCount
            (writeSlotState j n size.nodeCount stateOffset .locked shm) l k =
          slotRow stateOffset size.nodeCount shm l k := fun k hk => by
        rw [slotRow_grant size.nodeCount_le (size.lock_lt hj) hfirst.1 (size.lock_lt hl) hk]
        exact if_neg fun hslot => hjl hslot.1.symm
      rw [hscan, settled_iff, due_congr hrow]
      exact settled_iff.1 hs
    · rw [hscan]
      exact hs

end Cas

/-! ## The qspinlock -/

namespace Qspinlock

variable {shm : QspinShm}

/-- A turn of the scan does nothing, or grants the lock to the head of its queue. -/
lemma scanLock_eq (hl : l < size.maxLocks) (shm : QspinShm) :
    (checkGrant size.nodeCount l shm).1 = invalidNodeId ∧
        algorithm.scanLock size.nodeCount l shm = (false, shm) ∨
      ∃ h < size.nodeCount, (checkGrant size.nodeCount l shm).1 = h ∧
        algorithm.scanLock size.nodeCount l shm = (true, grantStores (shm.storeGip l 1) h l) := by
  by_cases hinv : (checkGrant size.nodeCount l shm).1 = invalidNodeId
  · exact .inl ⟨hinv, by simp [scanLock, algorithm, hinv, checkGrant_none]⟩
  obtain ⟨-, -, -, hlt, -, -, hcheck⟩ := checkGrant_spec hinv
  refine .inr ⟨_, hlt, by rw [hcheck], ?_⟩
  simp [scanLock, algorithm, hcheck, size.node_ne_invalid hlt, grantLock,
    paramError_eq_false size.nodeCount_le hlt (size.lock_lt hl)]

lemma settled_iff (hl : l < size.maxLocks) :
    algorithm.Settled size l shm ↔ (checkGrant size.nodeCount l shm).1 = invalidNodeId := by
  unfold Settled
  rcases scanLock_eq hl shm with ⟨hinv, hscan⟩ | ⟨h, hlt, hh, hscan⟩
  · simp [hinv, hscan]
  · simp [hh, hscan, size.node_ne_invalid hlt]

/-- The stores of a grant let no node wait for another lock. -/
lemma checkGrant_of_grant (hl : l < size.maxLocks) (n : NodeId) (hjl : j ≠ l)
    (hnone : (checkGrant size.nodeCount l shm).1 = invalidNodeId) :
    (checkGrant size.nodeCount l (grantStores (shm.storeGip j 1) n j)).1 = invalidNodeId := by
  by_contra hsome
  obtain ⟨hword, htail, hgip, hlt, hlocked, hwait, -⟩ := checkGrant_spec hsome
  have hentry : (grantStores (shm.storeGip j 1) n j).entry l = shm.entry l := by
    simp [grantStores, QspinShm.storeLocked, QspinShm.storeOwner, QspinShm.storeWord,
      QspinShm.storePending, QspinShm.storeGip, Ne.symm hjl]
  rw [hentry] at hword htail hgip hlt hlocked hwait
  simp only [grantStores_locked, grantStores_waitingLock, QspinShm.storeGip_node] at hlocked hwait
  have hlocked' : (shm.node (shm.entry l).pendingTail).locked = 1 := by
    split_ifs at hlocked
    · exact absurd hlocked (by decide)
    · exact hlocked
  refine size.node_ne_invalid hlt ?_
  rw [← hnone]
  simp [checkGrant, size.nodeCount_ne_zero, UInt32.not_le.2 (size.lock_lt hl), hword, htail, hgip,
    size.node_ne_invalid hlt, UInt32.not_le.2 hlt, hlocked', hwait]

lemma settles (size : SystemSize) : algorithm.Settles size where
  own l hl shm := by
    rcases scanLock_eq hl shm with ⟨-, hscan⟩ | ⟨h, -, -, hscan⟩
    · rw [hscan]
      exact hscan
    · rw [hscan, settled_iff hl]
      simp [checkGrant, qspinLocked_heldWord]
  other l hl j hj hjl shm hs := by
    rcases scanLock_eq hj shm with ⟨-, hscan⟩ | ⟨h, -, -, hscan⟩
    · rw [hscan]
      exact hs
    · rw [hscan, settled_iff hl]
      exact checkGrant_of_grant hl h hjl ((settled_iff hl).1 hs)

end Qspinlock

lemma LockAlgorithm.settles (k : LockAlgorithm) (stateOffset : ShmOffset) (size : SystemSize) :
    (k.algorithmAt stateOffset).Settles size :=
  match k with
  | .cas => Cas.settles stateOffset size
  | .faa => Faa.settles size
  | .mcs => Mcs.settles size
  | .qspinlock => Qspinlock.settles size

/-- **One scan is enough.**  Under each algorithm, and whatever the records hold, a scan right
after another one leaves the records as they are and counts as idle. -/
theorem scan_settles (k : LockAlgorithm) (stateOffset : ShmOffset) (size : SystemSize)
    (stats stats' : ManagerStats) (shm : k.Shm) :
    (k.algorithmAt stateOffset).runSingleScan size stats'
        ((k.algorithmAt stateOffset).runSingleScan size stats shm).2 =
      ({ stats' with
          scanCycles := stats'.scanCycles + 1
          idleCycles := stats'.idleCycles + 1 },
        ((k.algorithmAt stateOffset).runSingleScan size stats shm).2) :=
  runSingleScan_of_settled
    (fun _ hl => (k.settles stateOffset size).settled_of_scan hl stats shm) stats'

end CxlLock

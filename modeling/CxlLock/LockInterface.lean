import CxlLock.Types

/-!
# The plugin interface and the lock manager's scan

`GlobalLockAlgorithm` is the abstract class of `lock_interface.h`, over the type `Shm` of the
shared-memory records the algorithm works on; every operation takes the records and returns
them.  The member `node_count_`, set once by `initialize`, is passed as an argument.  A call
here is one whole call without interference from other parties; the interleaved models of
the four algorithms split the same functions into single accesses.

`flush_cache` and `memory_fence` change no value in a sequentially consistent memory, so
they do not appear.  A `releaseLock` that waits in a loop for another party to store
something does not return when nobody else moves; it is `none` then.

The test of `TwoTierLock::poll_for_grant` is chosen by the concrete type of the algorithm in
the source and is a member here.
-/

namespace CxlLock

/-- `GlobalLockAlgorithm`: the operations of a global lock algorithm. -/
structure GlobalLockAlgorithm (Shm : Type) where
  /-- `initialize`: write the initial records. -/
  initializeShm (nodeCount : UInt32) (shm : Shm) : LockResult × Shm
  /-- Request the lock for a node. -/
  acquireLock (nodeCount : UInt32) (nodeId : NodeId) (lockId : LockId) (shm : Shm) :
    LockResult × Shm
  /-- Give the lock back, or withdraw a request. -/
  releaseLock (nodeCount : UInt32) (nodeId : NodeId) (lockId : LockId) (shm : Shm) :
    Option (LockResult × Shm)
  /-- The node to be granted the lock next, or `invalidNodeId`. -/
  checkGrant (nodeCount : UInt32) (lockId : LockId) (shm : Shm) : NodeId × Shm
  /-- Grant the lock to a node. -/
  grantLock (nodeCount : UInt32) (nodeId : NodeId) (lockId : LockId) (shm : Shm) :
    LockResult × Shm
  /-- The grant test of `poll_for_grant`. -/
  pollGranted (nodeCount : UInt32) (nodeId : NodeId) (lockId : LockId) (shm : Shm) : Bool

/-- The four global lock algorithms. -/
inductive LockAlgorithm
  | cas
  | faa
  | mcs
  | qspinlock
  deriving DecidableEq

/-- The algorithm that `Config::lock_algorithm` names. -/
def LockAlgorithm.ofName (name : String) : Option LockAlgorithm :=
  if name = "cas" ∨ name = "CAS" then some .cas
  else if name = "faa" ∨ name = "FAA" then some .faa
  else if name = "mcs" ∨ name = "MCS" then some .mcs
  else if name = "qspinlock" ∨ name = "QSPINLOCK" then some .qspinlock
  else none

/-! ## The scan of the lock manager (`lock_manager.cpp`) -/

/-- `LockManager::Stats`. -/
structure ManagerStats where
  grantsTotal : UInt64 := 0
  grantsByLock : LockId → UInt64 := fun _ => 0
  scanCycles : UInt64 := 0
  idleCycles : UInt64 := 0

namespace GlobalLockAlgorithm

variable {Shm : Type} (alg : GlobalLockAlgorithm Shm)

/-- The body of the loop in `run_single_scan` for one lock: `check_grant`, then `grant_lock`
of the node it returned.  The flag says whether a grant succeeded. -/
def scanLock (nodeCount : UInt32) (lid : LockId) (shm : Shm) : Bool × Shm :=
  let (grantee, shm) := alg.checkGrant nodeCount lid shm
  if grantee = invalidNodeId then (false, shm)
  else
    let (rc, shm) := alg.grantLock nodeCount grantee lid shm
    (decide (rc = .success), shm)

/-- One turn of the scan loop on the flag `any_work`, the statistics and the records. -/
def scanStep (nodeCount : UInt32) (acc : Bool × ManagerStats × Shm) (lid : LockId) :
    Bool × ManagerStats × Shm :=
  let (anyWork, stats, shm) := acc
  let (granted, shm) := alg.scanLock nodeCount lid shm
  if granted then
    (true, { stats with
        grantsTotal := stats.grantsTotal + 1
        grantsByLock := Function.update stats.grantsByLock lid (stats.grantsByLock lid + 1) },
      shm)
  else (anyWork, stats, shm)

/-- `LockManager::run_single_scan`. -/
def runSingleScan (size : SystemSize) (stats : ManagerStats) (shm : Shm) :
    ManagerStats × Shm :=
  let (anyWork, stats, shm) :=
    (idsBelow size.maxLocks).foldl (alg.scanStep size.nodeCount) (false, stats, shm)
  let stats := { stats with scanCycles := stats.scanCycles + 1 }
  (if anyWork then stats else { stats with idleCycles := stats.idleCycles + 1 }, shm)

lemma scanStep_shm (nodeCount : UInt32) (acc : Bool × ManagerStats × Shm) (lid : LockId) :
    (alg.scanStep nodeCount acc lid).2.2 = (alg.scanLock nodeCount lid acc.2.2).2 := by
  unfold scanStep
  dsimp only
  split <;> rfl

lemma foldl_scanStep_shm (nodeCount : UInt32) (lids : List LockId)
    (acc : Bool × ManagerStats × Shm) :
    (lids.foldl (alg.scanStep nodeCount) acc).2.2 =
      lids.foldl (fun shm lid => (alg.scanLock nodeCount lid shm).2) acc.2.2 := by
  induction lids generalizing acc with
  | nil => rfl
  | cons lid lids ih => rw [List.foldl_cons, List.foldl_cons, ih, scanStep_shm]

/-- What a scan does to the records: `scanLock` on each lock in turn. -/
lemma runSingleScan_shm (size : SystemSize) (stats : ManagerStats) (shm : Shm) :
    (alg.runSingleScan size stats shm).2 =
      (idsBelow size.maxLocks).foldl
        (fun shm lid => (alg.scanLock size.nodeCount lid shm).2) shm :=
  alg.foldl_scanStep_shm size.nodeCount (idsBelow size.maxLocks) (false, stats, shm)

end GlobalLockAlgorithm

end CxlLock

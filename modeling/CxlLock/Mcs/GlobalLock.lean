import CxlLock.LockInterface

/-!
# The MCS global lock (`mcs_global_lock.cpp`), whole calls

The shared records are the per-lock `McsLockEntry` and the per-node `McsNode`; every store of
the source is one of the `store…` functions below.  The operations are written as they run
when no other party interferes.  Two loops of the source end at once or not at all then:
the tail `compare_exchange` of `acquire_lock` succeeds at the latest after one reload, and
the wait of `release_lock` for a successor that is not yet linked does not end.
-/

namespace CxlLock

/-- Per-lock entry: tail and head of the queue and the current owner. -/
structure McsLockEntry where
  tailNode : NodeId
  headNode : NodeId
  ownerNode : NodeId
  deriving DecidableEq, Repr

/-- Per-node queue node, shared by the queues of all locks.  `locked` is 0 for idle or passed
on by the predecessor, 1 for waiting, 2 for granted by the lock manager. -/
structure McsNode where
  nextNode : NodeId
  locked : UInt32
  waitingLock : LockId
  deriving DecidableEq, Repr

/-- The shared records of the MCS lock. -/
structure McsShm where
  entry : LockId → McsLockEntry
  node : NodeId → McsNode

namespace McsShm

/-! ## Stores to single fields -/

def storeTail (s : McsShm) (l : LockId) (v : NodeId) : McsShm :=
  { s with entry := Function.update s.entry l { s.entry l with tailNode := v } }

def storeHead (s : McsShm) (l : LockId) (v : NodeId) : McsShm :=
  { s with entry := Function.update s.entry l { s.entry l with headNode := v } }

def storeOwner (s : McsShm) (l : LockId) (v : NodeId) : McsShm :=
  { s with entry := Function.update s.entry l { s.entry l with ownerNode := v } }

def storeNext (s : McsShm) (n : NodeId) (v : NodeId) : McsShm :=
  { s with node := Function.update s.node n { s.node n with nextNode := v } }

def storeLocked (s : McsShm) (n : NodeId) (v : UInt32) : McsShm :=
  { s with node := Function.update s.node n { s.node n with locked := v } }

def storeWaiting (s : McsShm) (n : NodeId) (v : LockId) : McsShm :=
  { s with node := Function.update s.node n { s.node n with waitingLock := v } }

section Fields

variable (s : McsShm) (l j : LockId) (n k v : NodeId) (w : UInt32)

@[simp] lemma storeTail_node : (s.storeTail l v).node = s.node := rfl
@[simp] lemma storeHead_node : (s.storeHead l v).node = s.node := rfl
@[simp] lemma storeOwner_node : (s.storeOwner l v).node = s.node := rfl
@[simp] lemma storeNext_entry : (s.storeNext n v).entry = s.entry := rfl
@[simp] lemma storeLocked_entry : (s.storeLocked n w).entry = s.entry := rfl
@[simp] lemma storeWaiting_entry : (s.storeWaiting n l).entry = s.entry := rfl

@[simp] lemma storeTail_tailNode :
    ((s.storeTail l v).entry j).tailNode = if j = l then v else (s.entry j).tailNode := by
  by_cases h : j = l <;> simp [storeTail, h]

@[simp] lemma storeTail_headNode :
    ((s.storeTail l v).entry j).headNode = (s.entry j).headNode := by
  by_cases h : j = l <;> simp [storeTail, h]

@[simp] lemma storeTail_ownerNode :
    ((s.storeTail l v).entry j).ownerNode = (s.entry j).ownerNode := by
  by_cases h : j = l <;> simp [storeTail, h]

@[simp] lemma storeHead_tailNode :
    ((s.storeHead l v).entry j).tailNode = (s.entry j).tailNode := by
  by_cases h : j = l <;> simp [storeHead, h]

@[simp] lemma storeHead_headNode :
    ((s.storeHead l v).entry j).headNode = if j = l then v else (s.entry j).headNode := by
  by_cases h : j = l <;> simp [storeHead, h]

@[simp] lemma storeHead_ownerNode :
    ((s.storeHead l v).entry j).ownerNode = (s.entry j).ownerNode := by
  by_cases h : j = l <;> simp [storeHead, h]

@[simp] lemma storeOwner_tailNode :
    ((s.storeOwner l v).entry j).tailNode = (s.entry j).tailNode := by
  by_cases h : j = l <;> simp [storeOwner, h]

@[simp] lemma storeOwner_headNode :
    ((s.storeOwner l v).entry j).headNode = (s.entry j).headNode := by
  by_cases h : j = l <;> simp [storeOwner, h]

@[simp] lemma storeOwner_ownerNode :
    ((s.storeOwner l v).entry j).ownerNode = if j = l then v else (s.entry j).ownerNode := by
  by_cases h : j = l <;> simp [storeOwner, h]

@[simp] lemma storeNext_nextNode :
    ((s.storeNext n v).node k).nextNode = if k = n then v else (s.node k).nextNode := by
  by_cases h : k = n <;> simp [storeNext, h]

@[simp] lemma storeNext_locked : ((s.storeNext n v).node k).locked = (s.node k).locked := by
  by_cases h : k = n <;> simp [storeNext, h]

@[simp] lemma storeNext_waitingLock :
    ((s.storeNext n v).node k).waitingLock = (s.node k).waitingLock := by
  by_cases h : k = n <;> simp [storeNext, h]

@[simp] lemma storeLocked_nextNode :
    ((s.storeLocked n w).node k).nextNode = (s.node k).nextNode := by
  by_cases h : k = n <;> simp [storeLocked, h]

@[simp] lemma storeLocked_locked :
    ((s.storeLocked n w).node k).locked = if k = n then w else (s.node k).locked := by
  by_cases h : k = n <;> simp [storeLocked, h]

@[simp] lemma storeLocked_waitingLock :
    ((s.storeLocked n w).node k).waitingLock = (s.node k).waitingLock := by
  by_cases h : k = n <;> simp [storeLocked, h]

@[simp] lemma storeWaiting_nextNode :
    ((s.storeWaiting n l).node k).nextNode = (s.node k).nextNode := by
  by_cases h : k = n <;> simp [storeWaiting, h]

@[simp] lemma storeWaiting_locked :
    ((s.storeWaiting n l).node k).locked = (s.node k).locked := by
  by_cases h : k = n <;> simp [storeWaiting, h]

@[simp] lemma storeWaiting_waitingLock :
    ((s.storeWaiting n l).node k).waitingLock =
      if k = n then l else (s.node k).waitingLock := by
  by_cases h : k = n <;> simp [storeWaiting, h]

end Fields

end McsShm

namespace Mcs

/-! ## The operations -/

/-- The parameter checks that open `acquire_lock`, `release_lock` and `grant_lock`; the null
check of the region is left out, since the model has no unmapped region. -/
def paramError (nodeCount : UInt32) (nodeId : NodeId) (lockId : LockId) : Bool :=
  nodeId == invalidNodeId || lockId ≥ maxLockCount || nodeId ≥ nodeCount

/-- `McsGlobalLockAlgorithm::initialize`.  The `memset` of the state region leaves
`next_node` and `locked` of the node records at zero. -/
def initializeShm (nodeCount : UInt32) (shm : McsShm) : LockResult × McsShm :=
  if nodeCount = 0 ∨ maxNodeCount < nodeCount then (.errorInvalidParam, shm)
  else
    (.success,
      { entry := fun lid =>
          if lid < maxLockCount then ⟨invalidNodeId, invalidNodeId, invalidNodeId⟩
          else shm.entry lid
        node := fun nid =>
          if nid < nodeCount then ⟨0, 0, invalidLockId⟩ else shm.node nid })

/-- `McsGlobalLockAlgorithm::acquire_lock`. -/
def acquireLock (nodeCount : UInt32) (nodeId : NodeId) (lockId : LockId) (shm : McsShm) :
    LockResult × McsShm :=
  if paramError nodeCount nodeId lockId then (.errorInvalidParam, shm)
  else
    let shm := ((shm.storeNext nodeId invalidNodeId).storeLocked nodeId 1).storeWaiting
      nodeId lockId
    let oldTail := (shm.entry lockId).tailNode
    -- the reload found our own id: the loop breaks without a store to the tail
    let shm := if oldTail = nodeId then shm else shm.storeTail lockId nodeId
    if oldTail = invalidNodeId then (.success, shm.storeHead lockId nodeId)
    else (.success, shm.storeNext oldTail nodeId)

/-- Reset of the caller's own record at the end of `release_lock`. -/
def resetNode (shm : McsShm) (nodeId : NodeId) : McsShm :=
  ((shm.storeNext nodeId invalidNodeId).storeLocked nodeId 0).storeWaiting nodeId
    invalidLockId

/-- The exit of `release_lock` that empties the queue. -/
def emptyQueue (shm : McsShm) (nodeId : NodeId) (lockId : LockId) : McsShm :=
  resetNode (((shm.storeTail lockId invalidNodeId).storeHead lockId invalidNodeId).storeOwner
    lockId invalidNodeId) nodeId

/-- The hand-over to the successor in `release_lock`. -/
def passLock (shm : McsShm) (nodeId : NodeId) (lockId : LockId) (succ : NodeId) : McsShm :=
  resetNode (((shm.storeHead lockId succ).storeOwner lockId succ).storeLocked succ 0) nodeId

/-- `McsGlobalLockAlgorithm::release_lock`; `none` when it waits for a successor that nobody
is going to link. -/
def releaseLock (nodeCount : UInt32) (nodeId : NodeId) (lockId : LockId) (shm : McsShm) :
    Option (LockResult × McsShm) :=
  if paramError nodeCount nodeId lockId then some (.errorInvalidParam, shm)
  else if (shm.entry lockId).ownerNode ≠ nodeId then some (.errorNotOwner, shm)
  else
    let succ := (shm.node nodeId).nextNode
    if succ = invalidNodeId then
      if (shm.entry lockId).tailNode = nodeId then
        some (.success, emptyQueue shm nodeId lockId)
      else none
    else some (.success, passLock shm nodeId lockId succ)

/-- `McsGlobalLockAlgorithm::check_grant`. -/
def checkGrant (nodeCount : UInt32) (lockId : LockId) (shm : McsShm) : NodeId :=
  if nodeCount = 0 then invalidNodeId
  else if lockId ≥ maxLockCount then invalidNodeId
  else if (shm.entry lockId).ownerNode ≠ invalidNodeId then invalidNodeId
  else
    let head := (shm.entry lockId).headNode
    if head = invalidNodeId then invalidNodeId
    else if head ≥ nodeCount then invalidNodeId
    else if (shm.node head).locked = 1 ∧ (shm.node head).waitingLock = lockId then head
    else invalidNodeId

/-- `McsGlobalLockAlgorithm::grant_lock`. -/
def grantLock (nodeCount : UInt32) (nodeId : NodeId) (lockId : LockId) (shm : McsShm) :
    LockResult × McsShm :=
  if paramError nodeCount nodeId lockId then (.errorInvalidParam, shm)
  else (.success, (shm.storeLocked nodeId 2).storeOwner lockId nodeId)

/-- The MCS path of `poll_for_grant`: granted by the manager (2) or passed on (0). -/
def pollGranted (nodeId : NodeId) (lockId : LockId) (shm : McsShm) : Bool :=
  ((shm.node nodeId).locked == 2 || (shm.node nodeId).locked == 0) &&
    (shm.node nodeId).waitingLock == lockId

/-- `McsGlobalLockAlgorithm` as an instance of the plugin interface. -/
def algorithm : GlobalLockAlgorithm McsShm where
  initializeShm := initializeShm
  acquireLock := acquireLock
  releaseLock := releaseLock
  checkGrant nodeCount lockId shm := (checkGrant nodeCount lockId shm, shm)
  grantLock := grantLock
  pollGranted _ := pollGranted

section Specs

@[simp] lemma emptyQueue_ownerNode (shm : McsShm) (n : NodeId) (l j : LockId) :
    ((emptyQueue shm n l).entry j).ownerNode =
      if j = l then invalidNodeId else (shm.entry j).ownerNode := by
  simp [emptyQueue, resetNode]

@[simp] lemma emptyQueue_locked (shm : McsShm) (n k : NodeId) (l : LockId) :
    ((emptyQueue shm n l).node k).locked = if k = n then 0 else (shm.node k).locked := by
  simp [emptyQueue, resetNode]

@[simp] lemma emptyQueue_waitingLock (shm : McsShm) (n k : NodeId) (l : LockId) :
    ((emptyQueue shm n l).node k).waitingLock =
      if k = n then invalidLockId else (shm.node k).waitingLock := by
  simp [emptyQueue, resetNode]

@[simp] lemma passLock_ownerNode (shm : McsShm) (n succ : NodeId) (l j : LockId) :
    ((passLock shm n l succ).entry j).ownerNode =
      if j = l then succ else (shm.entry j).ownerNode := by
  simp [passLock, resetNode]

@[simp] lemma passLock_locked (shm : McsShm) (n succ k : NodeId) (l : LockId) :
    ((passLock shm n l succ).node k).locked =
      if k = n then 0 else if k = succ then 0 else (shm.node k).locked := by
  simp [passLock, resetNode]

@[simp] lemma passLock_waitingLock (shm : McsShm) (n succ k : NodeId) (l : LockId) :
    ((passLock shm n l succ).node k).waitingLock =
      if k = n then invalidLockId else (shm.node k).waitingLock := by
  simp [passLock, resetNode]

@[simp] lemma emptyQueue_tailNode (shm : McsShm) (n : NodeId) (l j : LockId) :
    ((emptyQueue shm n l).entry j).tailNode =
      if j = l then invalidNodeId else (shm.entry j).tailNode := by
  simp [emptyQueue, resetNode]

@[simp] lemma emptyQueue_headNode (shm : McsShm) (n : NodeId) (l j : LockId) :
    ((emptyQueue shm n l).entry j).headNode =
      if j = l then invalidNodeId else (shm.entry j).headNode := by
  simp [emptyQueue, resetNode]

@[simp] lemma emptyQueue_nextNode (shm : McsShm) (n k : NodeId) (l : LockId) :
    ((emptyQueue shm n l).node k).nextNode =
      if k = n then invalidNodeId else (shm.node k).nextNode := by
  simp [emptyQueue, resetNode]

@[simp] lemma passLock_tailNode (shm : McsShm) (n succ : NodeId) (l j : LockId) :
    ((passLock shm n l succ).entry j).tailNode = (shm.entry j).tailNode := by
  simp [passLock, resetNode]

@[simp] lemma passLock_headNode (shm : McsShm) (n succ : NodeId) (l j : LockId) :
    ((passLock shm n l succ).entry j).headNode =
      if j = l then succ else (shm.entry j).headNode := by
  simp [passLock, resetNode]

@[simp] lemma passLock_nextNode (shm : McsShm) (n succ k : NodeId) (l : LockId) :
    ((passLock shm n l succ).node k).nextNode =
      if k = n then invalidNodeId else (shm.node k).nextNode := by
  simp [passLock, resetNode]

variable {nodeCount : UInt32} {n : NodeId} {l : LockId} {shm : McsShm}

lemma paramError_eq_false (hcount : nodeCount ≤ maxNodeCount) (hn : n < nodeCount)
    (hl : l < maxLockCount) : paramError nodeCount n l = false := by
  simp [paramError, ne_invalidNodeId hcount hn, hn, hl]

variable (shm) in
/-- A request marks the caller's record as waiting and changes no owner. -/
lemma acquireLock_spec (hcount : nodeCount ≤ maxNodeCount) (hn : n < nodeCount)
    (hl : l < maxLockCount) :
    (acquireLock nodeCount n l shm).1 = .success ∧
      (∀ j, ((acquireLock nodeCount n l shm).2.entry j).ownerNode = (shm.entry j).ownerNode) ∧
      (∀ k, ((acquireLock nodeCount n l shm).2.node k).locked =
        if k = n then 1 else (shm.node k).locked) ∧
      (∀ k, ((acquireLock nodeCount n l shm).2.node k).waitingLock =
        if k = n then l else (shm.node k).waitingLock) := by
  simp only [acquireLock, paramError_eq_false hcount hn hl, Bool.false_eq_true, if_false]
  split_ifs <;> simp

variable (shm) in
/-- A request swaps the caller into the tail.  The caller becomes the head of an empty queue, or
is linked behind the old tail. -/
lemma acquireLock_queue (hcount : nodeCount ≤ maxNodeCount) (hn : n < nodeCount)
    (hl : l < maxLockCount) (htail : (shm.entry l).tailNode ≠ n) :
    (∀ j, ((acquireLock nodeCount n l shm).2.entry j).tailNode =
        if j = l then n else (shm.entry j).tailNode) ∧
      (∀ j, ((acquireLock nodeCount n l shm).2.entry j).headNode =
        if j = l ∧ (shm.entry l).tailNode = invalidNodeId then n
        else (shm.entry j).headNode) ∧
      (∀ k, ((acquireLock nodeCount n l shm).2.node k).nextNode =
        if k = (shm.entry l).tailNode ∧ k ≠ invalidNodeId then n
        else if k = n then invalidNodeId else (shm.node k).nextNode) := by
  simp only [acquireLock, paramError_eq_false hcount hn hl, Bool.false_eq_true, if_false,
    McsShm.storeWaiting_entry, McsShm.storeLocked_entry, McsShm.storeNext_entry, htail]
  by_cases hempty : (shm.entry l).tailNode = invalidNodeId
  · refine ⟨fun j => ?_, fun j => ?_, fun k => ?_⟩
    · simp [hempty]
    · by_cases hj : j = l <;> simp [hempty, hj]
    · by_cases hk : k = invalidNodeId <;> simp [hempty, hk]
  · refine ⟨fun j => ?_, fun j => ?_, fun k => ?_⟩
    · simp [hempty]
    · simp [hempty]
    · by_cases hk : k = (shm.entry l).tailNode
      · simp [hempty, hk]
      · simp [hempty, hk]

/-- What a `release_lock` that returns has done: nothing, since the caller is not the owner;
emptied the queue; or handed the lock to the successor. -/
lemma releaseLock_cases (hcount : nodeCount ≤ maxNodeCount) (hn : n < nodeCount)
    (hl : l < maxLockCount) {rc : LockResult} {shm' : McsShm}
    (h : releaseLock nodeCount n l shm = some (rc, shm')) :
    ((shm.entry l).ownerNode ≠ n ∧ rc = .errorNotOwner ∧ shm' = shm) ∨
    ((shm.entry l).ownerNode = n ∧ (shm.node n).nextNode = invalidNodeId ∧
      (shm.entry l).tailNode = n ∧ rc = .success ∧ shm' = emptyQueue shm n l) ∨
    ((shm.entry l).ownerNode = n ∧ (shm.node n).nextNode ≠ invalidNodeId ∧ rc = .success ∧
      shm' = passLock shm n l (shm.node n).nextNode) := by
  simp only [releaseLock, paramError_eq_false hcount hn hl, Bool.false_eq_true, if_false] at h
  split_ifs at h with h1 h2 h3
  · cases h
    exact .inl ⟨h1, rfl, rfl⟩
  · cases h
    exact .inr (.inl ⟨not_not.1 h1, h2, h3, rfl, rfl⟩)
  · cases h
    exact .inr (.inr ⟨not_not.1 h1, h2, rfl, rfl⟩)

/-- `check_grant` returns a node only when the lock is free and the node, the head of the
queue, waits for this lock. -/
lemma checkGrant_spec (h : checkGrant nodeCount l shm ≠ invalidNodeId) :
    (shm.entry l).ownerNode = invalidNodeId ∧
      checkGrant nodeCount l shm = (shm.entry l).headNode ∧
      (shm.entry l).headNode < nodeCount ∧
      (shm.node (shm.entry l).headNode).locked = 1 ∧
      (shm.node (shm.entry l).headNode).waitingLock = l := by
  unfold checkGrant at h ⊢
  dsimp only at h ⊢
  split_ifs at h ⊢ with h1 h2 h3 h4 h5 h6 <;> first | exact absurd rfl h | skip
  exact ⟨not_not.1 h3, rfl, UInt32.not_le.1 h5, h6.1, h6.2⟩

variable (shm) in
/-- One turn of the scan changes nothing or grants a free lock to the head of its queue. -/
lemma scanLock_cases (hcount : nodeCount ≤ maxNodeCount) (hl : l < maxLockCount) :
    (algorithm.scanLock nodeCount l shm).2 = shm ∨
    ∃ h, h < nodeCount ∧ (shm.entry l).ownerNode = invalidNodeId ∧ (shm.node h).locked = 1 ∧
      (shm.node h).waitingLock = l ∧
      (algorithm.scanLock nodeCount l shm).2 = (shm.storeLocked h 2).storeOwner l h := by
  by_cases hinv : checkGrant nodeCount l shm = invalidNodeId
  · exact .inl (by simp [GlobalLockAlgorithm.scanLock, algorithm, hinv])
  · obtain ⟨howner, hhead, hlt, hlocked, hwait⟩ := checkGrant_spec hinv
    refine .inr ⟨(shm.entry l).headNode, hlt, howner, hlocked, hwait, ?_⟩
    simp [GlobalLockAlgorithm.scanLock, algorithm, hhead, ne_invalidNodeId hcount hlt,
      grantLock, paramError_eq_false hcount hlt hl]

end Specs

end Mcs

end CxlLock

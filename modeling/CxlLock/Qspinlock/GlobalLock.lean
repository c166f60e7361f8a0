import CxlLock.LockInterface
import CxlLock.Qspinlock.Word

/-!
# The qspinlock global lock (`qspinlock_global_lock.cpp`), whole calls

The shared records are the per-lock `QspinlockEntry` and the per-node `QspinNode`.  The
operations are written as they run when no other party interferes: the tail
`compare_exchange` of the slow path succeeds at once, and the bounded wait of `release_lock`
for a successor that is not linked runs out, so that the forced exit is taken.
-/

namespace CxlLock

/-- Per-lock entry.  `pendingTail` is the head of the queue, the next node to grant. -/
structure QspinlockEntry where
  lockWord : UInt32
  ownerNode : NodeId
  pendingTail : NodeId
  grantInProgress : UInt32
  deriving DecidableEq, Repr

/-- Per-node queue node, shared by the queues of all locks.  `locked` is 0 for idle, 1 for
waiting, 2 for granted. -/
structure QspinNode where
  nextNode : NodeId
  locked : UInt32
  waitingLock : LockId
  mcsTail : UInt32
  deriving DecidableEq, Repr

/-- The shared records of the qspinlock. -/
structure QspinShm where
  entry : LockId → QspinlockEntry
  node : NodeId → QspinNode

namespace QspinShm

/-! ## Stores to single fields -/

def storeWord (s : QspinShm) (l : LockId) (v : UInt32) : QspinShm :=
  { s with entry := Function.update s.entry l { s.entry l with lockWord := v } }

def storeOwner (s : QspinShm) (l : LockId) (v : NodeId) : QspinShm :=
  { s with entry := Function.update s.entry l { s.entry l with ownerNode := v } }

def storePending (s : QspinShm) (l : LockId) (v : NodeId) : QspinShm :=
  { s with entry := Function.update s.entry l { s.entry l with pendingTail := v } }

def storeGip (s : QspinShm) (l : LockId) (v : UInt32) : QspinShm :=
  { s with entry := Function.update s.entry l { s.entry l with grantInProgress := v } }

def storeNext (s : QspinShm) (n : NodeId) (v : NodeId) : QspinShm :=
  { s with node := Function.update s.node n { s.node n with nextNode := v } }

def storeLocked (s : QspinShm) (n : NodeId) (v : UInt32) : QspinShm :=
  { s with node := Function.update s.node n { s.node n with locked := v } }

def storeWaiting (s : QspinShm) (n : NodeId) (v : LockId) : QspinShm :=
  { s with node := Function.update s.node n { s.node n with waitingLock := v } }

section Fields

variable (s : QspinShm) (l j : LockId) (n k v : NodeId) (w : UInt32)

@[simp] lemma storeWord_node : (s.storeWord l w).node = s.node := rfl
@[simp] lemma storeOwner_node : (s.storeOwner l v).node = s.node := rfl
@[simp] lemma storePending_node : (s.storePending l v).node = s.node := rfl
@[simp] lemma storeGip_node : (s.storeGip l w).node = s.node := rfl
@[simp] lemma storeNext_entry : (s.storeNext n v).entry = s.entry := rfl
@[simp] lemma storeLocked_entry : (s.storeLocked n w).entry = s.entry := rfl
@[simp] lemma storeWaiting_entry : (s.storeWaiting n l).entry = s.entry := rfl

@[simp] lemma storeWord_lockWord :
    ((s.storeWord l w).entry j).lockWord = if j = l then w else (s.entry j).lockWord := by
  by_cases h : j = l <;> simp [storeWord, h]

@[simp] lemma storeWord_ownerNode :
    ((s.storeWord l w).entry j).ownerNode = (s.entry j).ownerNode := by
  by_cases h : j = l <;> simp [storeWord, h]

@[simp] lemma storeWord_pendingTail :
    ((s.storeWord l w).entry j).pendingTail = (s.entry j).pendingTail := by
  by_cases h : j = l <;> simp [storeWord, h]

@[simp] lemma storeWord_grantInProgress :
    ((s.storeWord l w).entry j).grantInProgress = (s.entry j).grantInProgress := by
  by_cases h : j = l <;> simp [storeWord, h]

@[simp] lemma storeOwner_lockWord :
    ((s.storeOwner l v).entry j).lockWord = (s.entry j).lockWord := by
  by_cases h : j = l <;> simp [storeOwner, h]

@[simp] lemma storeOwner_ownerNode :
    ((s.storeOwner l v).entry j).ownerNode = if j = l then v else (s.entry j).ownerNode := by
  by_cases h : j = l <;> simp [storeOwner, h]

@[simp] lemma storeOwner_pendingTail :
    ((s.storeOwner l v).entry j).pendingTail = (s.entry j).pendingTail := by
  by_cases h : j = l <;> simp [storeOwner, h]

@[simp] lemma storeOwner_grantInProgress :
    ((s.storeOwner l v).entry j).grantInProgress = (s.entry j).grantInProgress := by
  by_cases h : j = l <;> simp [storeOwner, h]

@[simp] lemma storePending_lockWord :
    ((s.storePending l v).entry j).lockWord = (s.entry j).lockWord := by
  by_cases h : j = l <;> simp [storePending, h]

@[simp] lemma storePending_ownerNode :
    ((s.storePending l v).entry j).ownerNode = (s.entry j).ownerNode := by
  by_cases h : j = l <;> simp [storePending, h]

@[simp] lemma storePending_pendingTail :
    ((s.storePending l v).entry j).pendingTail = if j = l then v else (s.entry j).pendingTail := by
  by_cases h : j = l <;> simp [storePending, h]

@[simp] lemma storePending_grantInProgress :
    ((s.storePending l v).entry j).grantInProgress = (s.entry j).grantInProgress := by
  by_cases h : j = l <;> simp [storePending, h]

@[simp] lemma storeGip_lockWord :
    ((s.storeGip l w).entry j).lockWord = (s.entry j).lockWord := by
  by_cases h : j = l <;> simp [storeGip, h]

@[simp] lemma storeGip_ownerNode :
    ((s.storeGip l w).entry j).ownerNode = (s.entry j).ownerNode := by
  by_cases h : j = l <;> simp [storeGip, h]

@[simp] lemma storeGip_pendingTail :
    ((s.storeGip l w).entry j).pendingTail = (s.entry j).pendingTail := by
  by_cases h : j = l <;> simp [storeGip, h]

@[simp] lemma storeGip_grantInProgress : ((s.storeGip l w).entry j).grantInProgress =
    if j = l then w else (s.entry j).grantInProgress := by
  by_cases h : j = l <;> simp [storeGip, h]

@[simp] lemma storeNext_nextNode :
    ((s.storeNext n v).node k).nextNode = if k = n then v else (s.node k).nextNode := by
  by_cases h : k = n <;> simp [storeNext, h]

@[simp] lemma storeNext_locked :
    ((s.storeNext n v).node k).locked = (s.node k).locked := by
  by_cases h : k = n <;> simp [storeNext, h]

@[simp] lemma storeNext_waitingLock :
    ((s.storeNext n v).node k).waitingLock = (s.node k).waitingLock := by
  by_cases h : k = n <;> simp [storeNext, h]

@[simp] lemma storeLocked_nextNode :
    ((s.storeLocked n w).node k).nextNode = (s.node k).nextNode := by
  by_cases h : k = n <;> simp [storeLocked, h]

@[simp] lemma storeLocked_locked :
    ((s.storeLocked n w).node k).locked = if k = n then w else (s.node k).locked := by
  by_cases h : k = n <;> simp [storeLocked, h]

@[simp] lemma storeLocked_waitingLock :
    ((s.storeLocked n w).node k).waitingLock = (s.node k).waitingLock := by
  by_cases h : k = n <;> simp [storeLocked, h]

@[simp] lemma storeWaiting_nextNode :
    ((s.storeWaiting n l).node k).nextNode = (s.node k).nextNode := by
  by_cases h : k = n <;> simp [storeWaiting, h]

@[simp] lemma storeWaiting_locked :
    ((s.storeWaiting n l).node k).locked = (s.node k).locked := by
  by_cases h : k = n <;> simp [storeWaiting, h]

@[simp] lemma storeWaiting_waitingLock :
    ((s.storeWaiting n l).node k).waitingLock = if k = n then l else (s.node k).waitingLock := by
  by_cases h : k = n <;> simp [storeWaiting, h]

end Fields

end QspinShm

namespace Qspinlock

/-! ## The operations -/

/-- The parameter checks that open `acquire_lock`, `release_lock` and `grant_lock`. -/
def paramError (nodeCount : UInt32) (nodeId : NodeId) (lockId : LockId) : Bool :=
  nodeId == invalidNodeId || nodeId ≥ nodeCount || lockId ≥ maxLockCount

/-- `QspinlockGlobalLockAlgorithm::initialize`. -/
def initializeShm (nodeCount : UInt32) (shm : QspinShm) : LockResult × QspinShm :=
  if nodeCount = 0 ∨ maxNodeCount < nodeCount then (.errorInvalidParam, shm)
  else
    (.success,
      { entry := fun lid =>
          if lid < maxLockCount then ⟨0, invalidNodeId, invalidNodeId, 0⟩ else shm.entry lid
        node := fun nid =>
          if nid < nodeCount then ⟨invalidNodeId, 0, invalidLockId, 0⟩ else shm.node nid })

/-- Preparation of the caller's queue node at the start of `acquire_lock`. -/
def prepareNode (shm : QspinShm) (nodeId : NodeId) (lockId : LockId) : QspinShm :=
  ((shm.storeNext nodeId invalidNodeId).storeLocked nodeId 1).storeWaiting nodeId lockId

/-- The fast path of `acquire_lock`, taken when the lock word is 0. -/
def fastPath (shm : QspinShm) (nodeId : NodeId) (lockId : LockId) : QspinShm :=
  (((shm.storeWord lockId (qspinHeldWord (qspinNodeToTail nodeId))).storeLocked nodeId
    2).storeOwner lockId nodeId).storePending lockId nodeId

/-- The slow path of `acquire_lock`: join the queue behind the tail of the lock word. -/
def slowPath (shm : QspinShm) (nodeId : NodeId) (lockId : LockId) : QspinShm :=
  let oldWord := (shm.entry lockId).lockWord
  let oldTail := qspinTailIdx oldWord
  let shm := shm.storeWord lockId (qspinSetTail oldWord (qspinNodeToTail nodeId))
  if oldTail = 0 then shm.storePending lockId nodeId
  else shm.storeNext (qspinTailToNode oldTail) nodeId

/-- `QspinlockGlobalLockAlgorithm::acquire_lock`. -/
def acquireLock (nodeCount : UInt32) (nodeId : NodeId) (lockId : LockId) (shm : QspinShm) :
    LockResult × QspinShm :=
  if paramError nodeCount nodeId lockId then (.errorInvalidParam, shm)
  else
    let shm := prepareNode shm nodeId lockId
    if (shm.entry lockId).lockWord = 0 then (.success, fastPath shm nodeId lockId)
    else (.success, slowPath shm nodeId lockId)

/-- Reset of the caller's own record at the end of `release_lock`. -/
def resetNode (shm : QspinShm) (nodeId : NodeId) : QspinShm :=
  ((shm.storeNext nodeId invalidNodeId).storeLocked nodeId 0).storeWaiting nodeId
    invalidLockId

/-- The exit of `release_lock` that empties the queue. -/
def emptyQueue (shm : QspinShm) (nodeId : NodeId) (lockId : LockId) : QspinShm :=
  resetNode (((shm.storeWord lockId 0).storePending lockId invalidNodeId).storeOwner lockId
    invalidNodeId) nodeId

/-- The forced exit of `release_lock`: no successor was linked in time.  The lock word and
the link of the caller stay as they are. -/
def forceRelease (shm : QspinShm) (nodeId : NodeId) (lockId : LockId) : QspinShm :=
  ((shm.storeOwner lockId invalidNodeId).storeLocked nodeId 0).storeWaiting nodeId
    invalidLockId

/-- The hand-over to the successor in `release_lock`. -/
def passLock (shm : QspinShm) (nodeId : NodeId) (lockId : LockId) (succ : NodeId) : QspinShm :=
  resetNode ((((shm.storePending lockId succ).storeOwner lockId succ).storeWord lockId
    (qspinHeldWord (qspinNodeToTail succ))).storeLocked succ 2) nodeId

/-- `QspinlockGlobalLockAlgorithm::release_lock`. -/
def releaseLock (nodeCount : UInt32) (nodeId : NodeId) (lockId : LockId) (shm : QspinShm) :
    LockResult × QspinShm :=
  if paramError nodeCount nodeId lockId then (.errorInvalidParam, shm)
  else if (shm.entry lockId).ownerNode ≠ nodeId then (.errorNotOwner, shm)
  else
    let succ := (shm.node nodeId).nextNode
    if succ = invalidNodeId then
      -- a tail other than our own: the exchange stores the word it read, and the wait for
      -- the link runs out
      if qspinTailIdx (shm.entry lockId).lockWord = qspinNodeToTail nodeId then
        (.success, emptyQueue shm nodeId lockId)
      else (.success, forceRelease shm nodeId lockId)
    else (.success, passLock shm nodeId lockId succ)

/-- `QspinlockGlobalLockAlgorithm::check_grant`; on success it has set the
`grant_in_progress` flag. -/
def checkGrant (nodeCount : UInt32) (lockId : LockId) (shm : QspinShm) : NodeId × QspinShm :=
  if nodeCount = 0 then (invalidNodeId, shm)
  else if lockId ≥ maxLockCount then (invalidNodeId, shm)
  else if qspinLocked (shm.entry lockId).lockWord ≠ 0 then (invalidNodeId, shm)
  else if qspinTailIdx (shm.entry lockId).lockWord = 0 then (invalidNodeId, shm)
  else if (shm.entry lockId).grantInProgress ≠ 0 then (invalidNodeId, shm)
  else
    let head := (shm.entry lockId).pendingTail
    if head = invalidNodeId ∨ head ≥ nodeCount then (invalidNodeId, shm)
    else if (shm.node head).locked ≠ 1 ∨ (shm.node head).waitingLock ≠ lockId then
      (invalidNodeId, shm)
    else (head, shm.storeGip lockId 1)

/-- The stores of a successful `grant_lock`. -/
def grantStores (shm : QspinShm) (nodeId : NodeId) (lockId : LockId) : QspinShm :=
  let shm := ((shm.storeLocked nodeId 2).storeOwner lockId nodeId).storeWord lockId
    (qspinHeldWord (qspinNodeToTail nodeId))
  (shm.storePending lockId (shm.node nodeId).nextNode).storeGip lockId 0

/-- `QspinlockGlobalLockAlgorithm::grant_lock`. -/
def grantLock (nodeCount : UInt32) (nodeId : NodeId) (lockId : LockId) (shm : QspinShm) :
    LockResult × QspinShm :=
  if paramError nodeCount nodeId lockId then (.errorInvalidParam, shm)
  else (.success, grantStores shm nodeId lockId)

/-- The qspinlock path of `poll_for_grant`. -/
def pollGranted (nodeId : NodeId) (lockId : LockId) (shm : QspinShm) : Bool :=
  (shm.node nodeId).locked == 2 && (shm.node nodeId).waitingLock == lockId

/-- `QspinlockGlobalLockAlgorithm` as an instance of the plugin interface. -/
def algorithm : GlobalLockAlgorithm QspinShm where
  initializeShm := initializeShm
  acquireLock := acquireLock
  releaseLock nodeCount nodeId lockId shm := some (releaseLock nodeCount nodeId lockId shm)
  checkGrant := checkGrant
  grantLock := grantLock
  pollGranted _ := pollGranted

section Specs

section Fields

variable (shm : QspinShm) (n k succ : NodeId) (l j : LockId)

@[simp] lemma prepareNode_entry : (prepareNode shm n l).entry = shm.entry := rfl

@[simp] lemma prepareNode_locked :
    ((prepareNode shm n l).node k).locked = if k = n then 1 else (shm.node k).locked := by
  simp [prepareNode]

@[simp] lemma prepareNode_waitingLock : ((prepareNode shm n l).node k).waitingLock =
    if k = n then l else (shm.node k).waitingLock := by
  simp [prepareNode]

@[simp] lemma prepareNode_nextNode : ((prepareNode shm n l).node k).nextNode =
    if k = n then invalidNodeId else (shm.node k).nextNode := by
  simp [prepareNode]

@[simp] lemma fastPath_nextNode :
    ((fastPath shm n l).node k).nextNode = (shm.node k).nextNode := by
  simp [fastPath]

@[simp] lemma fastPath_ownerNode : ((fastPath shm n l).entry j).ownerNode =
    if j = l then n else (shm.entry j).ownerNode := by
  simp [fastPath]

@[simp] lemma fastPath_lockWord : ((fastPath shm n l).entry j).lockWord =
    if j = l then qspinHeldWord (qspinNodeToTail n) else (shm.entry j).lockWord := by
  simp [fastPath]

@[simp] lemma fastPath_locked :
    ((fastPath shm n l).node k).locked = if k = n then 2 else (shm.node k).locked := by
  simp [fastPath]

@[simp] lemma fastPath_waitingLock :
    ((fastPath shm n l).node k).waitingLock = (shm.node k).waitingLock := by
  simp [fastPath]

@[simp] lemma slowPath_ownerNode :
    ((slowPath shm n l).entry j).ownerNode = (shm.entry j).ownerNode := by
  unfold slowPath
  dsimp only
  split_ifs <;> simp

lemma slowPath_nextNode (htail : qspinTailIdx (shm.entry l).lockWord ≠ 0) :
    ((slowPath shm n l).node k).nextNode =
      if k = qspinTailToNode (qspinTailIdx (shm.entry l).lockWord) then n
      else (shm.node k).nextNode := by
  simp [slowPath, htail]

@[simp] lemma slowPath_lockWord : ((slowPath shm n l).entry j).lockWord =
    if j = l then qspinSetTail (shm.entry l).lockWord (qspinNodeToTail n)
    else (shm.entry j).lockWord := by
  unfold slowPath
  dsimp only
  split_ifs <;> simp [*]

@[simp] lemma slowPath_locked :
    ((slowPath shm n l).node k).locked = (shm.node k).locked := by
  unfold slowPath
  dsimp only
  split_ifs <;> simp

@[simp] lemma slowPath_waitingLock :
    ((slowPath shm n l).node k).waitingLock = (shm.node k).waitingLock := by
  unfold slowPath
  dsimp only
  split_ifs <;> simp

@[simp] lemma emptyQueue_ownerNode : ((emptyQueue shm n l).entry j).ownerNode =
    if j = l then invalidNodeId else (shm.entry j).ownerNode := by
  simp [emptyQueue, resetNode]

@[simp] lemma emptyQueue_nextNode : ((emptyQueue shm n l).node k).nextNode =
    if k = n then invalidNodeId else (shm.node k).nextNode := by
  simp [emptyQueue, resetNode]

@[simp] lemma emptyQueue_lockWord : ((emptyQueue shm n l).entry j).lockWord =
    if j = l then 0 else (shm.entry j).lockWord := by
  simp [emptyQueue, resetNode]

@[simp] lemma emptyQueue_locked :
    ((emptyQueue shm n l).node k).locked = if k = n then 0 else (shm.node k).locked := by
  simp [emptyQueue, resetNode]

@[simp] lemma emptyQueue_waitingLock : ((emptyQueue shm n l).node k).waitingLock =
    if k = n then invalidLockId else (shm.node k).waitingLock := by
  simp [emptyQueue, resetNode]

@[simp] lemma forceRelease_ownerNode : ((forceRelease shm n l).entry j).ownerNode =
    if j = l then invalidNodeId else (shm.entry j).ownerNode := by
  simp [forceRelease]

@[simp] lemma forceRelease_lockWord :
    ((forceRelease shm n l).entry j).lockWord = (shm.entry j).lockWord := by
  simp [forceRelease]

@[simp] lemma forceRelease_locked :
    ((forceRelease shm n l).node k).locked = if k = n then 0 else (shm.node k).locked := by
  simp [forceRelease]

@[simp] lemma forceRelease_waitingLock : ((forceRelease shm n l).node k).waitingLock =
    if k = n then invalidLockId else (shm.node k).waitingLock := by
  simp [forceRelease]

@[simp] lemma passLock_ownerNode : ((passLock shm n l succ).entry j).ownerNode =
    if j = l then succ else (shm.entry j).ownerNode := by
  simp [passLock, resetNode]

@[simp] lemma passLock_nextNode : ((passLock shm n l succ).node k).nextNode =
    if k = n then invalidNodeId else (shm.node k).nextNode := by
  simp [passLock, resetNode]

@[simp] lemma passLock_lockWord : ((passLock shm n l succ).entry j).lockWord =
    if j = l then qspinHeldWord (qspinNodeToTail succ) else (shm.entry j).lockWord := by
  simp [passLock, resetNode]

@[simp] lemma passLock_locked : ((passLock shm n l succ).node k).locked =
    if k = n then 0 else if k = succ then 2 else (shm.node k).locked := by
  simp [passLock, resetNode]

@[simp] lemma passLock_waitingLock : ((passLock shm n l succ).node k).waitingLock =
    if k = n then invalidLockId else (shm.node k).waitingLock := by
  simp [passLock, resetNode]

@[simp] lemma grantStores_ownerNode : ((grantStores shm n l).entry j).ownerNode =
    if j = l then n else (shm.entry j).ownerNode := by
  simp [grantStores]

@[simp] lemma grantStores_lockWord : ((grantStores shm n l).entry j).lockWord =
    if j = l then qspinHeldWord (qspinNodeToTail n) else (shm.entry j).lockWord := by
  simp [grantStores]

@[simp] lemma grantStores_locked :
    ((grantStores shm n l).node k).locked = if k = n then 2 else (shm.node k).locked := by
  simp [grantStores]

@[simp] lemma grantStores_waitingLock :
    ((grantStores shm n l).node k).waitingLock = (shm.node k).waitingLock := by
  simp [grantStores]

end Fields

variable {nodeCount : UInt32} {n : NodeId} {l : LockId} {shm : QspinShm}

lemma paramError_eq_false (hcount : nodeCount ≤ maxNodeCount) (hn : n < nodeCount)
    (hl : l < maxLockCount) : paramError nodeCount n l = false := by
  simp [paramError, ne_invalidNodeId hcount hn, hn, hl]

variable (shm) in
/-- A request takes the fast path exactly when the lock word is 0. -/
lemma acquireLock_cases (hcount : nodeCount ≤ maxNodeCount) (hn : n < nodeCount)
    (hl : l < maxLockCount) :
    ((shm.entry l).lockWord = 0 ∧
      acquireLock nodeCount n l shm = (.success, fastPath (prepareNode shm n l) n l)) ∨
    ((shm.entry l).lockWord ≠ 0 ∧
      acquireLock nodeCount n l shm = (.success, slowPath (prepareNode shm n l) n l)) := by
  simp only [acquireLock, paramError_eq_false hcount hn hl, Bool.false_eq_true, if_false,
    prepareNode_entry]
  by_cases h : (shm.entry l).lockWord = 0
  · exact .inl ⟨h, if_pos h⟩
  · exact .inr ⟨h, if_neg h⟩

variable (shm) in
/-- What `release_lock` does: nothing, since the caller is not the owner; empty the queue;
force the release, since no successor is linked; or hand the lock to the successor. -/
lemma releaseLock_cases (hcount : nodeCount ≤ maxNodeCount) (hn : n < nodeCount)
    (hl : l < maxLockCount) :
    ((shm.entry l).ownerNode ≠ n ∧ releaseLock nodeCount n l shm = (.errorNotOwner, shm)) ∨
    ((shm.entry l).ownerNode = n ∧ (shm.node n).nextNode = invalidNodeId ∧
      qspinTailIdx (shm.entry l).lockWord = qspinNodeToTail n ∧
      releaseLock nodeCount n l shm = (.success, emptyQueue shm n l)) ∨
    ((shm.entry l).ownerNode = n ∧ (shm.node n).nextNode = invalidNodeId ∧
      qspinTailIdx (shm.entry l).lockWord ≠ qspinNodeToTail n ∧
      releaseLock nodeCount n l shm = (.success, forceRelease shm n l)) ∨
    ((shm.entry l).ownerNode = n ∧ (shm.node n).nextNode ≠ invalidNodeId ∧
      releaseLock nodeCount n l shm =
        (.success, passLock shm n l (shm.node n).nextNode)) := by
  simp only [releaseLock, paramError_eq_false hcount hn hl, Bool.false_eq_true, if_false]
  split_ifs with h1 h2 h3
  · exact .inl ⟨h1, rfl⟩
  · exact .inr (.inl ⟨not_not.1 h1, h2, h3, rfl⟩)
  · exact .inr (.inr (.inl ⟨not_not.1 h1, h2, h3, rfl⟩))
  · exact .inr (.inr (.inr ⟨not_not.1 h1, h2, rfl⟩))

/-- `check_grant` returns a node only when the lock is not marked as locked and the node, the
head of the queue, waits for this lock; it has set the flag then. -/
lemma checkGrant_spec (h : (checkGrant nodeCount l shm).1 ≠ invalidNodeId) :
    qspinLocked (shm.entry l).lockWord = 0 ∧ qspinTailIdx (shm.entry l).lockWord ≠ 0 ∧
      (shm.entry l).grantInProgress = 0 ∧
      (shm.entry l).pendingTail < nodeCount ∧
      (shm.node (shm.entry l).pendingTail).locked = 1 ∧
      (shm.node (shm.entry l).pendingTail).waitingLock = l ∧
      checkGrant nodeCount l shm = ((shm.entry l).pendingTail, shm.storeGip l 1) := by
  unfold checkGrant at h ⊢
  dsimp only at h ⊢
  split_ifs at h ⊢ with h1 h2 h3 h4 h5 h6 h7 <;> first | exact absurd rfl h | skip
  simp only [not_or, not_not, UInt32.not_le] at h3 h4 h5 h6 h7
  exact ⟨h3, h4, h5, h6.2, h7.1, h7.2, rfl⟩

/-- A `check_grant` that returns no node has changed nothing. -/
lemma checkGrant_none (h : (checkGrant nodeCount l shm).1 = invalidNodeId) :
    (checkGrant nodeCount l shm).2 = shm := by
  unfold checkGrant at h ⊢
  dsimp only at h ⊢
  split_ifs at h ⊢ with h1 h2 h3 h4 h5 h6 h7 <;> first | rfl | exact absurd (.inl h) h6

variable (shm) in
/-- One turn of the scan changes nothing or grants an unlocked lock to the head of its
queue. -/
lemma scanLock_cases (hcount : nodeCount ≤ maxNodeCount) (hl : l < maxLockCount) :
    (algorithm.scanLock nodeCount l shm).2 = shm ∨
    ∃ h, h = (shm.entry l).pendingTail ∧ h < nodeCount ∧
      qspinLocked (shm.entry l).lockWord = 0 ∧ (shm.node h).locked = 1 ∧
      (shm.node h).waitingLock = l ∧
      (algorithm.scanLock nodeCount l shm).2 = grantStores (shm.storeGip l 1) h l := by
  by_cases hinv : (checkGrant nodeCount l shm).1 = invalidNodeId
  · refine .inl ?_
    rw [GlobalLockAlgorithm.scanLock]
    simp [algorithm, hinv, checkGrant_none]
  · obtain ⟨hword, -, -, hlt, hlocked, hwait, heq⟩ := checkGrant_spec hinv
    refine .inr ⟨_, rfl, hlt, hword, hlocked, hwait, ?_⟩
    simp [GlobalLockAlgorithm.scanLock, algorithm, heq, ne_invalidNodeId hcount hlt,
      grantLock, paramError_eq_false hcount hlt hl]

end Specs

end Qspinlock

end CxlLock

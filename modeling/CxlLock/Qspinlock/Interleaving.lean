import CxlLock.Qspinlock.GlobalLock
import CxlLock.Lib.Interleaving

/-!
# The qspinlock, access by access

All nodes use one lock `l`; the lock manager runs `check_grant` and `grant_lock` on it.  Each
event is one access to shared memory, plain or atomic.  A node calls `acquire_lock`, polls its
`QspinNode`, is inside the critical section once the poll has succeeded, and calls
`release_lock`.

A program counter names the access that comes next and carries the local variables that are
still needed.
-/

namespace CxlLock.Qspinlock

open Transition

/-- The next access of a node. -/
inductive NodePc
  /-- Not in any call; `acquire_lock` begins with the store to `next_node`. -/
  | idle
  | storeLocked
  | storeWaiting
  /-- The exchange of the fast path, and its stores. -/
  | casFast
  | fastLocked
  | fastOwner
  | fastPending
  /-- The loop of the slow path. -/
  | loadWord
  | casWord (oldWord : UInt32)
  | storePending
  | linkPred (predId : NodeId)
  /-- The two loads of one turn of `poll_for_grant`. -/
  | pollLocked
  | pollWaiting (nodeLocked : UInt32)
  /-- Between the successful poll and `release_lock`, which begins with the load of the
  owner. -/
  | critical
  | loadNext
  /-- No successor yet: try to leave the queue. -/
  | releaseLoad
  | casRelease (oldWord : UInt32)
  | clearPending
  | clearOwner
  /-- Wait for the successor to be linked, with the number of turns so far. -/
  | spinNext (spinCount : Nat)
  | recheckNext
  /-- The forced release. -/
  | forceOwner
  | forceLocked
  | forceWaiting
  /-- Step 2 of `release_lock`. -/
  | loadSucc
  | passPending (succId : NodeId)
  | passOwner (succId : NodeId)
  | passWord (succId : NodeId)
  | wake (succId : NodeId)
  /-- Reset of the own record. -/
  | resetNext
  | resetLocked
  | resetWaiting
  deriving DecidableEq

/-- The next access of the lock manager. -/
inductive ManagerPc
  | loadWord
  | loadGip
  | loadPending
  | loadLocked (head : NodeId)
  | loadWaiting (head : NodeId) (headLocked : UInt32)
  | storeGip (head : NodeId)
  /-- The accesses of `grant_lock`. -/
  | grantLocked (nodeId : NodeId)
  | grantOwner (nodeId : NodeId)
  | grantWord (nodeId : NodeId)
  | loadNext (nodeId : NodeId)
  | storePending (nextHead : NodeId)
  | clearGip
  deriving DecidableEq

/-- The bound on the wait for a successor. -/
def maxSpin : Nat := 1000000

/-- One access of a node. -/
def nodeStep (l : LockId) (n : NodeId) (shm : QspinShm) : NodePc → QspinShm × NodePc
  | .idle => (shm.storeNext n invalidNodeId, .storeLocked)
  | .storeLocked => (shm.storeLocked n 1, .storeWaiting)
  | .storeWaiting => (shm.storeWaiting n l, .casFast)
  | .casFast =>
      if (shm.entry l).lockWord = 0 then
        (shm.storeWord l (qspinHeldWord (qspinNodeToTail n)), .fastLocked)
      else (shm, .loadWord)
  | .fastLocked => (shm.storeLocked n 2, .fastOwner)
  | .fastOwner => (shm.storeOwner l n, .fastPending)
  | .fastPending => (shm.storePending l n, .pollLocked)
  | .loadWord => (shm, .casWord (shm.entry l).lockWord)
  | .casWord oldWord =>
      if (shm.entry l).lockWord = oldWord then
        (shm.storeWord l (qspinSetTail oldWord (qspinNodeToTail n)),
          if qspinTailIdx oldWord = 0 then .storePending
          else .linkPred (qspinTailToNode (qspinTailIdx oldWord)))
      else (shm, .loadWord)
  | .storePending => (shm.storePending l n, .pollLocked)
  | .linkPred predId => (shm.storeNext predId n, .pollLocked)
  | .pollLocked => (shm, .pollWaiting (shm.node n).locked)
  | .pollWaiting nodeLocked =>
      if nodeLocked = 2 ∧ (shm.node n).waitingLock = l then (shm, .critical)
      else (shm, .pollLocked)
  | .critical =>
      -- `ERROR_NOT_OWNER`: the call returns and leaves everything as it is
      if (shm.entry l).ownerNode ≠ n then (shm, .idle) else (shm, .loadNext)
  | .loadNext =>
      if (shm.node n).nextNode = invalidNodeId then (shm, .releaseLoad) else (shm, .loadSucc)
  | .releaseLoad => (shm, .casRelease (shm.entry l).lockWord)
  | .casRelease oldWord =>
      if (shm.entry l).lockWord = oldWord then
        if qspinTailIdx oldWord = qspinNodeToTail n then (shm.storeWord l 0, .clearPending)
        else (shm.storeWord l oldWord, .spinNext 0)
      else (shm, .spinNext 0)
  | .clearPending => (shm.storePending l invalidNodeId, .clearOwner)
  | .clearOwner => (shm.storeOwner l invalidNodeId, .resetNext)
  | .spinNext spinCount =>
      if (shm.node n).nextNode = invalidNodeId then
        if maxSpin < spinCount + 1 then (shm, .recheckNext) else (shm, .spinNext (spinCount + 1))
      else (shm, .recheckNext)
  | .recheckNext =>
      if (shm.node n).nextNode = invalidNodeId then (shm, .forceOwner) else (shm, .loadSucc)
  | .forceOwner => (shm.storeOwner l invalidNodeId, .forceLocked)
  | .forceLocked => (shm.storeLocked n 0, .forceWaiting)
  | .forceWaiting => (shm.storeWaiting n invalidLockId, .idle)
  | .loadSucc => (shm, .passPending (shm.node n).nextNode)
  | .passPending succId => (shm.storePending l succId, .passOwner succId)
  | .passOwner succId => (shm.storeOwner l succId, .passWord succId)
  | .passWord succId => (shm.storeWord l (qspinHeldWord (qspinNodeToTail succId)), .wake succId)
  | .wake succId => (shm.storeLocked succId 2, .resetNext)
  | .resetNext => (shm.storeNext n invalidNodeId, .resetLocked)
  | .resetLocked => (shm.storeLocked n 0, .resetWaiting)
  | .resetWaiting => (shm.storeWaiting n invalidLockId, .idle)

/-- One access of the lock manager. -/
def managerStep (nodeCount : UInt32) (l : LockId) (shm : QspinShm) :
    ManagerPc → QspinShm × ManagerPc
  | .loadWord =>
      let word := (shm.entry l).lockWord
      if qspinLocked word ≠ 0 ∨ qspinTailIdx word = 0 then (shm, .loadWord)
      else (shm, .loadGip)
  | .loadGip =>
      if (shm.entry l).grantInProgress ≠ 0 then (shm, .loadWord) else (shm, .loadPending)
  | .loadPending =>
      let head := (shm.entry l).pendingTail
      if head = invalidNodeId ∨ head ≥ nodeCount then (shm, .loadWord)
      else (shm, .loadLocked head)
  | .loadLocked head => (shm, .loadWaiting head (shm.node head).locked)
  | .loadWaiting head headLocked =>
      if headLocked ≠ 1 ∨ (shm.node head).waitingLock ≠ l then (shm, .loadWord)
      else (shm, .storeGip head)
  | .storeGip head => (shm.storeGip l 1, .grantLocked head)
  | .grantLocked nodeId => (shm.storeLocked nodeId 2, .grantOwner nodeId)
  | .grantOwner nodeId => (shm.storeOwner l nodeId, .grantWord nodeId)
  | .grantWord nodeId =>
      (shm.storeWord l (qspinHeldWord (qspinNodeToTail nodeId)), .loadNext nodeId)
  | .loadNext nodeId => (shm, .storePending (shm.node nodeId).nextNode)
  | .storePending nextHead => (shm.storePending l nextHead, .clearGip)
  | .clearGip => (shm.storeGip l 0, .loadWord)

/-- The nodes below `node_count` and the lock manager on lock `l`. -/
def machine (size : SystemSize) (l : LockId) :
    Machine NodeId Unit QspinShm NodePc ManagerPc where
  start shm := l < size.maxLocks ∧ ∃ shm₀, shm = (initializeShm size.nodeCount shm₀).2
  idle := .idle
  managerIdle := .loadWord
  party n _ shm pc := if n < size.nodeCount then some (nodeStep l n shm pc) else none
  manager shm pc := some (managerStep size.nodeCount l shm pc)

/-- A state of the interleaved qspinlock. -/
abbrev State := Config NodeId QspinShm NodePc ManagerPc

/-- The state right after `initialize` of a zeroed region. -/
def zeroedStart (size : SystemSize) (l : LockId) : State :=
  (machine size l).initial
    (initializeShm size.nodeCount ⟨fun _ => ⟨0, 0, 0, 0⟩, fun _ => ⟨0, 0, 0, 0⟩⟩).2

lemma zeroedStart_init (size : SystemSize) {l : LockId} (hl : l < size.maxLocks) :
    (machine size l).system.init (zeroedStart size l) :=
  Machine.initial_init ⟨hl, _, rfl⟩

lemma machine_neverBlocks (size : SystemSize) (l : LockId) :
    (machine size l).NeverBlocks (· < size.nodeCount) (nodeStep l)
      (managerStep size.nodeCount l) where
  party h := by
    obtain ⟨hn, hr⟩ := Option.ite_none_right_eq_some.1 h
    exact ⟨hn, (Option.some.inj hr).symm⟩
  manager _ _ := rfl

namespace NodePc

/-- The node has marked its record as waiting and has not entered yet. -/
@[simp] def requesting : NodePc → Bool
  | .storeWaiting | .casFast | .loadWord | .casWord _ | .storePending | .linkPred _
  | .pollLocked | .pollWaiting _ => true
  | .idle | .storeLocked | .fastLocked | .fastOwner | .fastPending | .critical | .loadNext
  | .releaseLoad | .casRelease _ | .clearPending | .clearOwner | .spinNext _ | .recheckNext
  | .forceOwner | .forceLocked | .forceWaiting | .loadSucc | .passPending _ | .passOwner _
  | .passWord _ | .wake _ | .resetNext | .resetLocked | .resetWaiting => false

/-- The node has taken the lock on the fast path, or has entered and has neither emptied the
queue, nor forced the release, nor woken its successor. -/
@[simp] def holding : NodePc → Bool
  | .fastLocked | .fastOwner | .fastPending | .critical | .loadNext | .releaseLoad
  | .casRelease _ | .spinNext _ | .recheckNext | .loadSucc | .passPending _ | .passOwner _
  | .passWord _ | .wake _ => true
  | .idle | .storeLocked | .storeWaiting | .casFast | .loadWord | .casWord _ | .storePending
  | .linkPred _ | .pollLocked | .pollWaiting _ | .clearPending | .clearOwner | .forceOwner
  | .forceLocked | .forceWaiting | .resetNext | .resetLocked | .resetWaiting => false

end NodePc

namespace ManagerPc

/-- The manager has seen a queue without a holder and not granted yet. -/
@[simp] def deciding : ManagerPc → Bool
  | .loadGip | .loadPending | .loadLocked _ | .loadWaiting _ _ | .storeGip _
  | .grantLocked _ => true
  | _ => false

/-- The manager has granted and not yet stored the lock word. -/
@[simp] def committing : ManagerPc → Bool
  | .grantOwner _ | .grantWord _ => true
  | _ => false

end ManagerPc

/-- No two nodes are between their successful poll and their `release_lock`. -/
def Exclusive (s : State) : Prop :=
  ∀ n m, s.pc n = .critical → s.pc m = .critical → n = m

end CxlLock.Qspinlock

import CxlLock.Mcs.GlobalLock
import CxlLock.Lib.Interleaving

/-!
# The MCS lock, access by access

All nodes use one lock `l`; the lock manager runs `check_grant` and `grant_lock` on it.  Each
event is one access to shared memory.  A node calls `acquire_lock`, polls its `McsNode`, is
inside the critical section once the poll has succeeded, and calls `release_lock`.

A program counter names the access that comes next and carries the local variables that are
still needed.  The memory also records when each node last swapped itself into the tail; no
program reads that record.
-/

namespace CxlLock.Mcs

open Transition

/-- The shared records, and the order in which the nodes have joined the queue. -/
structure Memory where
  shm : McsShm
  /-- How often a node has joined the queue so far. -/
  joins : Nat
  /-- When each node last joined, in numbers of joins. -/
  joinedAt : NodeId → Nat

/-- The next access of a node. -/
inductive NodePc
  /-- Not in any call; `acquire_lock` begins with the store to `next_node`. -/
  | idle
  | storeLocked
  | storeWaiting
  /-- The loop around the exchange of the tail. -/
  | casTail (oldTail : NodeId)
  | loadTail
  /-- Step 4 of `acquire_lock`. -/
  | storeHead
  | linkPred (oldTail : NodeId)
  /-- The two loads of one turn of `poll_for_grant`. -/
  | pollLocked
  | pollWaiting (nodeLocked : UInt32)
  /-- Between the successful poll and `release_lock`, which begins with the load of the
  owner. -/
  | critical
  | loadNext
  | casTailEmpty
  /-- The queue is empty: clear head and owner. -/
  | clearHead
  | clearOwner
  /-- Wait for the successor to be linked. -/
  | spinNext
  /-- Step 3 of `release_lock`. -/
  | passHead (succ : NodeId)
  | passOwner (succ : NodeId)
  | wake (succ : NodeId)
  /-- Reset of the own record on both exits. -/
  | resetNext
  | resetLocked
  | resetWaiting
  deriving DecidableEq

/-- The next access of the lock manager. -/
inductive ManagerPc
  | loadOwner
  | loadHead
  | loadLocked (head : NodeId)
  | loadWaiting (head : NodeId) (locked : UInt32)
  /-- The two stores of `grant_lock`. -/
  | grantLocked (nodeId : NodeId)
  | grantOwner (nodeId : NodeId)
  deriving DecidableEq

/-- One access of a node. -/
def nodeStep (l : LockId) (n : NodeId) (m : Memory) : NodePc → Memory × NodePc
  | .idle => ({ m with shm := m.shm.storeNext n invalidNodeId }, .storeLocked)
  | .storeLocked => ({ m with shm := m.shm.storeLocked n 1 }, .storeWaiting)
  | .storeWaiting => ({ m with shm := m.shm.storeWaiting n l }, .casTail invalidNodeId)
  | .casTail oldTail =>
      if (m.shm.entry l).tailNode = oldTail then
        ({ shm := m.shm.storeTail l n
           joins := m.joins + 1
           joinedAt := Function.update m.joinedAt n m.joins },
          if oldTail = invalidNodeId then .storeHead else .linkPred oldTail)
      else (m, .loadTail)
  | .loadTail =>
      -- our own id in the tail ends the loop as if the exchange had succeeded
      if (m.shm.entry l).tailNode = n then (m, .linkPred n)
      else (m, .casTail (m.shm.entry l).tailNode)
  | .storeHead => ({ m with shm := m.shm.storeHead l n }, .pollLocked)
  | .linkPred oldTail => ({ m with shm := m.shm.storeNext oldTail n }, .pollLocked)
  | .pollLocked => (m, .pollWaiting (m.shm.node n).locked)
  | .pollWaiting nodeLocked =>
      if (nodeLocked = 2 ∨ nodeLocked = 0) ∧ (m.shm.node n).waitingLock = l then (m, .critical)
      else (m, .pollLocked)
  | .critical =>
      -- `ERROR_NOT_OWNER`: the call returns and leaves everything as it is
      if (m.shm.entry l).ownerNode ≠ n then (m, .idle) else (m, .loadNext)
  | .loadNext =>
      if (m.shm.node n).nextNode = invalidNodeId then (m, .casTailEmpty)
      else (m, .passHead (m.shm.node n).nextNode)
  | .casTailEmpty =>
      if (m.shm.entry l).tailNode = n then
        ({ m with shm := m.shm.storeTail l invalidNodeId }, .clearHead)
      else (m, .spinNext)
  | .clearHead => ({ m with shm := m.shm.storeHead l invalidNodeId }, .clearOwner)
  | .clearOwner => ({ m with shm := m.shm.storeOwner l invalidNodeId }, .resetNext)
  | .spinNext =>
      if (m.shm.node n).nextNode = invalidNodeId then (m, .spinNext)
      else (m, .passHead (m.shm.node n).nextNode)
  | .passHead succ => ({ m with shm := m.shm.storeHead l succ }, .passOwner succ)
  | .passOwner succ => ({ m with shm := m.shm.storeOwner l succ }, .wake succ)
  | .wake succ => ({ m with shm := m.shm.storeLocked succ 0 }, .resetNext)
  | .resetNext => ({ m with shm := m.shm.storeNext n invalidNodeId }, .resetLocked)
  | .resetLocked => ({ m with shm := m.shm.storeLocked n 0 }, .resetWaiting)
  | .resetWaiting => ({ m with shm := m.shm.storeWaiting n invalidLockId }, .idle)

/-- One access of the lock manager. -/
def managerStep (nodeCount : UInt32) (l : LockId) (m : Memory) :
    ManagerPc → Memory × ManagerPc
  | .loadOwner =>
      if (m.shm.entry l).ownerNode ≠ invalidNodeId then (m, .loadOwner) else (m, .loadHead)
  | .loadHead =>
      let head := (m.shm.entry l).headNode
      if head = invalidNodeId ∨ head ≥ nodeCount then (m, .loadOwner)
      else (m, .loadLocked head)
  | .loadLocked head => (m, .loadWaiting head (m.shm.node head).locked)
  | .loadWaiting head locked =>
      if locked = 1 ∧ (m.shm.node head).waitingLock = l then (m, .grantLocked head)
      else (m, .loadOwner)
  | .grantLocked nodeId => ({ m with shm := m.shm.storeLocked nodeId 2 }, .grantOwner nodeId)
  | .grantOwner nodeId => ({ m with shm := m.shm.storeOwner l nodeId }, .loadOwner)

/-- The nodes below `node_count` and the lock manager on lock `l`. -/
def machine (size : SystemSize) (l : LockId) : Machine NodeId Unit Memory NodePc ManagerPc where
  start m := l < size.maxLocks ∧ ∃ shm, m.shm = (initializeShm size.nodeCount shm).2
  idle := .idle
  managerIdle := .loadOwner
  party n _ m pc := if n < size.nodeCount then some (nodeStep l n m pc) else none
  manager m pc := some (managerStep size.nodeCount l m pc)

/-- A state of the interleaved MCS lock. -/
abbrev State := Config NodeId Memory NodePc ManagerPc

/-- The state right after `initialize` of a zeroed region. -/
def zeroedStart (size : SystemSize) (l : LockId) : State :=
  (machine size l).initial
    ⟨(initializeShm size.nodeCount ⟨fun _ => ⟨0, 0, 0⟩, fun _ => ⟨0, 0, 0⟩⟩).2, 0, fun _ => 0⟩

lemma zeroedStart_init (size : SystemSize) {l : LockId} (hl : l < size.maxLocks) :
    (machine size l).system.init (zeroedStart size l) :=
  Machine.initial_init ⟨hl, _, rfl⟩

lemma machine_neverBlocks (size : SystemSize) (l : LockId) :
    (machine size l).NeverBlocks (· < size.nodeCount) (nodeStep l)
      (managerStep size.nodeCount l) where
  party h := by
    obtain ⟨hn, hr⟩ := Option.ite_none_right_eq_some.1 h
    exact ⟨hn, (Option.some.inj hr).symm⟩
  manager _ _ := rfl

namespace NodePc

/-- The node has marked its record as waiting and has not entered yet. -/
@[simp] def requesting : NodePc → Bool
  | .storeWaiting | .casTail _ | .loadTail | .storeHead | .linkPred _ | .pollLocked
  | .pollWaiting _ => true
  | .idle | .storeLocked | .critical | .loadNext | .casTailEmpty | .clearHead | .clearOwner
  | .spinNext | .passHead _ | .passOwner _ | .wake _ | .resetNext | .resetLocked
  | .resetWaiting => false

/-- The node has entered and has neither emptied the queue nor woken its successor. -/
@[simp] def holding : NodePc → Bool
  | .critical | .loadNext | .casTailEmpty | .spinNext | .passHead _ | .passOwner _
  | .wake _ => true
  | .idle | .storeLocked | .storeWaiting | .casTail _ | .loadTail | .storeHead | .linkPred _
  | .pollLocked | .pollWaiting _ | .clearHead | .clearOwner | .resetNext | .resetLocked
  | .resetWaiting => false

/-- In `release_lock` past the ownership check, with `owner_node` still unchanged. -/
@[simp] def owning : NodePc → Bool
  | .loadNext | .casTailEmpty | .clearHead | .clearOwner | .spinNext | .passHead _
  | .passOwner _ => true
  | .idle | .storeLocked | .storeWaiting | .casTail _ | .loadTail | .storeHead | .linkPred _
  | .pollLocked | .pollWaiting _ | .critical | .wake _ | .resetNext | .resetLocked
  | .resetWaiting => false

/-- The queue has been emptied, but `owner_node` is not cleared yet. -/
@[simp] def emptying : NodePc → Bool
  | .clearHead | .clearOwner => true
  | .idle | .storeLocked | .storeWaiting | .casTail _ | .loadTail | .storeHead | .linkPred _
  | .pollLocked | .pollWaiting _ | .critical | .loadNext | .casTailEmpty | .spinNext
  | .passHead _ | .passOwner _ | .wake _ | .resetNext | .resetLocked | .resetWaiting => false

end NodePc

/-- The manager has read an invalid owner and not granted yet. -/
@[simp] def ManagerPc.deciding : ManagerPc → Bool
  | .loadHead | .loadLocked _ | .loadWaiting _ _ | .grantLocked _ => true
  | _ => false

/-- The node the manager has found at the head of the queue. -/
@[simp] def ManagerPc.candidate : ManagerPc → Option NodeId
  | .loadLocked head | .loadWaiting head _ | .grantLocked head | .grantOwner head => some head
  | .loadOwner | .loadHead => none

/-- No two nodes are between their successful poll and their `release_lock`. -/
def Exclusive (s : State) : Prop :=
  ∀ n m, s.pc n = .critical → s.pc m = .critical → n = m

end CxlLock.Mcs
